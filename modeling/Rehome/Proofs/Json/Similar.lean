import Rehome.Proofs.Json.Doubles
import Rehome.Proofs.Json.RoundTrip

/-! # Values read back up to doubles

Not every double is read back from its text, but the text of a double is never read as anything but a
double. So what the text of a value is read as differs from the value in doubles at most
(`blur_of_parse?_compact`). Here a reader is followed backwards: if it gets through a text and what comes
after that, it has come by one of certain states in between (`ComesBy`). -/

namespace Rehome.Json

/-! ## Values without their doubles -/

mutual

/-- The value with zero in the place of every double. -/
def blur : Json → Json
  | .double _ => .double (.zero false)
  | .arr items => .arr (blurItems items)
  | .obj members => .obj (blurMembers members)
  | j => j

def blurItems : List Json → List Json
  | [] => []
  | j :: rest => blur j :: blurItems rest

def blurMembers : List (String × Json) → List (String × Json)
  | [] => []
  | (k, j) :: rest => (k, blur j) :: blurMembers rest

end

theorem blurItems_eq_map (items : List Json) : blurItems items = items.map blur := by
  induction items with
  | nil => rfl
  | cons j rest ih => rw [blurItems, ih, List.map_cons]

theorem blurMembers_eq_map (members : List (String × Json)) :
    blurMembers members = members.map fun e => (e.1, blur e.2) := by
  induction members with
  | nil => rfl
  | cons e rest ih => rw [blurMembers, ih, List.map_cons]

theorem mem_blurItems {items : List Json} {j : Json} (h : j ∈ items) : blur j ∈ blurItems items := by
  rw [blurItems_eq_map]
  exact List.mem_map_of_mem h

theorem blur_arr_congr {j j' : Json} (before after : List Json) (h : j'.blur = j.blur) :
    blur (.arr (before ++ j' :: after)) = blur (.arr (before ++ j :: after)) := by
  simp [blur, blurItems_eq_map, h]

theorem blur_obj_congr {j j' : Json} (before after : List (String × Json)) (key : String)
    (h : j'.blur = j.blur) :
    blur (.obj (before ++ (key, j') :: after)) = blur (.obj (before ++ (key, j) :: after)) := by
  simp [blur, blurMembers_eq_map, h]

theorem mem_blurMembers {members : List (String × Json)} {e : String × Json} (h : e ∈ members) :
    (e.1, blur e.2) ∈ blurMembers members := by
  rw [blurMembers_eq_map]
  exact List.mem_map_of_mem h

theorem keys_blurMembers (members : List (String × Json)) :
    (blurMembers members).map Prod.fst = members.map Prod.fst := by
  rw [blurMembers_eq_map, List.map_map]
  rfl

/-- A value is legible if it differs from a legible one in doubles at most. -/
theorem Legible.of_blur_eq {P : Binary64 → Prop} {depth : Nat} {j j' : Json} (h : Legible P depth j)
    (hblur : j'.blur = j.blur) : Legible (fun _ => True) depth j' := by
  induction h generalizing j' with
  | null => cases j' <;> cases hblur; exact .null
  | bool b => cases j' <;> cases hblur; exact .bool b
  | int hn => cases j' <;> cases hblur; exact .int hn
  | double _ => cases j' <;> cases hblur; exact .double trivial
  | str s => cases j' <;> cases hblur; exact .str s
  | @arr _ items _ ih =>
    cases j' with
    | arr items' =>
      refine .arr fun j' hj' => ?_
      have hmem : blur j' ∈ blurItems items := Json.arr.inj hblur ▸ mem_blurItems hj'
      rw [blurItems_eq_map] at hmem
      obtain ⟨j, hj, hsame⟩ := List.mem_map.1 hmem
      exact ih j hj hsame.symm
    | _ => cases hblur
  | @obj _ members hkeys _ ih =>
    cases j' with
    | obj members' =>
      have hmembers := Json.obj.inj hblur
      refine .obj ?_ fun e' he' => ?_
      · rw [← keys_blurMembers, hmembers, keys_blurMembers]
        exact hkeys
      have hmem : (e'.1, blur e'.2) ∈ blurMembers members := hmembers ▸ mem_blurMembers he'
      rw [blurMembers_eq_map] at hmem
      obtain ⟨e, he, hsame⟩ := List.mem_map.1 hmem
      exact ih e he (Prod.mk.inj hsame).2.symm
    | _ => cases hblur

/-! ## Reading backwards -/

section Run

variable (limit : Nat)

/-- A reader that gets through a text and what follows it has come by one of the states in between. -/
def ComesBy (F : List Char → Prop) (cs : List Char) (s : Reading Json String)
    (S : Set (Reading Json String)) : Prop :=
  ∀ n rest u, F rest → run limit n (cs ++ rest) s = some u → ∃ m, ∃ s' ∈ S, run limit m rest s' = some u

variable {limit} {F G : List Char → Prop} {cs cs' : List Char} {s : Reading Json String}
  {S S' : Set (Reading Json String)}

theorem exists_step_of_run {c : Char} {n : Nat} {u : Reading Json String} (hc : isSpace c = false)
    (h : run limit n (c :: cs) s = some u) : ∃ m t rest s', Token.read (c :: cs) = some (t, rest) ∧
      Reading.step .value (some limit) s t = some s' ∧ run limit m rest s' = some u := by
  cases n with
  | zero =>
    rw [run, Token.readAll, if_neg (by simp [hc])] at h
    cases h
  | succ n =>
    cases hread : Token.read (c :: cs) with
    | none =>
      rw [run, Token.readAll, List.dropWhile_cons_of_neg (by simp [hc])] at h
      dsimp only at h
      rw [hread] at h
      cases h
    | some p =>
      rw [run_token limit hread] at h
      obtain ⟨s', hstep, hrun⟩ := Option.bind_eq_some_iff.1 h
      exact ⟨n, p.1, p.2, s', rfl, hstep, hrun⟩

theorem ComesBy.token {t : Token} (hcs : cs ≠ [])
    (hread : ∀ rest, F rest → Token.read (cs ++ rest) = some (t, rest))
    (hstep : ∀ s', Reading.step .value (some limit) s t = some s' → s' ∈ S) : ComesBy limit F cs s S := by
  intro n rest u hrest hrun
  have hread := hread rest hrest
  obtain ⟨c, cs, rfl⟩ := List.exists_cons_of_ne_nil hcs
  obtain ⟨m, t', rest', s', hread', hs', hrun⟩ := exists_step_of_run (not_isSpace_of_read hread) hrun
  obtain ⟨rfl, rfl⟩ := Prod.mk.inj (Option.some.inj (hread.symm.trans hread'))
  exact ⟨m, s', hstep s' hs', hrun⟩

theorem ComesBy.append (h : ComesBy limit F cs s S) (h' : ∀ s' ∈ S, ComesBy limit G cs' s' S')
    (hfollow : ∀ rest, G rest → F (cs' ++ rest)) : ComesBy limit G (cs ++ cs') s S' := by
  intro n rest u hrest hrun
  rw [List.append_assoc] at hrun
  obtain ⟨m, s', hs', hrun⟩ := h n _ u (hfollow rest hrest) hrun
  exact h' s' hs' m rest u hrest hrun

theorem ComesBy.mono (h : ComesBy limit F cs s S) (hfollow : ∀ rest, G rest → F rest) :
    ComesBy limit G cs s S :=
  fun n rest u hrest => h n rest u (hfollow rest hrest)

/-- One character that is a token stands before the rest of a text. -/
theorem ComesBy.cons {c : Char} {t : Token} (hread : ∀ rest, Token.read (c :: rest) = some (t, rest))
    (h : ∀ s', Reading.step .value (some limit) s t = some s' → ComesBy limit F cs s' S) :
    ComesBy limit F (c :: cs) s S :=
  (ComesBy.token (F := Any) (List.cons_ne_nil c []) (fun rest _ => hread rest) fun _ hs => hs).append
    (S := {s' | Reading.step .value (some limit) s t = some s'}) h fun _ _ => trivial

/-! ## Values read as similar ones -/

/-- The place that awaited a value has been filled, by a value that differs in doubles at most. -/
def Filled (j : Json) (stack : List (Open Json String)) : Set (Reading Json String) :=
  {s | ∃ j', j'.blur = j.blur ∧ s = Reading.fill j' stack}

/-- The text of a value can only fill the place that awaits one, and with nothing but such a value. -/
def Yields (limit : Nat) (j : Json) (stack : List (Open Json String)) : Prop :=
  ∀ s, Awaits limit stack s → ComesBy limit Stops (chars j) s (Filled j stack)

variable {stack : List (Open Json String)} {j j' : Json}

theorem filled_congr (h : j.blur = j'.blur) : Filled j stack = Filled j' stack := by
  simp only [Filled, h]

theorem comesBy_itemsTail {items : List Json} (before : List Json)
    (h : ∀ j ∈ items, ∀ before, Yields limit j (.arr before :: stack)) :
    ComesBy limit Any (itemsTail items ++ [']']) (.afterItem before stack)
      (Filled (.arr (before.reverse ++ items)) stack) := by
  induction items generalizing before with
  | nil =>
    refine ComesBy.token (List.cons_ne_nil _ _) (fun rest _ => rfl) fun s' hs' => ?_
    obtain rfl := Option.some.inj hs'
    exact ⟨_, rfl, by rw [List.append_nil]; rfl⟩
  | cons j items ih =>
    have hitem := h j List.mem_cons_self before _ (awaits_item false before)
    have hrest : ∀ s ∈ Filled j (.arr before :: stack), ComesBy limit Any (itemsTail items ++ [']']) s
        (Filled (.arr (before.reverse ++ j :: items)) stack) := by
      rintro s ⟨j', hj', rfl⟩
      have hrest := ih (j' :: before) fun j hmem => h j (List.mem_cons_of_mem _ hmem)
      rwa [List.reverse_cons, List.append_assoc, List.singleton_append,
        filled_congr (blur_arr_congr _ _ hj')] at hrest
    have hall := hitem.append hrest fun rest _ => stops_itemsTail items rest
    simp only [itemsTail, List.cons_append, List.append_assoc] at hall ⊢
    refine ComesBy.cons (fun _ => rfl) fun s' hs' => ?_
    obtain rfl := Option.some.inj hs'
    exact hall

theorem comesBy_itemChars {items : List Json}
    (h : ∀ j ∈ items, ∀ before, Yields limit j (.arr before :: stack)) :
    ComesBy limit Any (itemChars items ++ [']']) (.item true [] stack) (Filled (.arr items) stack) := by
  cases items with
  | nil =>
    refine ComesBy.token (List.cons_ne_nil _ _) (fun rest _ => rfl) fun s' hs' => ?_
    obtain rfl := Option.some.inj hs'
    exact ⟨_, rfl, rfl⟩
  | cons j items =>
    have hitem := h j List.mem_cons_self [] _ (awaits_item true [])
    rw [itemChars, List.append_assoc]
    refine hitem.append ?_ fun rest _ => stops_itemsTail items rest
    rintro s ⟨j', hj', rfl⟩
    have hrest := comesBy_itemsTail [j'] fun j hmem => h j (List.mem_cons_of_mem _ hmem)
    have hsame : blur (.arr (j' :: items)) = blur (.arr (j :: items)) := blur_arr_congr [] items hj'
    exact filled_congr hsame ▸ hrest

/-- A member has been read, with a value that differs in doubles at most. -/
def FilledMember (key : String) (j : Json) (before : List (String × Json))
    (stack : List (Open Json String)) : Set (Reading Json String) :=
  {s | ∃ j', j'.blur = j.blur ∧ s = .afterMember ((key, j') :: before) stack}

theorem comesBy_member {key : String} {before : List (String × Json)} (first : Bool)
    (h : Yields limit j (.member before key :: stack)) :
    ComesBy limit Stops (stringChars key ++ ':' :: chars j) (.key first before stack)
      (FilledMember key j before stack) := by
  have hkey : ComesBy limit Any (stringChars key) (.key first before stack)
      {.colon before key stack} := by
    refine ComesBy.token (List.cons_ne_nil _ _) (fun rest _ => read_stringChars key rest) fun s' hs' => ?_
    have hcolon : (Piece.text? (key.toList.map Piece.ofChar)).map (Reading.colon before · stack) =
        some s' := by
      cases first <;> exact hs'
    rw [Piece.text?_map_ofChar] at hcolon
    exact (Option.some.inj hcolon).symm
  refine hkey.append ?_ fun _ _ => trivial
  rintro s rfl
  refine ComesBy.cons (fun _ => rfl) fun s' hs' => ?_
  obtain rfl := Option.some.inj hs'
  exact h _ awaits_start

theorem comesBy_membersTail {members : List (String × Json)} (before : List (String × Json))
    (h : ∀ e ∈ members, ∀ before key, Yields limit e.2 (.member before key :: stack)) :
    ComesBy limit Any (membersTail members ++ ['}']) (.afterMember before stack)
      (Filled (.obj (before.reverse ++ members)) stack) := by
  induction members generalizing before with
  | nil =>
    refine ComesBy.token (List.cons_ne_nil _ _) (fun rest _ => rfl) fun s' hs' => ?_
    obtain rfl := Option.some.inj hs'
    exact ⟨_, rfl, by rw [List.append_nil]; rfl⟩
  | cons e members ih =>
    obtain ⟨key, j⟩ := e
    have hmember := comesBy_member false (h (key, j) List.mem_cons_self before key)
    have hrest : ∀ s ∈ FilledMember key j before stack, ComesBy limit Any (membersTail members ++ ['}']) s
        (Filled (.obj (before.reverse ++ (key, j) :: members)) stack) := by
      rintro s ⟨j', hj', rfl⟩
      have hrest := ih ((key, j') :: before) fun e hmem => h e (List.mem_cons_of_mem _ hmem)
      rwa [List.reverse_cons, List.append_assoc, List.singleton_append,
        filled_congr (blur_obj_congr _ _ key hj')] at hrest
    have hall := hmember.append hrest fun rest _ => stops_membersTail members rest
    simp only [membersTail, List.cons_append, List.append_assoc] at hall ⊢
    refine ComesBy.cons (fun _ => rfl) fun s' hs' => ?_
    obtain rfl := Option.some.inj hs'
    exact hall

theorem comesBy_memberChars {members : List (String × Json)}
    (h : ∀ e ∈ members, ∀ before key, Yields limit e.2 (.member before key :: stack)) :
    ComesBy limit Any (memberChars members ++ ['}']) (.key true [] stack) (Filled (.obj members) stack) := by
  cases members with
  | nil =>
    refine ComesBy.token (List.cons_ne_nil _ _) (fun rest _ => rfl) fun s' hs' => ?_
    obtain rfl := Option.some.inj hs'
    exact ⟨_, rfl, rfl⟩
  | cons e members =>
    obtain ⟨key, j⟩ := e
    have hmember := comesBy_member true (h (key, j) List.mem_cons_self [] key)
    have hrest : ∀ s ∈ FilledMember key j [] stack, ComesBy limit Any (membersTail members ++ ['}']) s
        (Filled (.obj ((key, j) :: members)) stack) := by
      rintro s ⟨j', hj', rfl⟩
      have hrest := comesBy_membersTail [(key, j')] fun e hmem => h e (List.mem_cons_of_mem _ hmem)
      have hsame : blur (.obj ((key, j') :: members)) = blur (.obj ((key, j) :: members)) :=
        blur_obj_congr [] members key hj'
      exact filled_congr hsame ▸ hrest
    have hall := hmember.append hrest fun rest _ => stops_membersTail members rest
    simp only [memberChars, List.cons_append, List.append_assoc] at hall ⊢
    exact hall

/-- A number cannot come right after a value. -/
theorem not_run_zero {n : Nat} {u : Reading Json String} :
    run limit n ('0' :: cs) (Reading.fill j stack) ≠ some u := by
  intro hrun
  obtain ⟨m, t, rest, s', hread, hstep, -⟩ := exists_step_of_run rfl hrun
  rw [Token.read] at hread
  · obtain ⟨⟨l, rest'⟩, -, hl⟩ := Option.bind_eq_some_iff.1 hread
    obtain ⟨rfl, -⟩ := Prod.mk.inj (Option.some.inj hl)
    rcases stack with _ | ⟨_ | _ | _, _⟩
    all_goals cases hstep
  all_goals
    rintro _ h
    cases h

theorem comesBy_number {l : Literal} (hs : Awaits limit stack s) (hread : Literal.read cs = some (l, []))
    (hvalue : ∀ j', l.value? = some j' → j'.blur = j.blur) :
    ComesBy limit Stops cs s (Filled j stack) := by
  have hne : cs ≠ [] := by
    rintro rfl
    cases hread
  refine ComesBy.token hne (fun rest hrest => read_of_literal (Literal.read_append hrest hread)) ?_
  intro s' hs'
  rw [hs (.number l) Token.noConfusion] at hs'
  obtain ⟨j', hj', rfl⟩ := Option.map_eq_some_iff.1 hs'
  exact ⟨j', hvalue j' hj', rfl⟩

/-- The text of a double is read as a double, if a value is read at all. -/
theorem yields_double (x : Binary64) : Yields limit (.double x) stack := by
  intro s hs
  rcases decimalChars_cases x.shortest with ⟨w, f, e, hread, hmark, -⟩ | ⟨-, -, cs, hzeros⟩
  · refine comesBy_number hs (read_doubleChars_of_readUnsigned hread) fun j' hj' => ?_
    rw [value?_of_fraction hmark] at hj'
    obtain ⟨y, -, rfl⟩ := Option.map_eq_some_iff.1 hj'
    rfl
  · -- a zero is read alone, and another stands where none may
    intro n rest u hrest hrun
    obtain ⟨c, cs', hc, hchars, hread⟩ : ∃ c cs', isSpace c = false ∧ doubleChars x ++ rest = c :: cs' ∧
        Token.read (c :: cs') = some (.number ⟨x.negative, ['0'], [], none⟩, '0' :: (cs ++ rest)) := by
      rw [doubleChars, hzeros]
      cases x.negative
      · exact ⟨'0', _, rfl, rfl, rfl⟩
      · exact ⟨'-', _, rfl, rfl, rfl⟩
    rw [chars, hchars] at hrun
    obtain ⟨m, t, rest', s', hread', hstep, hrun⟩ := exists_step_of_run hc hrun
    obtain ⟨rfl, rfl⟩ := Prod.mk.inj (Option.some.inj (hread.symm.trans hread'))
    rw [hs (.number _) Token.noConfusion] at hstep
    obtain ⟨j', -, rfl⟩ := Option.map_eq_some_iff.1 hstep
    exact absurd hrun not_run_zero

theorem Legible.yields {P : Binary64 → Prop} {depth : Nat} (h : Legible P depth j) :
    Yields limit j stack := by
  induction h generalizing stack with
  | null =>
    intro s hs
    refine ComesBy.token (List.cons_ne_nil _ _) (fun rest _ => rfl) fun s' hs' => ?_
    rw [hs .null nofun] at hs'
    exact ⟨_, rfl, (Option.some.inj hs').symm⟩
  | bool b =>
    intro s hs
    have hread : ∀ rest, Token.read (chars (.bool b) ++ rest) = some (.bool b, rest) := by
      cases b <;> exact fun _ => rfl
    refine ComesBy.token (by cases b <;> exact List.cons_ne_nil _ _) (fun rest _ => hread rest) ?_
    intro s' hs'
    rw [hs (.bool b) nofun] at hs'
    exact ⟨_, rfl, (Option.some.inj hs').symm⟩
  | int hn =>
    refine fun s hs => comesBy_number hs (read_intChars _) fun j' hj' => ?_
    rw [value?_intChars hn] at hj'
    rw [Option.some.inj hj']
  | double _ => exact yields_double _
  | str t =>
    intro s hs
    refine ComesBy.token (List.cons_ne_nil _ _) (fun rest _ => read_stringChars t rest) fun s' hs' => ?_
    have hstr : ((Piece.text? (t.toList.map Piece.ofChar)).map Json.str).map (Reading.fill · stack) =
        some s' := (hs (.str _) nofun).symm.trans hs'
    rw [Piece.text?_map_ofChar] at hstr
    exact ⟨_, rfl, (Option.some.inj hstr).symm⟩
  | arr _ ih =>
    intro s hs
    refine (ComesBy.cons (fun _ => rfl) fun s' hs' => ?_).mono fun _ _ => trivial
    rw [hs .openArr nofun] at hs'
    obtain rfl := Option.some.inj (Option.ite_none_right_eq_some.1 hs').2
    exact comesBy_itemChars fun j hj _ => ih j hj
  | obj _ _ ih =>
    intro s hs
    refine (ComesBy.cons (fun _ => rfl) fun s' hs' => ?_).mono fun _ _ => trivial
    rw [hs .openObj nofun] at hs'
    obtain rfl := Option.some.inj (Option.ite_none_right_eq_some.1 hs').2
    exact comesBy_memberChars fun e he _ _ => ih e he

/-- The text of a legible value is read as a value that differs from it in doubles at most. -/
theorem blur_of_read_compact {P : Binary64 → Prop} {depth : Nat} (h : Legible P depth j)
    (hread : read limit j.compact = some j') : j'.blur = j.blur := by
  rw [read_eq_run, compact, String.toList_ofList] at hread
  obtain ⟨u, hrun, hfinish⟩ := Option.bind_eq_some_iff.1 hread
  rw [← List.append_nil (chars j)] at hrun
  obtain ⟨m, s, ⟨a, ha, rfl⟩, hrun⟩ := h.yields (.start []) awaits_start _ [] u stops_nil hrun
  rw [run_nil] at hrun
  obtain rfl := Option.some.inj hrun
  obtain rfl := Option.some.inj hfinish
  exact ha

end Run

theorem blur_of_parse?_compact {P : Binary64 → Prop} {depth : Nat} {j j' : Json} (h : Legible P depth j)
    (hread : parse? j.compact = some j') : j'.blur = j.blur := by
  obtain ⟨a, ha, rfl⟩ := Option.map_eq_some_iff.1 hread
  have hblur := blur_of_read_compact h ha
  rwa [(h.of_blur_eq hblur).dedup_eq_self]

end Rehome.Json
