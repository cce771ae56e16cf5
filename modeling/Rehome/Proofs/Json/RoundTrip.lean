import Rehome.Proofs.Data.Assoc
import Rehome.Proofs.Decimal.Rounding
import Rehome.Proofs.Json.Tokens

/-! # Values read back

`parse?_compact` is the round trip: the text of a value is read as that value if the value could have been
read at all, that is if it is not nested too deep, has integers that fit and no key twice (`Legible`), and
if each of its doubles is read back from its own text. A text takes the reader of a value from the state
that awaits it to the state that holds it, inside any open containers and whatever follows (`Passes`). -/

namespace Rehome.Json

/-! ## Legible values -/

/-- Values nested at most so deep, with integers that fit, no key twice, and doubles with the property. -/
inductive Legible (P : Binary64 → Prop) : Nat → Json → Prop
  | null {depth : Nat} : Legible P depth .null
  | bool {depth : Nat} (b : Bool) : Legible P depth (.bool b)
  | int {depth : Nat} {n : Int} : -2 ^ 63 ≤ n ∧ n < 2 ^ 64 → Legible P depth (.int n)
  | double {depth : Nat} {x : Binary64} : P x → Legible P depth (.double x)
  | str {depth : Nat} (s : String) : Legible P depth (.str s)
  | arr {depth : Nat} {items : List Json} : (∀ j ∈ items, Legible P depth j) →
      Legible P (depth + 1) (.arr items)
  | obj {depth : Nat} {members : List (String × Json)} : (members.map Prod.fst).Nodup →
      (∀ e ∈ members, Legible P depth e.2) → Legible P (depth + 1) (.obj members)

/-- A double stands somewhere in a value. -/
inductive HoldsDouble (x : Binary64) : Json → Prop
  | here : HoldsDouble x (.double x)
  | item {items : List Json} {j : Json} : j ∈ items → HoldsDouble x j → HoldsDouble x (.arr items)
  | member {members : List (String × Json)} {e : String × Json} : e ∈ members → HoldsDouble x e.2 →
      HoldsDouble x (.obj members)

namespace HoldsDouble

variable {x : Binary64}

@[simp] theorem double_iff {y : Binary64} : HoldsDouble x (.double y) ↔ x = y := by
  constructor
  · intro h
    cases h
    rfl
  · rintro rfl
    exact .here

@[simp] theorem arr_iff {items : List Json} :
    HoldsDouble x (.arr items) ↔ ∃ j ∈ items, HoldsDouble x j := by
  constructor
  · intro h
    cases h with
    | item hj h => exact ⟨_, hj, h⟩
  · rintro ⟨j, hj, h⟩
    exact .item hj h

@[simp] theorem obj_iff {members : List (String × Json)} :
    HoldsDouble x (.obj members) ↔ ∃ e ∈ members, HoldsDouble x e.2 := by
  constructor
  · intro h
    cases h with
    | member he h => exact ⟨_, he, h⟩
  · rintro ⟨e, he, h⟩
    exact .member he h

@[simp] theorem not_null : ¬ HoldsDouble x .null := nofun

@[simp] theorem not_bool (b : Bool) : ¬ HoldsDouble x (.bool b) := nofun

@[simp] theorem not_int (n : Int) : ¬ HoldsDouble x (.int n) := nofun

@[simp] theorem not_str (s : String) : ¬ HoldsDouble x (.str s) := nofun

end HoldsDouble

variable {P Q : Binary64 → Prop} {depth : Nat} {j : Json}

/-- The property need only be known of the doubles in a value. -/
theorem Legible.of_holdsDouble (h : Legible P depth j) (hdoubles : ∀ x, j.HoldsDouble x → Q x) :
    Legible Q depth j := by
  induction h with
  | null => exact .null
  | bool b => exact .bool b
  | int hn => exact .int hn
  | double _ => exact .double (hdoubles _ .here)
  | str s => exact .str s
  | arr _ ih => exact .arr fun j hj => ih j hj fun x hx => hdoubles x (.item hj hx)
  | obj hkeys _ ih => exact .obj hkeys fun e he => ih e he fun x hx => hdoubles x (.member he hx)

/-- A value that is as legible as the item that it replaces leaves an array legible. -/
theorem Legible.setItem {i : Nat} {value : Json} (h : Legible P depth j)
    (hvalue : ∀ depth old, j.item? i = some old → Legible P depth old → Legible P depth value) :
    Legible P depth (j.setItem i value) := by
  cases h with
  | @arr depth items hitems =>
    refine .arr fun j hj => ?_
    by_cases hi : i < items.length
    · rcases List.mem_or_eq_of_mem_set hj with hj | rfl
      · exact hitems j hj
      · exact hvalue depth items[i] (List.getElem?_eq_getElem hi) (hitems _ (List.getElem_mem hi))
    · rw [List.set_eq_of_length_le (not_lt.1 hi)] at hj
      exact hitems j hj
  | null => exact .null
  | bool b => exact .bool b
  | int hn => exact .int hn
  | double hx => exact .double hx
  | str s => exact .str s
  | obj hkeys hmembers => exact .obj hkeys hmembers

theorem wellFormedItems_iff {items : List Json} : WellFormedItems items ↔ ∀ j ∈ items, WellFormed j := by
  induction items with
  | nil => exact ⟨fun _ => nofun, fun _ => trivial⟩
  | cons j items ih => rw [WellFormedItems, ih, List.forall_mem_cons]

theorem wellFormedMembers_iff {members : List (String × Json)} :
    WellFormedMembers members ↔ ∀ e ∈ members, WellFormed e.2 := by
  induction members with
  | nil => exact ⟨fun _ => nofun, fun _ => trivial⟩
  | cons e members ih => rw [WellFormedMembers, ih, List.forall_mem_cons]

theorem Legible.wellFormed (h : Legible P depth j) : j.WellFormed := by
  induction h with
  | int hn =>
    rw [WellFormed, Nat.pow_eq, Nat.pow_eq]
    omega
  | arr _ ih =>
    rw [WellFormed, wellFormedItems_iff]
    exact ih
  | obj hkeys _ ih =>
    rw [WellFormed, wellFormedMembers_iff]
    exact ⟨hkeys, ih⟩
  | _ => trivial

/-! ## Repeated keys -/

theorem dedupItems_eq_map (items : List Json) : dedupItems items = items.map dedup := by
  induction items with
  | nil => rfl
  | cons j rest ih => rw [dedupItems, ih, List.map_cons]

theorem dedupMembers_eq_map (members : List (String × Json)) :
    dedupMembers members = members.map fun e => (e.1, dedup e.2) := by
  induction members with
  | nil => rfl
  | cons e rest ih => rw [dedupMembers, ih, List.map_cons]

/-- There are no repeated keys to drop. -/
theorem Legible.dedup_eq_self (h : Legible P depth j) : dedup j = j := by
  induction h with
  | arr _ ih => rw [dedup, dedupItems_eq_map, List.map_congr_left ih, List.map_id']
  | @obj _ members hkeys _ ih =>
    have hsame : members.map (fun e => (e.1, dedup e.2)) = members.map fun e => e :=
      List.map_congr_left fun e he => congrArg (Prod.mk e.1) (ih e he)
    rw [dedup, dedupMembers_eq_map, hsame, List.map_id', Assoc.ofList_eq_self hkeys]
  | _ => rfl

/-! ## Reading a text piece by piece -/

section Run

variable (limit : Nat)

/-- Takes the reader through a text, of which at most `n` tokens are read. -/
def run (n : Nat) (cs : List Char) (s : Reading Json String) : Option (Reading Json String) :=
  (Token.readAll n cs).bind fun ts => ts.foldlM (Reading.step .value (some limit)) s

theorem readAll_nil (n : Nat) : Token.readAll n [] = some [] := by
  cases n <;> rfl

theorem run_nil (n : Nat) (s : Reading Json String) : run limit n [] s = some s := by
  rw [run, readAll_nil]
  rfl

theorem read_eq_run (text : String) : read limit text =
    (run limit text.toList.length text.toList (.start [])).bind Reading.finish := by
  rw [run, Option.bind_assoc]
  rfl

theorem not_isSpace_of_read {c : Char} {cs : List Char} {p : Token × List Char}
    (h : Token.read (c :: cs) = some p) : isSpace c = false := by
  by_contra hspace
  simp only [isSpace, Bool.not_eq_false, Bool.or_eq_true, beq_iff_eq] at hspace
  rcases hspace with ((rfl | rfl) | rfl) | rfl <;> cases h

theorem run_token {cs rest : List Char} {t : Token} (h : Token.read cs = some (t, rest)) (n : Nat)
    (s : Reading Json String) : run limit (n + 1) cs s =
      (Reading.step .value (some limit) s t).bind (run limit n rest) := by
  cases cs with
  | nil => cases h
  | cons c cs =>
    have hall : Token.readAll (n + 1) (c :: cs) = (Token.readAll n rest).map (t :: ·) := by
      rw [Token.readAll, List.dropWhile_cons_of_neg (by simp [not_isSpace_of_read h])]
      dsimp only
      rw [h, Option.bind_eq_bind, Option.bind_some]
      cases Token.readAll n rest <;> rfl
    rw [run, hall]
    unfold run
    cases Token.readAll n rest <;> cases hstep : Reading.step .value (some limit) s t <;>
      simp [hstep]

/-- A text takes the reader from one state to another, if what follows it has the property. -/
def Passes (F : List Char → Prop) (cs : List Char) (s s' : Reading Json String) : Prop :=
  ∃ k ≤ cs.length, ∀ n rest, F rest → run limit (n + k) (cs ++ rest) s = run limit n rest s'

variable {limit} {F G : List Char → Prop} {cs cs' : List Char} {s s' s'' : Reading Json String}

theorem Passes.token {t : Token} (hcs : cs ≠ [])
    (hread : ∀ rest, F rest → Token.read (cs ++ rest) = some (t, rest))
    (hstep : Reading.step .value (some limit) s t = some s') : Passes limit F cs s s' :=
  ⟨1, List.length_pos_iff.2 hcs, fun n rest hrest => by
    rw [run_token limit (hread rest hrest), hstep, Option.bind_some]⟩

theorem Passes.append (h : Passes limit F cs s s') (h' : Passes limit G cs' s' s'')
    (hfollow : ∀ rest, G rest → F (cs' ++ rest)) : Passes limit G (cs ++ cs') s s'' := by
  obtain ⟨k, hk, hrun⟩ := h
  obtain ⟨k', hk', hrun'⟩ := h'
  refine ⟨k' + k, by rw [List.length_append]; omega, fun n rest hrest => ?_⟩
  rw [← Nat.add_assoc, List.append_assoc, hrun _ _ (hfollow rest hrest), hrun' n rest hrest]

theorem Passes.mono (h : Passes limit F cs s s') (hfollow : ∀ rest, G rest → F rest) :
    Passes limit G cs s s' := by
  obtain ⟨k, hk, hrun⟩ := h
  exact ⟨k, hk, fun n rest hrest => hrun n rest (hfollow rest hrest)⟩

/-- What follows need have no property. -/
def Any : List Char → Prop := fun _ => True

/-- One character that is a token stands before the rest of a text. -/
theorem Passes.cons {c : Char} {t : Token} (hread : ∀ rest, Token.read (c :: rest) = some (t, rest))
    (hstep : Reading.step .value (some limit) s t = some s') (h : Passes limit F cs s' s'') :
    Passes limit F (c :: cs) s s'' :=
  (Passes.token (F := Any) (List.cons_ne_nil c []) (fun rest _ => hread rest) hstep).append h
    fun _ _ => trivial

/-! ## Values -/

/-- The start of a value is awaited inside these open containers. -/
def Awaits (limit : Nat) (stack : List (Open Json String)) (s : Reading Json String) : Prop :=
  ∀ t ≠ Token.closeArr, Reading.step .value (some limit) s t =
    Reading.value .value (some limit) stack t

variable {stack : List (Open Json String)}

theorem awaits_start : Awaits limit stack (.start stack) := fun _ _ => rfl

theorem awaits_item (first : Bool) (items : List Json) :
    Awaits limit (.arr items :: stack) (.item first items stack) := by
  intro t ht
  cases first <;> cases t <;> first | rfl | exact absurd rfl ht

theorem passes_number {l : Literal} (hs : Awaits limit stack s) (hread : Literal.read cs = some (l, []))
    (hvalue : l.value? = some j) : Passes limit Stops cs s (Reading.fill j stack) := by
  have hne : cs ≠ [] := by
    rintro rfl
    cases hread
  refine Passes.token hne (fun rest hrest => read_of_literal (Literal.read_append hrest hread)) ?_
  rw [hs (.number l) nofun]
  exact congrArg (Option.map _) hvalue

theorem stops_itemsTail (items : List Json) (rest : List Char) :
    Stops (itemsTail items ++ [']'] ++ rest) := by
  cases items with
  | nil => exact stops_cons (by decide) rest
  | cons j items => exact stops_cons (by decide) _

theorem stops_membersTail (members : List (String × Json)) (rest : List Char) :
    Stops (membersTail members ++ ['}'] ++ rest) := by
  cases members with
  | nil => exact stops_cons (by decide) rest
  | cons e members => exact stops_cons (by decide) _

/-- The text of a value fills the place that awaits one. -/
def Fills (limit : Nat) (j : Json) (stack : List (Open Json String)) : Prop :=
  ∀ s, Awaits limit stack s → Passes limit Stops (chars j) s (Reading.fill j stack)

theorem passes_itemsTail {items : List Json} (before : List Json)
    (h : ∀ j ∈ items, ∀ before, Fills limit j (.arr before :: stack)) :
    Passes limit Any (itemsTail items ++ [']']) (.afterItem before stack)
      (Reading.fill (.arr (before.reverse ++ items)) stack) := by
  induction items generalizing before with
  | nil =>
    refine Passes.token (List.cons_ne_nil _ _) (fun rest _ => rfl) ?_
    rw [List.append_nil]
    rfl
  | cons j items ih =>
    have hitem := h j List.mem_cons_self before _ (awaits_item false before)
    have hrest := ih (j :: before) fun j' hj' => h j' (List.mem_cons_of_mem j hj')
    rw [List.reverse_cons, List.append_assoc, List.singleton_append] at hrest
    have hall := hitem.append hrest fun rest _ => stops_itemsTail items rest
    simp only [itemsTail, List.cons_append, List.append_assoc] at hall ⊢
    exact Passes.cons (fun _ => rfl) rfl hall

theorem passes_itemChars {items : List Json}
    (h : ∀ j ∈ items, ∀ before, Fills limit j (.arr before :: stack)) :
    Passes limit Any (itemChars items ++ [']']) (.item true [] stack) (Reading.fill (.arr items) stack) := by
  cases items with
  | nil => exact Passes.token (List.cons_ne_nil _ _) (fun rest _ => rfl) rfl
  | cons j items =>
    have hitem := h j List.mem_cons_self [] _ (awaits_item true [])
    have hrest := passes_itemsTail [j] fun j' hj' => h j' (List.mem_cons_of_mem j hj')
    rw [itemChars, List.append_assoc]
    exact hitem.append hrest fun rest _ => stops_itemsTail items rest

/-- A key, a colon and the text of a value make a member. -/
theorem passes_member {key : String} {before : List (String × Json)} (first : Bool)
    (h : Fills limit j (.member before key :: stack)) :
    Passes limit Stops (stringChars key ++ ':' :: chars j) (.key first before stack)
      (.afterMember ((key, j) :: before) stack) := by
  have hkey : Passes limit Any (stringChars key) (.key first before stack) (.colon before key stack) := by
    refine Passes.token (List.cons_ne_nil _ _) (fun rest _ => read_stringChars key rest) ?_
    cases first <;> exact congrArg (Option.map (Reading.colon before · stack)) (Piece.text?_map_ofChar key)
  exact hkey.append (Passes.cons (fun _ => rfl) rfl (h _ awaits_start)) fun _ _ => trivial

theorem passes_membersTail {members : List (String × Json)} (before : List (String × Json))
    (h : ∀ e ∈ members, ∀ before key, Fills limit e.2 (.member before key :: stack)) :
    Passes limit Any (membersTail members ++ ['}']) (.afterMember before stack)
      (Reading.fill (.obj (before.reverse ++ members)) stack) := by
  induction members generalizing before with
  | nil =>
    refine Passes.token (List.cons_ne_nil _ _) (fun rest _ => rfl) ?_
    rw [List.append_nil]
    rfl
  | cons e members ih =>
    obtain ⟨key, j⟩ := e
    have hmember := passes_member false (h (key, j) List.mem_cons_self before key)
    have hrest := ih ((key, j) :: before) fun e he => h e (List.mem_cons_of_mem _ he)
    rw [List.reverse_cons, List.append_assoc, List.singleton_append] at hrest
    have hall := hmember.append hrest fun rest _ => stops_membersTail members rest
    simp only [membersTail, List.cons_append, List.append_assoc] at hall ⊢
    exact Passes.cons (fun _ => rfl) rfl hall

theorem passes_memberChars {members : List (String × Json)}
    (h : ∀ e ∈ members, ∀ before key, Fills limit e.2 (.member before key :: stack)) :
    Passes limit Any (memberChars members ++ ['}']) (.key true [] stack)
      (Reading.fill (.obj members) stack) := by
  cases members with
  | nil => exact Passes.token (List.cons_ne_nil _ _) (fun rest _ => rfl) rfl
  | cons e members =>
    obtain ⟨key, j⟩ := e
    have hmember := passes_member true (h (key, j) List.mem_cons_self [] key)
    have hrest := passes_membersTail [(key, j)] fun e he => h e (List.mem_cons_of_mem _ he)
    have hall := hmember.append hrest fun rest _ => stops_membersTail members rest
    simp only [memberChars, List.cons_append, List.append_assoc] at hall ⊢
    exact hall

theorem Legible.fills (h : Legible Binary64.ReadsBack depth j) (hdepth : stack.length + depth ≤ limit) :
    Fills limit j stack := by
  induction h generalizing stack with
  | null =>
    intro s hs
    exact Passes.token (List.cons_ne_nil _ _) (fun rest _ => rfl) (hs _ nofun)
  | bool b =>
    intro s hs
    cases b <;> exact Passes.token (List.cons_ne_nil _ _) (fun rest _ => rfl) (hs _ nofun)
  | int hn => exact fun s hs => passes_number hs (read_intChars _) (value?_intChars hn)
  | double hx =>
    obtain ⟨l, hread, hvalue⟩ := hx
    exact fun s hs => passes_number hs hread hvalue
  | str t =>
    intro s hs
    refine Passes.token (List.cons_ne_nil _ _) (fun rest _ => read_stringChars t rest) ?_
    rw [hs (.str _) nofun]
    exact congrArg (Option.map _) (congrArg (Option.map _) (Piece.text?_map_ofChar t))
  | arr _ ih =>
    intro s hs
    have hopen : Reading.step .value (some limit) s .openArr = some (.item true [] stack) := by
      rw [hs .openArr nofun]
      exact if_pos (decide_eq_true (by omega))
    refine (Passes.cons (fun _ => rfl) hopen (passes_itemChars fun j hj before => ih j hj ?_)).mono
      fun _ _ => trivial
    rw [List.length_cons]
    omega
  | obj _ _ ih =>
    intro s hs
    have hopen : Reading.step .value (some limit) s .openObj = some (.key true [] stack) := by
      rw [hs .openObj nofun]
      exact if_pos (decide_eq_true (by omega))
    refine (Passes.cons (fun _ => rfl) hopen (passes_memberChars fun e he before key => ih e he ?_)).mono
      fun _ _ => trivial
    rw [List.length_cons]
    omega

theorem read_compact (h : Legible Binary64.ReadsBack limit j) : read limit j.compact = some j := by
  obtain ⟨k, hk, hrun⟩ := h.fills (Nat.zero_add limit).le (.start []) awaits_start
  have hrun := hrun ((chars j).length - k) [] stops_nil
  rw [Nat.sub_add_cancel hk, List.append_nil, run_nil] at hrun
  rw [read_eq_run, compact, String.toList_ofList, hrun]
  rfl

end Run

/-- The text of a value is read as that value. -/
theorem parse?_compact (h : Legible Binary64.ReadsBack maxDepth j) : parse? j.compact = some j := by
  rw [parse?, read_compact h, Option.map_some, h.dedup_eq_self]

-- Not every double is: `3e+23` is read as the product of `3` and the double nearest to `1e+23`.
example : parse? (Json.double ⟨false, 8940696716308594, 25⟩).compact ≠
    some (.double ⟨false, 8940696716308594, 25⟩) := by decide +kernel

/-! ## What has been read is legible -/

section Read

variable {limit : Nat}

theorem legible_value? {l : Literal} (h : l.value? = some j) : Legible Binary64.Proper depth j := by
  have hdouble : l.toDouble?.map .double = some j → Legible Binary64.Proper depth j := by
    intro h
    obtain ⟨x, hx, rfl⟩ := Option.map_eq_some_iff.1 h
    exact .double (Binary64.proper_ofDecimal hx)
  simp only [Literal.value?, Nat.pow_eq] at h
  split at h
  · split at h
    · split at h
      · obtain rfl := Option.some.inj h
        exact .int (by omega)
      · exact hdouble h
    · split at h
      · obtain rfl := Option.some.inj h
        exact .int (by omega)
      · exact hdouble h
  · exact hdouble h

theorem legible_arr {items : List Json} (h : ∀ j ∈ items, Legible P depth (dedup j)) :
    Legible P (depth + 1) (dedup (.arr items)) := by
  rw [dedup, dedupItems_eq_map]
  exact .arr (List.forall_mem_map.2 h)

theorem legible_obj {members : List (String × Json)} (h : ∀ e ∈ members, Legible P depth (dedup e.2)) :
    Legible P (depth + 1) (dedup (.obj members)) := by
  rw [dedup, dedupMembers_eq_map]
  refine .obj (Assoc.nodup_keys_ofList _) fun e he => ?_
  obtain ⟨e', he', rfl⟩ := List.mem_map.1 (Assoc.mem_of_mem_ofList he)
  exact h e' he'

/-- The values that have been read into an open container. -/
def Open.parts : Open Json String → List Json
  | .arr items => items
  | .obj members | .member members _ => members.map Prod.snd

/-- Open containers are nested within the limit, and what is in them is legible there. -/
def Sound (limit : Nat) : List (Open Json String) → Prop
  | [] => True
  | o :: outer => outer.length < limit ∧
    (∀ j ∈ o.parts, Legible Binary64.Proper (limit - (outer.length + 1)) (dedup j)) ∧ Sound limit outer

/-- What has been read so far is legible. -/
def Reading.Sound (limit : Nat) : Reading Json String → Prop
  | .start stack => Json.Sound limit stack
  | .item _ items outer | .afterItem items outer => Json.Sound limit (.arr items :: outer)
  | .key _ members outer | .afterMember members outer => Json.Sound limit (.obj members :: outer)
  | .colon members k outer => Json.Sound limit (.member members k :: outer)
  | .done j => Legible Binary64.Proper limit (dedup j)

variable {stack : List (Open Json String)}

theorem sound_fill (h : Sound limit stack)
    (hj : Legible Binary64.Proper (limit - stack.length) (dedup j)) : (Reading.fill j stack).Sound limit := by
  cases stack with
  | nil => exact hj
  | cons o outer =>
    obtain ⟨hlt, hparts, houter⟩ := h
    cases o with
    | arr items => exact ⟨hlt, List.forall_mem_cons.2 ⟨hj, hparts⟩, houter⟩
    | obj members => exact ⟨hlt, hparts, houter⟩
    | member members key => exact ⟨hlt, List.forall_mem_cons.2 ⟨hj, hparts⟩, houter⟩

/-- A container that is closed fills a place inside the others. -/
theorem sound_fill_container {o : Open Json String} (h : Sound limit (o :: stack))
    (hj : ∀ depth, (∀ part ∈ o.parts, Legible Binary64.Proper depth (dedup part)) →
      Legible Binary64.Proper (depth + 1) (dedup j)) : (Reading.fill j stack).Sound limit := by
  obtain ⟨hlt, hparts, houter⟩ := h
  refine sound_fill houter ?_
  have hdepth : limit - stack.length = limit - (stack.length + 1) + 1 := by omega
  rw [hdepth]
  exact hj _ hparts

theorem sound_value {s : Reading Json String} {t : Token} (h : Sound limit stack)
    (hs : Reading.value .value (some limit) stack t = some s) : s.Sound limit := by
  have hopen : ∀ {o s'}, o.parts = [] → (if Reading.mayOpen (some limit) stack then some s' else none) =
      some s → (Sound limit (o :: stack) → s'.Sound limit) → s.Sound limit := by
    intro o s' hparts hs hsound
    split at hs
    · next hmay =>
      obtain rfl := Option.some.inj hs
      exact hsound ⟨of_decide_eq_true hmay, by simp [hparts], h⟩
    · cases hs
  cases t with
  | openArr => exact hopen (o := .arr []) rfl hs id
  | openObj => exact hopen (o := .obj []) rfl hs id
  | null =>
    obtain rfl := Option.some.inj hs
    exact sound_fill h .null
  | bool b =>
    obtain rfl := Option.some.inj hs
    exact sound_fill h (.bool b)
  | number l =>
    obtain ⟨j, hj, rfl⟩ := Option.map_eq_some_iff.1 hs
    have hlegible : ∀ depth, Legible Binary64.Proper depth j := fun depth => legible_value? hj
    refine sound_fill h ?_
    rw [(hlegible 0).dedup_eq_self]
    exact hlegible _
  | str pieces =>
    obtain ⟨j, hj, rfl⟩ := Option.map_eq_some_iff.1 hs
    obtain ⟨text, -, rfl⟩ := Option.map_eq_some_iff.1 hj
    exact sound_fill h (.str text)
  | _ => cases hs

theorem sound_step {s s' : Reading Json String} {t : Token} (h : s.Sound limit)
    (hs : Reading.step .value (some limit) s t = some s') : s'.Sound limit := by
  cases s with
  | start stack => exact sound_value h hs
  | item first items outer =>
    by_cases hclose : first = true ∧ t = .closeArr
    · obtain ⟨rfl, rfl⟩ := hclose
      obtain rfl := Option.some.inj hs
      exact sound_fill_container h fun depth _ => legible_arr nofun
    · have hvalue : Reading.step .value (some limit) (.item first items outer) t =
          Reading.value .value (some limit) (.arr items :: outer) t := by
        cases first <;> cases t <;> first | rfl | exact absurd ⟨rfl, rfl⟩ hclose
      exact sound_value h (hvalue.symm.trans hs)
  | key first members outer =>
    by_cases hclose : first = true ∧ t = .closeObj
    · obtain ⟨rfl, rfl⟩ := hclose
      obtain rfl := Option.some.inj hs
      exact sound_fill_container h fun depth _ => legible_obj nofun
    · cases t with
      | str pieces =>
        have hkey : (Piece.text? pieces).map (Reading.colon members · outer) = some s' := by
          cases first <;> exact hs
        obtain ⟨key, -, rfl⟩ := Option.map_eq_some_iff.1 hkey
        exact h
      | closeObj => cases first <;> first | exact absurd ⟨rfl, rfl⟩ hclose | cases hs
      | _ => cases first <;> cases hs
  | colon members key outer =>
    cases t with
    | colon =>
      obtain rfl := Option.some.inj hs
      exact h
    | _ => cases hs
  | afterItem items outer =>
    cases t with
    | comma =>
      obtain rfl := Option.some.inj hs
      exact h
    | closeArr =>
      obtain rfl := Option.some.inj hs
      exact sound_fill_container h fun depth hparts =>
        legible_arr fun j hj => hparts j (List.mem_reverse.1 hj)
    | _ => cases hs
  | afterMember members outer =>
    cases t with
    | comma =>
      obtain rfl := Option.some.inj hs
      exact h
    | closeObj =>
      obtain rfl := Option.some.inj hs
      exact sound_fill_container h fun depth hparts =>
        legible_obj fun e he => hparts e.2 (List.mem_map_of_mem (List.mem_reverse.1 he))
    | _ => cases hs
  | done a => cases hs

theorem sound_foldlM {ts : List Token} {s s' : Reading Json String} (h : s.Sound limit)
    (hs : ts.foldlM (Reading.step .value (some limit)) s = some s') : s'.Sound limit := by
  induction ts generalizing s with
  | nil =>
    obtain rfl := Option.some.inj hs
    exact h
  | cons t ts ih =>
    obtain ⟨s₁, hstep, hs⟩ := Option.bind_eq_some_iff.1 hs
    exact ih (sound_step h hstep) hs

end Read

/-- A value that has been read is legible. -/
theorem legible_of_parse? {text : String} (h : parse? text = some j) :
    Legible Binary64.Proper maxDepth j := by
  obtain ⟨j, hread, rfl⟩ := Option.map_eq_some_iff.1 h
  obtain ⟨ts, -, hread⟩ := Option.bind_eq_some_iff.1 hread
  obtain ⟨s, hfold, hfinish⟩ := Option.bind_eq_some_iff.1 hread
  have hsound : s.Sound maxDepth := sound_foldlM (s := .start []) trivial hfold
  cases s with
  | done a =>
    obtain rfl := Option.some.inj hfinish
    exact hsound
  | _ => cases hfinish

theorem wellFormed_of_parse? {text : String} (h : parse? text = some j) : j.WellFormed :=
  (legible_of_parse? h).wellFormed

end Rehome.Json
