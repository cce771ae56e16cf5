import Rehome.Proofs.Json.Doubles
import Rehome.Proofs.Json.Frame

/-! # Texts of distinct values

No two values have one text (`compact_injective`), if their doubles are in normal form, as they are in what has
been read (`proper_of_parse?`). A text is told apart by its first token, which shows what kind of value it is of
and, of a value without parts, which one. What follows a value cannot belong to it, so the parts of a container are
told apart one after the other. -/

namespace Rehome.Json

/-- The doubles of a value are in normal form. -/
def Proper (j : Json) : Prop := ∀ x, j.HoldsDouble x → x.Proper

namespace Proper

theorem double {x : Binary64} (h : Proper (.double x)) : x.Proper := h x .here

theorem item {items : List Json} (h : Proper (.arr items)) : ∀ j ∈ items, Proper j :=
  fun _ hj x hx => h x (.item hj hx)

theorem member {members : List (String × Json)} (h : Proper (.obj members)) : ∀ e ∈ members, Proper e.2 :=
  fun _ he x hx => h x (.member he hx)

theorem member? {j v : Json} {key : String} (h : Proper j) (hv : j.member? key = some v) : Proper v := by
  cases j with
  | obj members => exact h.member _ (Assoc.mem_of_lookup hv)
  | _ => cases hv

theorem item? {j v : Json} {i : Nat} (h : Proper j) (hv : j.item? i = some v) : Proper v := by
  cases j with
  | arr items => exact h.item _ (List.mem_of_getElem? hv)
  | _ => cases hv

theorem setItem {j v : Json} {i : Nat} (h : Proper j) (hv : Proper v) : Proper (j.setItem i v) := by
  cases j with
  | arr items =>
    intro x hx
    obtain ⟨v', hmem, hv'⟩ := HoldsDouble.arr_iff.1 hx
    rcases List.mem_or_eq_of_mem_set hmem with hmem | rfl
    · exact h.item v' hmem x hv'
    · exact hv x hv'
  | _ => exact h

end Proper

theorem Legible.proper {depth : Nat} {j : Json} (h : Legible Binary64.Proper depth j) : j.Proper := by
  intro x hx
  induction hx generalizing depth with
  | here =>
    cases h with
    | double hx => exact hx
  | item hj _ ih =>
    cases h with
    | arr hitems => exact ih (hitems _ hj)
  | member he _ ih =>
    cases h with
    | obj _ hmembers => exact ih (hmembers _ he)

/-- A value that has been read is made of doubles in normal form. -/
theorem proper_of_parse? {text : String} {j : Json} (h : parse? text = some j) : j.Proper :=
  (legible_of_parse? h).proper

/-- The text of the value starts with the token, and these characters are left. -/
inductive Starts : Json → Token → List Char → Prop
  | null : Starts .null .null []
  | bool (b : Bool) : Starts (.bool b) (.bool b) []
  | int (n : Int) : Starts (.int n) (.number ⟨decide (n < 0), natChars n.natAbs, [], none⟩) []
  | double {x : Binary64} {l : Literal} : Literal.read (doubleChars x) = some (l, []) → l.Shows x →
      Starts (.double x) (.number l) []
  | str (s : String) : Starts (.str s) (.str (s.toList.map Piece.ofChar)) []
  | arr (items : List Json) : Starts (.arr items) .openArr (itemChars items ++ [']'])
  | obj (members : List (String × Json)) : Starts (.obj members) .openObj (memberChars members ++ ['}'])

theorem Starts.read {j : Json} {t : Token} {cs rest : List Char} (h : Starts j t cs) (hrest : Stops rest) :
    Token.read (chars j ++ rest) = some (t, cs ++ rest) := by
  cases h with
  | null => rfl
  | bool b => cases b <;> rfl
  | int n => exact read_of_literal (Literal.read_append hrest (read_intChars n))
  | double hread _ => exact read_of_literal (Literal.read_append hrest hread)
  | str s => exact read_stringChars s rest
  | arr items => rfl
  | obj members => rfl

theorem exists_starts {j : Json} (h : j.Proper) : ∃ t cs, Starts j t cs := by
  cases j with
  | double x =>
    obtain ⟨l, hread, hshows⟩ := read_doubleChars h.double
    exact ⟨_, _, .double hread hshows⟩
  | null => exact ⟨_, _, .null⟩
  | bool b => exact ⟨_, _, .bool b⟩
  | int n => exact ⟨_, _, .int n⟩
  | str s => exact ⟨_, _, .str s⟩
  | arr items => exact ⟨_, _, .arr items⟩
  | obj members => exact ⟨_, _, .obj members⟩

/-- Without parts, a value is told from all others by its token. -/
theorem Starts.eq_of_isLeaf {j j' : Json} {t : Token} {cs cs' : List Char} (h : Starts j t cs)
    (h' : Starts j' t cs') (hleaf : j.isLeaf) (hproper : j.Proper) (hproper' : j'.Proper) :
    j = j' ∧ cs = cs' := by
  cases h with
  | arr items => cases hleaf
  | obj members => cases hleaf
  | null =>
    cases h'
    exact ⟨rfl, rfl⟩
  | bool b =>
    cases h'
    exact ⟨rfl, rfl⟩
  | int n =>
    generalize ht : Token.number _ = t at h'
    cases h' with
    | int m =>
      injection ht with hliteral
      injection hliteral with hsign hdigits
      have habs : n.natAbs = m.natAbs := by rw [← natOf_natChars n.natAbs, hdigits, natOf_natChars]
      rw [decide_eq_decide] at hsign
      obtain rfl : n = m := by omega
      exact ⟨rfl, rfl⟩
    | double _ hshows =>
      -- an integer is written without point and exponent
      injection ht with hliteral
      subst hliteral
      exact hshows.marked.elim (absurd rfl) (absurd rfl)
    | _ => cases ht
  | double _ hshows =>
    generalize ht : Token.number _ = t at h'
    cases h' with
    | int m =>
      injection ht with hliteral
      subst hliteral
      exact hshows.marked.elim (absurd rfl) (absurd rfl)
    | double _ hshows' =>
      injection ht with hliteral
      subst hliteral
      obtain rfl := hshows.unique hshows' hproper.double hproper'.double
      exact ⟨rfl, rfl⟩
    | _ => cases ht
  | str s =>
    generalize ht : Token.str _ = t at h'
    cases h' with
    | str s' =>
      have htext := Piece.text?_map_ofChar s
      rw [Token.str.inj ht, Piece.text?_map_ofChar] at htext
      obtain rfl := Option.some.inj htext
      exact ⟨rfl, rfl⟩
    | _ => cases ht

/-- The value is the only one with its text, whatever follows both. -/
def Told (j : Json) : Prop := ∀ j' : Json, j'.Proper → ∀ rest rest', Stops rest → Stops rest' →
  chars j ++ rest = chars j' ++ rest' → j = j' ∧ rest = rest'

theorem told_itemsTail {items items' : List Json} {rest rest' : List Char} (h : ∀ j ∈ items, Told j)
    (hproper : ∀ j ∈ items', j.Proper)
    (htext : itemsTail items ++ [']'] ++ rest = itemsTail items' ++ [']'] ++ rest') :
    items = items' ∧ rest = rest' := by
  induction items generalizing items' with
  | nil =>
    cases items' with
    | nil => exact ⟨rfl, (List.cons.inj htext).2⟩
    | cons j' items' => cases (List.cons.inj htext).1
  | cons j items ih =>
    cases items' with
    | nil => cases (List.cons.inj htext).1
    | cons j' items' =>
      rw [List.forall_mem_cons] at h hproper
      have htext : chars j ++ (itemsTail items ++ [']'] ++ rest) =
          chars j' ++ (itemsTail items' ++ [']'] ++ rest') := by
        simpa only [itemsTail, List.cons_append, List.append_assoc, List.cons.injEq, true_and] using htext
      obtain ⟨rfl, htail⟩ :=
        h.1 j' hproper.1 _ _ (stops_itemsTail items rest) (stops_itemsTail items' rest') htext
      obtain ⟨rfl, hrest⟩ := ih h.2 hproper.2 htail
      exact ⟨rfl, hrest⟩

/-- No value starts like the end of an array. -/
theorem chars_ne_closeArr {j : Json} (hj : j.Proper) {rest rest' : List Char} (hrest : Stops rest) :
    chars j ++ rest ≠ ']' :: rest' := by
  intro htext
  obtain ⟨t, cs, hstarts⟩ := exists_starts hj
  have hread := hstarts.read hrest
  rw [htext] at hread
  obtain ⟨rfl, -⟩ := Prod.mk.inj (Option.some.inj hread)
  cases hstarts

theorem told_itemChars {items items' : List Json} {rest rest' : List Char} (h : ∀ j ∈ items, Told j)
    (hproper : ∀ j ∈ items, j.Proper) (hproper' : ∀ j ∈ items', j.Proper)
    (htext : itemChars items ++ [']'] ++ rest = itemChars items' ++ [']'] ++ rest') :
    items = items' ∧ rest = rest' := by
  cases items with
  | nil =>
    cases items' with
    | nil => exact ⟨rfl, (List.cons.inj htext).2⟩
    | cons j' items' =>
      rw [itemChars, itemChars, List.append_assoc (chars j'), List.append_assoc (chars j')] at htext
      exact absurd htext.symm (chars_ne_closeArr (hproper' j' List.mem_cons_self) (stops_itemsTail items' rest'))
  | cons j items =>
    cases items' with
    | nil =>
      rw [itemChars, itemChars, List.append_assoc (chars j), List.append_assoc (chars j)] at htext
      exact absurd htext (chars_ne_closeArr (hproper j List.mem_cons_self) (stops_itemsTail items rest))
    | cons j' items' =>
      rw [List.forall_mem_cons] at h hproper'
      have htext : chars j ++ (itemsTail items ++ [']'] ++ rest) =
          chars j' ++ (itemsTail items' ++ [']'] ++ rest') := by
        simpa only [itemChars, List.append_assoc] using htext
      obtain ⟨rfl, htail⟩ :=
        h.1 j' hproper'.1 _ _ (stops_itemsTail items rest) (stops_itemsTail items' rest') htext
      obtain ⟨rfl, hrest⟩ := told_itemsTail h.2 hproper'.2 htail
      exact ⟨rfl, hrest⟩

/-- A string is told from others by its text, whatever follows both. -/
theorem stringChars_inj {s s' : String} {rest rest' : List Char}
    (h : stringChars s ++ rest = stringChars s' ++ rest') : s = s' ∧ rest = rest' := by
  have hread := read_stringChars s rest
  rw [h, read_stringChars] at hread
  obtain ⟨hpieces, hrest⟩ := Prod.mk.inj (Option.some.inj hread)
  refine ⟨?_, hrest.symm⟩
  have htext := Piece.text?_map_ofChar s
  rw [← Token.str.inj hpieces, Piece.text?_map_ofChar] at htext
  exact (Option.some.inj htext).symm

/-- A member is told from others if its value is. -/
theorem told_member {e e' : String × Json} {rest rest' : List Char} (h : Told e.2) (hproper : e'.2.Proper)
    (hrest : Stops rest) (hrest' : Stops rest')
    (htext : stringChars e.1 ++ ':' :: (chars e.2 ++ rest) = stringChars e'.1 ++ ':' :: (chars e'.2 ++ rest')) :
    e = e' ∧ rest = rest' := by
  obtain ⟨hkey, htext⟩ := stringChars_inj htext
  obtain ⟨hvalue, hrest⟩ := h e'.2 hproper rest rest' hrest hrest' (List.cons.inj htext).2
  exact ⟨Prod.ext hkey hvalue, hrest⟩

theorem told_membersTail {members members' : List (String × Json)} {rest rest' : List Char}
    (h : ∀ e ∈ members, Told e.2) (hproper : ∀ e ∈ members', e.2.Proper)
    (htext : membersTail members ++ ['}'] ++ rest = membersTail members' ++ ['}'] ++ rest') :
    members = members' ∧ rest = rest' := by
  induction members generalizing members' with
  | nil =>
    cases members' with
    | nil => exact ⟨rfl, (List.cons.inj htext).2⟩
    | cons e' members' => cases (List.cons.inj htext).1
  | cons e members ih =>
    cases members' with
    | nil => cases (List.cons.inj htext).1
    | cons e' members' =>
      rw [List.forall_mem_cons] at h hproper
      have htext : stringChars e.1 ++ ':' :: (chars e.2 ++ (membersTail members ++ ['}'] ++ rest)) =
          stringChars e'.1 ++ ':' :: (chars e'.2 ++ (membersTail members' ++ ['}'] ++ rest')) := by
        simpa only [membersTail, List.cons_append, List.append_assoc, List.cons.injEq, true_and] using htext
      obtain ⟨rfl, htail⟩ :=
        told_member h.1 hproper.1 (stops_membersTail members rest) (stops_membersTail members' rest') htext
      obtain ⟨rfl, hrest⟩ := ih h.2 hproper.2 htail
      exact ⟨rfl, hrest⟩

theorem told_memberChars {members members' : List (String × Json)} {rest rest' : List Char}
    (h : ∀ e ∈ members, Told e.2) (hproper : ∀ e ∈ members', e.2.Proper)
    (htext : memberChars members ++ ['}'] ++ rest = memberChars members' ++ ['}'] ++ rest') :
    members = members' ∧ rest = rest' := by
  cases members with
  | nil =>
    cases members' with
    | nil => exact ⟨rfl, (List.cons.inj htext).2⟩
    | cons e' members' => cases (List.cons.inj htext).1
  | cons e members =>
    cases members' with
    | nil => cases (List.cons.inj htext).1
    | cons e' members' =>
      rw [List.forall_mem_cons] at h hproper
      have htext : stringChars e.1 ++ ':' :: (chars e.2 ++ (membersTail members ++ ['}'] ++ rest)) =
          stringChars e'.1 ++ ':' :: (chars e'.2 ++ (membersTail members' ++ ['}'] ++ rest')) := by
        simpa only [memberChars, List.cons_append, List.append_assoc] using htext
      obtain ⟨rfl, htail⟩ :=
        told_member h.1 hproper.1 (stops_membersTail members rest) (stops_membersTail members' rest') htext
      obtain ⟨rfl, hrest⟩ := told_membersTail h.2 hproper.2 htail
      exact ⟨rfl, hrest⟩

/-- Every value is told from all others. -/
theorem told {j : Json} (hproper : j.Proper) : Told j := by
  induction j using Json.parts_induction with
  | arr items ih =>
    intro j' hproper' rest rest' hrest hrest' htext
    have hread := (Starts.arr items).read hrest
    obtain ⟨t, cs, hstarts⟩ := exists_starts hproper'
    rw [htext, hstarts.read hrest'] at hread
    obtain ⟨rfl, htail⟩ := Prod.mk.inj (Option.some.inj hread)
    cases hstarts with
    | arr items' =>
      obtain ⟨rfl, hrest⟩ :=
        told_itemChars (fun j hj => ih j hj (hproper.item j hj)) hproper.item hproper'.item htail.symm
      exact ⟨rfl, hrest⟩
  | obj members ih =>
    intro j' hproper' rest rest' hrest hrest' htext
    have hread := (Starts.obj members).read hrest
    obtain ⟨t, cs, hstarts⟩ := exists_starts hproper'
    rw [htext, hstarts.read hrest'] at hread
    obtain ⟨rfl, htail⟩ := Prod.mk.inj (Option.some.inj hread)
    cases hstarts with
    | obj members' =>
      obtain ⟨rfl, hrest⟩ :=
        told_memberChars (fun e he => ih e he (hproper.member e he)) hproper'.member htail.symm
      exact ⟨rfl, hrest⟩
  | leaf j hleaf =>
    intro j' hproper' rest rest' hrest hrest' htext
    obtain ⟨t, cs, hstarts⟩ := exists_starts hproper
    obtain ⟨t', cs', hstarts'⟩ := exists_starts hproper'
    have hread := hstarts.read hrest
    rw [htext, hstarts'.read hrest'] at hread
    obtain ⟨rfl, htail⟩ := Prod.mk.inj (Option.some.inj hread)
    obtain ⟨rfl, rfl⟩ := hstarts.eq_of_isLeaf hstarts' hleaf hproper hproper'
    exact ⟨rfl, (List.append_cancel_left htail).symm⟩

theorem compact_injective {j j' : Json} (hproper : j.Proper) (hproper' : j'.Proper)
    (h : j.compact = j'.compact) : j = j' := by
  have htext := String.ofList_injective h
  refine (told hproper j' hproper' [] [] stops_nil stops_nil ?_).1
  rw [List.append_nil, List.append_nil, htext]

end Rehome.Json
