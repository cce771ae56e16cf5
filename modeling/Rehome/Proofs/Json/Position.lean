import Rehome.Proofs.Json.Settled

/-! # Positions of a value, and substitution at some of them

A position leads from a value to one inside of it, by keys of maps and indices of lists. A substitution
replaces what is at certain positions, its slots, each by an image of what was there, and leaves
everything else as it is: at any other position there is the same constant, a list of the same length or a
map with the same keys in the same order. -/

namespace Rehome

/-- A step into a value. -/
inductive Step where
  | member (key : String)
  | item (n : Nat)
deriving DecidableEq, Repr

abbrev Position := List Step

namespace Json

variable {j j' : Json}

/-- What a step leads to. -/
def step? : Step → Json → Option Json
  | .member key, j => j.member? key
  | .item n, j => j.item? n

/-- What is at a position. -/
def at? : Position → Json → Option Json
  | [], j => some j
  | step :: rest, j => (j.step? step).bind (at? rest)

/-- A value without what is in it: of a list its length is left, and of a map its keys. -/
def shape : Json → Json
  | .arr items => .arr (items.map fun _ => .null)
  | .obj members => .obj (members.map fun e => (e.1, .null))
  | j => j

/-- A value with nothing in it. -/
def isLeaf : Json → Bool
  | .arr _ | .obj _ => false
  | _ => true

@[simp] theorem at?_nil (j : Json) : j.at? [] = some j := rfl

theorem at?_cons (j : Json) (step : Step) (rest : Position) :
    j.at? (step :: rest) = (j.step? step).bind (at? rest) := rfl

theorem step?_of_isLeaf (h : j.isLeaf) (step : Step) : j.step? step = none := by
  cases step <;> cases j <;> first | rfl | cases h

/-- Lists of the same length have the same shape. -/
theorem shape_arr {items items' : List Json} (h : items'.length = items.length) :
    (arr items').shape = (arr items).shape := by
  simp [shape, List.map_const', h]

/-- Maps with the same keys have the same shape. -/
theorem shape_obj {members members' : List (String × Json)}
    (h : members'.map Prod.fst = members.map Prod.fst) : (obj members').shape = (obj members).shape := by
  have hmap (ms : List (String × Json)) :
      ms.map (fun e => (e.1, null)) = (ms.map Prod.fst).map fun key => (key, null) := by simp
  rw [shape, shape, hmap, hmap, h]

/-! ## Entries one by one -/

theorem keys_of_forall₂ {P : String × Json → String × Json → Prop}
    {members members' : List (String × Json)}
    (h : List.Forall₂ (fun e e' => e'.1 = e.1 ∧ P e e') members members') :
    members'.map Prod.fst = members.map Prod.fst := by
  induction h with
  | nil => rfl
  | cons he _ ih => rw [List.map_cons, List.map_cons, he.1, ih]

theorem exists_lookup_of_keys {members members' : List (String × Json)}
    (h : members'.map Prod.fst = members.map Prod.fst) (key : String) :
    (members.lookup key = none ∧ members'.lookup key = none) ∨
      ∃ v v', members.lookup key = some v ∧ members'.lookup key = some v' := by
  induction members generalizing members' with
  | nil =>
    obtain rfl : members' = [] := by simpa using h
    exact .inl ⟨rfl, rfl⟩
  | cons e members ih =>
    cases members' with
    | nil => simp at h
    | cons e' members' =>
      obtain ⟨k, v⟩ := e
      obtain ⟨k', v'⟩ := e'
      obtain ⟨rfl, hrest⟩ : k' = k ∧ members'.map Prod.fst = members.map Prod.fst := by simpa using h
      rw [Assoc.lookup_cons, Assoc.lookup_cons]
      by_cases hk : key = k'
      · rw [if_pos hk, if_pos hk]
        exact .inr ⟨v, v', rfl, rfl⟩
      · rw [if_neg hk, if_neg hk]
        exact ih hrest

theorem getElem?_forall₂ {α β : Type} {R : α → β → Prop} {as : List α} {bs : List β}
    (h : List.Forall₂ R as bs) {n : Nat} {a : α} {b : β} (ha : as[n]? = some a) (hb : bs[n]? = some b) :
    R a b := by
  obtain ⟨hn, rfl⟩ := List.getElem?_eq_some_iff.1 ha
  obtain ⟨hn', rfl⟩ := List.getElem?_eq_some_iff.1 hb
  exact h.get hn hn'

end Json

/-- `Substitutes slots image j j'` holds when `j'` is `j` with the value at each slot replaced by an image
of it, and everything else as it is. -/
structure Substitutes {κ : Type} (slots : κ → Position → Prop) (image : κ → Json → Json → Prop)
    (j j' : Json) : Prop where
  slot {k : κ} {p : Position} {v : Json} : slots k p → j.at? p = some v →
    ∃ v', j'.at? p = some v' ∧ image k v v'
  rest {p : Position} : (∀ k, ¬slots k p) → (j'.at? p).map Json.shape = (j.at? p).map Json.shape

namespace Substitutes

variable {κ : Type} {slots slots' : κ → Position → Prop} {image : κ → Json → Json → Prop} {j j' : Json}

/-- Without slots, nothing changes. -/
theorem refl (h : ∀ k p, ¬slots k p) (j : Json) : Substitutes slots image j j :=
  ⟨fun hslot => absurd hslot (h _ _), fun _ => rfl⟩

theorem congr (h : Substitutes slots image j j') (hslots : ∀ k p, slots k p ↔ slots' k p) :
    Substitutes slots' image j j' where
  slot hslot := h.slot ((hslots _ _).2 hslot)
  rest hnot := h.rest fun k hslot => hnot k ((hslots k _).1 hslot)

theorem imp {image' : κ → Json → Json → Prop} (h : Substitutes slots image j j')
    (himage : ∀ k p v v', slots k p → j.at? p = some v → image k v v' → image' k v v') :
    Substitutes slots image' j j' where
  slot hslot hv := by
    obtain ⟨v', hv', hvv'⟩ := h.slot hslot hv
    exact ⟨v', hv', himage _ _ _ _ hslot hv hvv'⟩
  rest := h.rest

/-- A value with nothing in it is replaced as a whole. -/
theorem leaf {k : κ} (hj : j.isLeaf) (hj' : j'.isLeaf) (h : image k j j')
    (hslots : ∀ k' p, slots k' p ↔ k' = k ∧ p = []) : Substitutes slots image j j' where
  slot hslot hv := by
    obtain ⟨rfl, rfl⟩ := (hslots _ _).1 hslot
    obtain rfl := Option.some.inj hv
    exact ⟨j', rfl, h⟩
  rest {p} hnot := by
    cases p with
    | nil => exact absurd ((hslots k []).2 ⟨rfl, rfl⟩) (hnot k)
    | cons step rest => rw [Json.at?_cons, Json.at?_cons, Json.step?_of_isLeaf hj, Json.step?_of_isLeaf hj']

/-- The parts of a value are substituted one by one. -/
theorem of_parts (hnil : ∀ k, ¬slots k []) (hshape : j'.shape = j.shape)
    (hparts : ∀ step, (j.step? step = none ∧ j'.step? step = none) ∨
      ∃ v v', j.step? step = some v ∧ j'.step? step = some v' ∧
        Substitutes (fun k p => slots k (step :: p)) image v v') :
    Substitutes slots image j j' where
  slot {k p v} hslot hv := by
    cases p with
    | nil => exact absurd hslot (hnil k)
    | cons step rest =>
      rw [Json.at?_cons] at hv ⊢
      obtain ⟨hnone, -⟩ | ⟨w, w', hw, hw', h⟩ := hparts step
      · rw [hnone] at hv
        cases hv
      · rw [hw] at hv
        rw [hw']
        exact h.slot hslot hv
  rest {p} hnot := by
    cases p with
    | nil => simp [hshape]
    | cons step rest =>
      rw [Json.at?_cons, Json.at?_cons]
      obtain ⟨hnone, hnone'⟩ | ⟨w, w', hw, hw', h⟩ := hparts step
      · rw [hnone, hnone']
      · rw [hw, hw']
        exact h.rest fun k => hnot k

/-- Lists are substituted item by item. -/
theorem arr {items items' : List Json} (hnil : ∀ k, ¬slots k [])
    (hlength : items'.length = items.length)
    (h : ∀ n i i', items[n]? = some i → items'[n]? = some i' →
      Substitutes (fun k p => slots k (.item n :: p)) image i i') :
    Substitutes slots image (.arr items) (.arr items') := by
  refine of_parts hnil (Json.shape_arr hlength) fun step => ?_
  cases step with
  | member key => exact .inl ⟨rfl, rfl⟩
  | item n =>
    by_cases hn : n < items.length
    · have hi : items[n]? = some items[n] := List.getElem?_eq_getElem hn
      have hn' : n < items'.length := hlength ▸ hn
      have hi' : items'[n]? = some items'[n] := List.getElem?_eq_getElem hn'
      exact .inr ⟨_, _, hi, hi', h n _ _ hi hi'⟩
    · have hn' : ¬n < items'.length := hlength ▸ hn
      exact .inl ⟨List.getElem?_eq_none (by omega), List.getElem?_eq_none (by omega)⟩

/-- Maps are substituted member by member. -/
theorem obj {members members' : List (String × Json)} (hnil : ∀ k, ¬slots k [])
    (hkeys : members'.map Prod.fst = members.map Prod.fst)
    (h : ∀ key v v', members.lookup key = some v → members'.lookup key = some v' →
      Substitutes (fun k p => slots k (.member key :: p)) image v v') :
    Substitutes slots image (.obj members) (.obj members') := by
  refine of_parts hnil (Json.shape_obj hkeys) fun step => ?_
  cases step with
  | item n => exact .inl ⟨rfl, rfl⟩
  | member key =>
    obtain hnone | ⟨v, v', hv, hv'⟩ := Json.exists_lookup_of_keys hkeys key
    · exact .inl hnone
    · exact .inr ⟨v, v', hv, hv', h key v v' hv hv'⟩

/-! ## Changes of all members or items -/

section Changes

variable {ε : Type}

/-- A change of every member is a substitution if it is one of each member that has a slot. -/
theorem onMembers {f : String → Json → Except ε Json}
    (hslots : ∀ k p, slots k p → ∃ key rest, p = .member key :: rest ∧ (j.member? key).isSome)
    (hparts : ∀ key v v', j.member? key = some v → f key v = .ok v' →
      Substitutes (fun k p => slots k (.member key :: p)) image v v')
    (h : j.onMembers f = .ok j') : Substitutes slots image j j' := by
  have hnil (k : κ) : ¬slots k [] := by
    intro hslot
    obtain ⟨key, rest, hp, -⟩ := hslots k [] hslot
    cases hp
  cases j with
  | obj members =>
    obtain ⟨members', rfl, hforall⟩ := Json.onMembers_eq_ok_iff.1 h
    refine obj hnil (Json.keys_of_forall₂ hforall) fun key v v' hv hv' => ?_
    obtain ⟨-, hnone⟩ | ⟨w, w', hw, hw', hmem⟩ :=
      Json.lookup_forall₂ (f := fun key v => {v' | f key v = .ok v'}) hforall key
    · rw [hnone] at hv'
      cases hv'
    · obtain rfl := Option.some.inj (hv.symm.trans hw)
      obtain rfl := Option.some.inj (hv'.symm.trans hw')
      exact hparts key v v' hv hmem
  | _ =>
    obtain rfl := Except.ok.inj h
    refine refl (fun k p hslot => ?_) _
    obtain ⟨key, rest, -, hsome⟩ := hslots k p hslot
    cases hsome

/-- A change of every item is a substitution if it is one of each item that has a slot. -/
theorem onItems {f : Json → Except ε Json}
    (hslots : ∀ k p, slots k p → ∃ n rest, p = .item n :: rest ∧ (j.item? n).isSome)
    (hparts : ∀ n v v', j.item? n = some v → f v = .ok v' →
      Substitutes (fun k p => slots k (.item n :: p)) image v v')
    (h : j.onItems f = .ok j') : Substitutes slots image j j' := by
  have hnil (k : κ) : ¬slots k [] := by
    intro hslot
    obtain ⟨n, rest, hp, -⟩ := hslots k [] hslot
    cases hp
  cases j with
  | arr items =>
    obtain ⟨items', hitems, heq⟩ := Except.bind_eq_ok_iff.1 h
    obtain rfl := Except.ok.inj heq
    have hforall := Except.mapM_eq_ok_iff.1 hitems
    refine arr hnil hforall.length_eq.symm fun n v v' hv hv' => ?_
    exact hparts n v v' hv (Json.getElem?_forall₂ hforall hv hv')
  | _ =>
    obtain rfl := Except.ok.inj h
    refine refl (fun k p hslot => ?_) _
    obtain ⟨n, rest, -, hsome⟩ := hslots k p hslot
    cases hsome

/-- The change of one item is a substitution in a list whose slots are in that item. -/
theorem setItem {n : Nat} {v v' : Json} (hv : j.item? n = some v)
    (hslots : ∀ k p, slots k p → ∃ rest, p = .item n :: rest)
    (h : Substitutes (fun k p => slots k (.item n :: p)) image v v') :
    Substitutes slots image j (j.setItem n v') := by
  cases j with
  | arr items =>
    refine arr (fun k hslot => ?_) (List.length_set) fun i w w' hw hw' => ?_
    · obtain ⟨rest, hp⟩ := hslots k [] hslot
      cases hp
    · by_cases hi : i = n
      · subst hi
        obtain rfl := Option.some.inj (hw.symm.trans hv)
        obtain ⟨hlt, -⟩ := List.getElem?_eq_some_iff.1 hw
        rw [List.getElem?_set_self hlt] at hw'
        exact Option.some.inj hw' ▸ h
      · rw [List.getElem?_set_ne (Ne.symm hi)] at hw'
        obtain rfl := Option.some.inj (hw.symm.trans hw')
        refine refl (fun k p hslot => ?_) _
        obtain ⟨rest, hp⟩ := hslots k _ hslot
        exact hi (Step.item.inj (List.cons.inj hp).1)
  | _ => cases hv

end Changes

end Substitutes

end Rehome
