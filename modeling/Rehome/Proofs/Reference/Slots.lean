import Rehome.Proofs.Json.Position
import Rehome.Proofs.Json.Settled
import Rehome.Proofs.Reference.Clauses
import Rehome.Proofs.Reference.Needs

/-! # Slots of a query

A query refers to tables, cards and columns at its slots (`QuerySlot`): the sources of its parts and
joins, and the id or name in each field reference that is found by the descent that goes with a key
(`descents`). Renaming a query is one substitution: what is at a slot is replaced once, by what its
original value stands for (`Image`), and nothing else changes (`query_substitutes`). -/

namespace Rehome

/-! ## Slots -/

/-- What a slot holds. -/
inductive SlotKind where
  /-- The id of a table, or the name of a card. -/
  | source
  /-- The id or the name of a column. -/
  | column
deriving DecidableEq, Repr

/-- How references are found in what a query part or join has under a key. -/
inductive Descent where
  /-- The value is a source. -/
  | source
  /-- Through comparisons and connectives. -/
  | clauses
  /-- Through lists. -/
  | lists
  /-- Through lists in each value of a map. -/
  | listsOfMembers
  /-- The items of a list. -/
  | items
  /-- The second items of the items of a list. -/
  | orderings
deriving DecidableEq, Repr

/-- Under which keys there are references, and how they are found. -/
def descents : PlaceKind → List (String × Descent)
  | .queryPart =>
    [("source-table", .source), ("filter", .clauses), ("aggregation", .lists), ("fields", .lists),
      ("expressions", .listsOfMembers), ("breakout", .items), ("order-by", .orderings)]
  | .join => [("source-table", .source), ("condition", .lists), ("fields", .lists)]
  | _ => []

/-- The slot of a field reference is its second item, if that is an id or a name. -/
inductive ReferenceSlot : Json → Position → Prop
  | intro {j : Json} {target : FieldTarget} : Clause.ofJson j = .fieldRef target → target ≠ .unknown →
    ReferenceSlot j [.item 1]

/-- The slots of the field references that lists within lists lead to, the lists that are field references
themselves excepted. -/
inductive ListSlot : Json → Position → Prop
  | reference {j : Json} {p : Position} : ReferenceSlot j p → ListSlot j p
  | item {items : List Json} {n : Nat} {i : Json} {p : Position} :
    (Clause.ofJson (.arr items)).isFieldRef = false → items[n]? = some i → ListSlot i p →
    ListSlot (.arr items) (.item n :: p)

/-- The slots of the field references at the leaves of a tree of comparisons and connectives. -/
inductive ClauseSlot : Json → Position → Prop
  | reference {j : Json} {p : Position} : ReferenceSlot j p → ClauseSlot j p
  | operand {operator : Json} {operands : List Json} {n : Nat} {i : Json} {p : Position} :
    Renaming.Combines (.arr (operator :: operands)) → operands[n]? = some i → ClauseSlot i p →
    ClauseSlot (.arr (operator :: operands)) (.item (n + 1) :: p)

/-- The slots that a descent leads to. -/
inductive Descent.Slot : Descent → Json → SlotKind → Position → Prop
  | source {j : Json} : Slot .source j .source []
  | clauses {j : Json} {p : Position} : ClauseSlot j p → Slot .clauses j .column p
  | lists {j : Json} {p : Position} : ListSlot j p → Slot .lists j .column p
  | listsOfMembers {j e : Json} {name : String} {p : Position} : j.member? name = some e →
    ListSlot e p → Slot .listsOfMembers j .column (.member name :: p)
  | items {j i : Json} {n : Nat} {p : Position} : j.item? n = some i → ReferenceSlot i p →
    Slot .items j .column (.item n :: p)
  | orderings {j o i : Json} {n : Nat} {p : Position} : j.item? n = some o → o.item? 1 = some i →
    ReferenceSlot i p → Slot .orderings j .column (.item n :: .item 1 :: p)

/-- The slots of a query part or join, those of its nested query and its joins included. -/
inductive QuerySlot : PlaceKind → Json → SlotKind → Position → Prop
  | member {k : PlaceKind} {j v : Json} {key : String} {d : Descent} {s : SlotKind} {p : Position} :
    (descents k).lookup key = some d → j.member? key = some v → d.Slot v s p →
    QuerySlot k j s (.member key :: p)
  | nested {k : PlaceKind} {j q : Json} {s : SlotKind} {p : Position} :
    j.member? "source-query" = some q → q.isObj → QuerySlot .queryPart q s p →
    QuerySlot k j s (.member "source-query" :: p)
  | join {j i : Json} {items : List Json} {n : Nat} {s : SlotKind} {p : Position} :
    j.member? "joins" = some (.arr items) → items[n]? = some i → i.isObj → QuerySlot .join i s p →
    QuerySlot .queryPart j s (.member "joins" :: .item n :: p)

theorem ReferenceSlot.isFieldRef {j : Json} {p : Position} (h : ReferenceSlot j p) :
    (Clause.ofJson j).isFieldRef = true := by
  obtain ⟨hj, -⟩ := h
  rw [hj]
  rfl

theorem not_referenceSlot_nil {j : Json} : ¬ReferenceSlot j [] := fun h => by cases h

/-- The slots of a list that is a field reference are those of the reference. -/
theorem listSlot_iff_of_isFieldRef {j : Json} (h : (Clause.ofJson j).isFieldRef = true) (p : Position) :
    ListSlot j p ↔ ReferenceSlot j p := by
  refine ⟨fun hp => ?_, .reference⟩
  cases hp with
  | reference hp => exact hp
  | item hnot =>
    rw [h] at hnot
    cases hnot

/-- The slots of any other list are those of its items. -/
theorem listSlot_item_iff {items : List Json} {n : Nat} {i : Json} {p : Position}
    (h : (Clause.ofJson (.arr items)).isFieldRef = false) (hi : items[n]? = some i) :
    ListSlot (.arr items) (.item n :: p) ↔ ListSlot i p := by
  refine ⟨fun hp => ?_, .item h hi⟩
  cases hp with
  | reference hp =>
    rw [hp.isFieldRef] at h
    cases h
  | item _ hi' hp => exact Option.some.inj (hi.symm.trans hi') ▸ hp

theorem clauseSlot_iff_of_isFieldRef {j : Json} (h : (Clause.ofJson j).isFieldRef = true) (p : Position) :
    ClauseSlot j p ↔ ReferenceSlot j p := by
  refine ⟨fun hp => ?_, .reference⟩
  cases hp with
  | reference hp => exact hp
  | @operand operator operands n i p hcombines =>
    rw [hcombines.isFieldRef operands] at h
    cases h

theorem clauseSlot_operand_iff {operator i : Json} {operands : List Json} {n : Nat} {p : Position}
    (h : Renaming.Combines (.arr (operator :: operands))) (hi : operands[n]? = some i) :
    ClauseSlot (.arr (operator :: operands)) (.item (n + 1) :: p) ↔ ClauseSlot i p := by
  refine ⟨fun hp => ?_, .operand h hi⟩
  cases hp with
  | reference hp =>
    have hnot := hp.isFieldRef
    rw [h.isFieldRef operands] at hnot
    cases hnot
  | operand _ hi' hp => exact Option.some.inj (hi.symm.trans hi') ▸ hp

/-- What is no clause has no slot. -/
theorem not_clauseSlot_of_constant {j : Json} (h : Clause.ofJson j = .constant) (p : Position) :
    ¬ClauseSlot j p := by
  intro hp
  cases hp with
  | reference hp =>
    have hnot := hp.isFieldRef
    rw [h] at hnot
    cases hnot
  | operand hcombines =>
    obtain ⟨name, hclause⟩ | ⟨name, n, -, hclause⟩ := hcombines
    · rw [h] at hclause
      cases hclause
    · rw [h] at hclause
      cases hclause

/-- What is no list has no slot. -/
theorem not_listSlot_of_not_isArr {j : Json} (h : j.isArr = false) (p : Position) : ¬ListSlot j p := by
  intro hp
  cases hp with
  | reference hp =>
    obtain ⟨hj, -⟩ := hp
    obtain ⟨operator, operands, rfl, -⟩ := Clause.ofJson_eq_fieldRef_iff.1 hj
    cases h
  | item => cases h

/-! ## Images -/

namespace Renaming

variable {r : Renaming} {j j' : Json}

/-- What takes the place of the value at a slot. -/
inductive Image (r : Renaming) : SlotKind → Json → Json → Prop
  | table {v : Json} {t t' : TableId} : Source.ofJson v = .table t → r.mapping.resolveTable t = .ok t' →
    Image r .source v t'.toJson
  | card {v : Json} {c c' : CardId} : Source.ofJson v = .card c → r.mapping.moves.card? c = some c' →
    Image r .source v (Source.card c').toJson
  | column {v : Json} {c c' : ColumnId} : Ident.ofJson? v = some c → r.mapping.replaceColumn c = .ok c' →
    Image r .column v c'.toJson
  | name (n : String) : Image r .column (.str n) (.str ((r.mapping.replaceName? n).getD n))

/-- Slots that hold columns. -/
def columnsAt (slots : Position → Prop) (s : SlotKind) (p : Position) : Prop := s = .column ∧ slots p

theorem isLeaf_of_ofJson? {kind : IdentKind} {id : Ident kind} (h : Ident.ofJson? j = some id) :
    j.isLeaf := by
  cases j with
  | int n => rfl
  | _ => cases h

/-! ## References -/

/-- The second item of a field reference is replaced. -/
theorem substitutes_reference {operator item item' : Json} {operands : List Json} {target : FieldTarget}
    (hj : Clause.ofJson (.arr (operator :: item :: operands)) = .fieldRef target) (htarget : target ≠ .unknown)
    (hitem : item.isLeaf) (hitem' : item'.isLeaf) (h : Image r .column item item') :
    Substitutes (columnsAt (ReferenceSlot (.arr (operator :: item :: operands)))) r.Image
      (.arr (operator :: item :: operands)) (.arr (operator :: item' :: operands)) := by
  refine .arr (fun s hs => not_referenceSlot_nil hs.2) rfl fun n i i' hi hi' => ?_
  match n with
  | 0 =>
    obtain rfl := (Option.some.inj hi).symm.trans (Option.some.inj hi')
    exact .refl (fun s p hs => by cases hs.2) _
  | 1 =>
    obtain rfl := Option.some.inj hi
    obtain rfl := Option.some.inj hi'
    refine .leaf hitem hitem' h fun s p => ⟨fun hs => ?_, ?_⟩
    · obtain ⟨rfl, hs⟩ := hs
      cases hs
      exact ⟨rfl, rfl⟩
    · rintro ⟨rfl, rfl⟩
      exact ⟨rfl, hj, htarget⟩
  | n + 2 =>
    obtain rfl := Option.some.inj (hi.symm.trans hi')
    exact .refl (fun s p hs => by cases hs.2) _

theorem Retargeted.substitutes (h : Retargeted r j j') :
    Substitutes (columnsAt (ReferenceSlot j)) r.Image j j' := by
  cases h with
  | column hfield hitem hc =>
    have hc' := Except.mapError_eq_ok_iff.1 hc
    refine substitutes_reference (Clause.ofJson_eq_fieldRef_iff.2 ⟨_, _, rfl, hfield, rfl⟩) ?_
      (isLeaf_of_ofJson? hitem) rfl (.column hitem hc')
    rw [List.head?_cons, ofItem_of_ofJson? hitem]
    simp
  | @name operator n n' operands hfield hn =>
    refine substitutes_reference (Clause.ofJson_eq_fieldRef_iff.2 ⟨_, _, rfl, hfield, rfl⟩) (by simp [FieldTarget.ofItem]) rfl rfl ?_
    have himage := Image.name (r := r) n
    rwa [hn] at himage
  | @kept operator operands hfield hid hname =>
    have hj : Clause.ofJson (.arr (.str operator :: operands)) = .fieldRef (.ofItem operands.head?) :=
      Clause.ofJson_eq_fieldRef_iff.2 ⟨_, _, rfl, hfield, rfl⟩
    cases htarget : FieldTarget.ofItem operands.head? with
    | id c => exact absurd htarget (hid c)
    | name n =>
      obtain ⟨rest, rfl⟩ := ofItem_eq_name htarget
      refine substitutes_reference hj (by simp [FieldTarget.ofItem]) rfl rfl ?_
      have himage := Image.name (r := r) n
      rwa [hname n htarget] at himage
    | unknown =>
      refine .refl (fun s p hs => ?_) _
      obtain ⟨-, hslot⟩ := hs
      obtain ⟨htarget', hne⟩ := hslot
      rw [hj, htarget] at htarget'
      exact hne (Clause.fieldRef.inj htarget').symm

/-- A value is a field reference, or has no slot of one. -/
theorem fieldRef_substitutes (h : r.fieldRef j = .ok j') :
    Substitutes (columnsAt (ReferenceSlot j)) r.Image j j' := by
  obtain h | ⟨hnot, rfl⟩ := fieldRef_eq_ok_iff.1 h
  · exact h.substitutes
  · refine .refl (fun s p hs => ?_) _
    rw [ReferenceSlot.isFieldRef hs.2] at hnot
    cases hnot

/-! ## Lists -/

mutual

/-- Lists are substituted at the references that lists lead to. -/
theorem nested_substitutes : (j : Json) → ∀ {j' : Json}, r.nested j = .ok j' →
    Substitutes (columnsAt (ListSlot j)) r.Image j j'
  | .arr items, j', h => by
    obtain h | ⟨hnot, items', hitems, rfl⟩ := nested_arr_eq_ok_iff.1 h
    · have hfield : (Clause.ofJson (.arr items)).isFieldRef = true := by
        obtain ⟨target, htarget, -⟩ := retargeted_iff.1 h
        rw [htarget]
        rfl
      refine h.substitutes.congr fun s p => ?_
      rw [columnsAt, columnsAt, listSlot_iff_of_isFieldRef hfield]
    · obtain ⟨hlength, hsubstitutes⟩ := nestedItems_substitutes items hitems
      refine .arr (fun s hs => ?_) hlength fun n i i' hi hi' => ?_
      · cases hs.2 with
        | reference hp => exact not_referenceSlot_nil hp
      · refine (hsubstitutes n i i' hi hi').congr fun s p => ?_
        rw [columnsAt, columnsAt, listSlot_item_iff hnot hi]
  | .null, j', h | .bool _, j', h | .int _, j', h | .double _, j', h | .str _, j', h
  | .obj _, j', h => by
    obtain rfl := Except.ok.inj h
    exact .refl (fun s p hs => not_listSlot_of_not_isArr rfl p hs.2) _

theorem nestedItems_substitutes : (items : List Json) → ∀ {items' : List Json},
    r.nestedItems items = .ok items' → items'.length = items.length ∧
    ∀ (n : Nat) (i i' : Json), items[n]? = some i → items'[n]? = some i' →
      Substitutes (columnsAt (ListSlot i)) r.Image i i'
  | [], items', h => by
    obtain rfl := Except.ok.inj h
    exact ⟨rfl, fun n i i' hi => by cases hi⟩
  | j :: items, items', h => by
    obtain ⟨j', rest, hj, hrest, rfl⟩ := nestedItems_cons_eq_ok_iff.1 h
    obtain ⟨hlength, hsubstitutes⟩ := nestedItems_substitutes items hrest
    refine ⟨congrArg (· + 1) hlength, fun n i i' hi hi' => ?_⟩
    cases n with
    | zero =>
      obtain rfl := Option.some.inj hi
      obtain rfl := Option.some.inj hi'
      exact nested_substitutes j hj
    | succ n => exact hsubstitutes n i i' hi hi'

end

/-! ## Filters -/

mutual

/-- Filters are substituted at the references that are their leaves. -/
theorem filter_substitutes : (j : Json) → ∀ {j' : Json}, r.filter j = .ok j' →
    Substitutes (columnsAt (ClauseSlot j)) r.Image j j'
  | .arr (operator :: operands), j', h => by
    obtain ⟨hconstant, rfl⟩ | h | ⟨hcombines, operands', hoperands, rfl⟩ := filter_arr_eq_ok_iff.1 h
    · exact .refl (fun s p hs => not_clauseSlot_of_constant hconstant p hs.2) _
    · have hfield : (Clause.ofJson (.arr (operator :: operands))).isFieldRef = true := by
        obtain ⟨target, htarget, -⟩ := retargeted_iff.1 h
        rw [htarget]
        rfl
      refine h.substitutes.congr fun s p => ?_
      rw [columnsAt, columnsAt, clauseSlot_iff_of_isFieldRef hfield]
    · obtain ⟨hlength, hsubstitutes⟩ := filters_substitutes operands hoperands
      refine .arr (fun s hs => ?_) (congrArg (· + 1) hlength) fun n i i' hi hi' => ?_
      · cases hs.2 with
        | reference hp => exact not_referenceSlot_nil hp
      · cases n with
        | zero =>
          obtain rfl := Option.some.inj (hi.symm.trans hi')
          refine .refl (fun s p hs => ?_) _
          cases hs.2 with
          | reference hp => cases hp
        | succ n =>
          refine (hsubstitutes n i i' hi hi').congr fun s p => ?_
          rw [columnsAt, columnsAt, clauseSlot_operand_iff hcombines hi]
  | .arr [], j', h | .null, j', h | .bool _, j', h | .int _, j', h | .double _, j', h | .str _, j', h
  | .obj _, j', h => by
    obtain rfl := Except.ok.inj h
    exact .refl (fun s p hs => not_clauseSlot_of_constant rfl p hs.2) _

theorem filters_substitutes : (items : List Json) → ∀ {items' : List Json},
    r.filters items = .ok items' → items'.length = items.length ∧
    ∀ (n : Nat) (i i' : Json), items[n]? = some i → items'[n]? = some i' →
      Substitutes (columnsAt (ClauseSlot i)) r.Image i i'
  | [], items', h => by
    obtain rfl := Except.ok.inj h
    exact ⟨rfl, fun n i i' hi => by cases hi⟩
  | j :: items, items', h => by
    obtain ⟨j', rest, hj, hrest, rfl⟩ := filters_cons_eq_ok_iff.1 h
    obtain ⟨hlength, hsubstitutes⟩ := filters_substitutes items hrest
    refine ⟨congrArg (· + 1) hlength, fun n i i' hi hi' => ?_⟩
    cases n with
    | zero =>
      obtain rfl := Option.some.inj hi
      obtain rfl := Option.some.inj hi'
      exact filter_substitutes j hj
    | succ n => exact hsubstitutes n i i' hi hi'

end

end Renaming

end Rehome
