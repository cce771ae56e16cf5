import Rehome.Proofs.Data.Except
import Rehome.Proofs.Query.Source
import Rehome.Reference.Query

/-! # What becomes of clauses

`Retargeted` lists all that the renaming of a field reference can do: the id is replaced, or the name is,
or nothing changes. Lists and filters are made of field references, of clauses whose operands are renamed,
and of values that stay (`nested_arr_eq_ok_iff`, `filter_arr_eq_ok_iff`). -/

namespace Rehome

/-! ## Clauses -/

namespace Clause

theorem ofOperator_eq_fieldRef {operator : String} {operands : List Json} {target : FieldTarget}
    (h : ofOperator operator operands = .fieldRef target) :
    operator = "field" ∧ target = .ofItem operands.head? := by
  rw [ofOperator] at h
  split at h
  · next hfield => exact ⟨hfield, (Clause.fieldRef.inj h).symm⟩
  split at h
  · split at h <;> cases h
  split at h
  · cases h
  split at h <;> cases h

/-- A clause is a list that starts with a text. -/
theorem ofJson_ne_constant {j : Json} (h : ofJson j ≠ .constant) :
    ∃ operator operands, j = .arr (.str operator :: operands) := by
  rw [ofJson.eq_def] at h
  split at h
  · exact ⟨_, _, rfl⟩
  · exact absurd rfl h

theorem ofJson_clause_ne_constant (operator : String) (operands : List Json) :
    ofJson (.arr (.str operator :: operands)) ≠ .constant := by
  show ofOperator _ _ ≠ _
  rw [ofOperator]
  split
  · simp
  split
  · split <;> simp
  split
  · simp
  split <;> simp

/-- A field reference is a clause with the operator `field`. -/
theorem ofJson_eq_fieldRef_iff {j : Json} {target : FieldTarget} : ofJson j = .fieldRef target ↔
    ∃ operator operands, j = .arr (.str operator :: operands) ∧ Text.trim operator = "field" ∧
      target = .ofItem operands.head? := by
  constructor
  · intro h
    have hclause : ofJson j ≠ .constant := by simp [h]
    obtain ⟨operator, operands, rfl⟩ := ofJson_ne_constant hclause
    obtain ⟨hfield, htarget⟩ := ofOperator_eq_fieldRef h
    exact ⟨operator, operands, rfl, hfield, htarget⟩
  · rintro ⟨operator, operands, rfl, hfield, rfl⟩
    show ofOperator (Text.trim operator) operands = _
    rw [hfield, ofOperator, if_pos rfl]

/-- Of the operands of most clauses, only their number is of importance. -/
theorem ofOperator_congr {operator : String} {operands operands' : List Json}
    (hfield : operator ≠ "field") (haggregation : operator ≠ "aggregation")
    (hlength : operands'.length = operands.length) :
    ofOperator operator operands' = ofOperator operator operands := by
  rw [ofOperator, ofOperator, if_neg hfield, if_neg hfield, if_neg haggregation, if_neg haggregation,
    hlength]

theorem isFieldRef_eq_true_iff {c : Clause} : c.isFieldRef = true ↔ ∃ target, c = .fieldRef target := by
  cases c <;> simp [isFieldRef]

/-- Whether a clause is a field reference depends on its operator alone. -/
theorem isFieldRef_ofJson_clause (operator : String) (operands : List Json) :
    (ofJson (.arr (.str operator :: operands))).isFieldRef = decide (Text.trim operator = "field") := by
  by_cases h : Text.trim operator = "field"
  · rw [decide_eq_true h, isFieldRef_eq_true_iff]
    exact ⟨_, ofJson_eq_fieldRef_iff.2 ⟨operator, operands, rfl, h, rfl⟩⟩
  · rw [decide_eq_false h, Bool.eq_false_iff]
    intro hfield
    obtain ⟨target, htarget⟩ := isFieldRef_eq_true_iff.1 hfield
    exact h (ofOperator_eq_fieldRef htarget).1

end Clause

/-- A field reference by the id of a column. -/
inductive RefersById : Json → ColumnId → Prop
  | intro {operator : String} {item : Json} {operands : List Json} {c : ColumnId} :
    Text.trim operator = "field" → Ident.ofJson? item = some c →
    RefersById (.arr (.str operator :: item :: operands)) c

/-! ## Renaming one reference -/

namespace Renaming

variable {r : Renaming}

/-- `Retargeted r j j'` holds when `j` is a field reference and renaming it leads to `j'`. -/
inductive Retargeted (r : Renaming) : Json → Json → Prop
  /-- The id of a column is replaced. -/
  | column {operator : String} {item : Json} {operands : List Json} {c c' : ColumnId} :
    Text.trim operator = "field" → Ident.ofJson? item = some c → r.column c = .ok c' →
    Retargeted r (.arr (.str operator :: item :: operands))
      (.arr (.str operator :: c'.toJson :: operands))
  /-- A name that is overridden is replaced. -/
  | name {operator n n' : String} {operands : List Json} : Text.trim operator = "field" →
    r.mapping.replaceName? n = some n' →
    Retargeted r (.arr (.str operator :: .str n :: operands)) (.arr (.str operator :: .str n' :: operands))
  /-- Everything else stays. -/
  | kept {operator : String} {operands : List Json} : Text.trim operator = "field" →
    (∀ c, FieldTarget.ofItem operands.head? ≠ .id c) →
    (∀ n, FieldTarget.ofItem operands.head? = .name n → r.mapping.replaceName? n = none) →
    Retargeted r (.arr (.str operator :: operands)) (.arr (.str operator :: operands))

theorem ofItem_eq_id {operands : List Json} {c : ColumnId}
    (h : FieldTarget.ofItem operands.head? = .id c) :
    ∃ item rest, operands = item :: rest ∧ Ident.ofJson? item = some c := by
  cases operands with
  | nil => cases h
  | cons item rest =>
    refine ⟨item, rest, rfl, ?_⟩
    rw [List.head?_cons, FieldTarget.ofItem.eq_def] at h
    split at h
    · cases h
    · next heq =>
      obtain rfl := Option.some.inj heq
      split at h
      · next hc => exact FieldTarget.id.inj h ▸ hc
      · cases h
    · cases h

theorem ofItem_eq_name {operands : List Json} {n : String}
    (h : FieldTarget.ofItem operands.head? = .name n) : ∃ rest, operands = .str n :: rest := by
  cases operands with
  | nil => cases h
  | cons item rest =>
    rw [List.head?_cons, FieldTarget.ofItem.eq_def] at h
    split at h
    · next heq =>
      obtain rfl := Option.some.inj heq
      obtain rfl := FieldTarget.name.inj h
      exact ⟨rest, rfl⟩
    · split at h <;> cases h
    · cases h

theorem ofItem_of_ofJson? {item : Json} {c : ColumnId} (h : Ident.ofJson? item = some c) :
    FieldTarget.ofItem (some item) = .id c := by
  cases item with
  | str s => simp [Ident.ofJson?] at h
  | _ => simp [FieldTarget.ofItem, h]

@[simp] theorem ofItem_toJson (c : ColumnId) : FieldTarget.ofItem (some c.toJson) = .id c :=
  ofItem_of_ofJson? (Ident.ofJson?_toJson c)

theorem retarget_eq_ok_iff {operator : String} {operands : List Json} {j' : Json}
    (hfield : Text.trim operator = "field") :
    r.retarget (.ofItem operands.head?) (.arr (.str operator :: operands)) = .ok j' ↔
      Retargeted r (.arr (.str operator :: operands)) j' := by
  constructor
  · intro h
    cases htarget : FieldTarget.ofItem operands.head? with
    | id c =>
      obtain ⟨item, rest, rfl, hitem⟩ := ofItem_eq_id htarget
      rw [htarget, retarget] at h
      obtain ⟨c', hc, h⟩ := Except.bind_eq_ok_iff.1 h
      obtain rfl := Except.ok.inj h
      exact .column hfield hitem hc
    | name n =>
      obtain ⟨rest, rfl⟩ := ofItem_eq_name htarget
      rw [htarget, retarget] at h
      cases hn : r.mapping.replaceName? n with
      | none =>
        rw [hn] at h
        obtain rfl := Except.ok.inj h
        refine .kept hfield (fun c hc => ?_) fun n' hn' => ?_
        · rw [htarget] at hc
          cases hc
        · rw [htarget] at hn'
          rwa [← FieldTarget.name.inj hn']
      | some n' =>
        rw [hn] at h
        obtain rfl := Except.ok.inj h
        exact .name hfield hn
    | unknown =>
      rw [htarget, retarget] at h
      obtain rfl := Except.ok.inj h
      exact .kept hfield (by simp [htarget]) (by simp [htarget])
  · intro h
    cases h with
    | @column _ item rest c c' _ hitem hc =>
      rw [List.head?_cons, ofItem_of_ofJson? hitem, retarget, hc]
      rfl
    | name _ hn =>
      rw [List.head?_cons, FieldTarget.ofItem, retarget, hn]
      rfl
    | kept _ hid hname =>
      cases htarget : FieldTarget.ofItem operands.head? with
      | id c => exact absurd htarget (hid c)
      | name n => rw [retarget, hname n htarget]
      | unknown => rfl

theorem retargeted_iff {j j' : Json} : Retargeted r j j' ↔
    ∃ target, Clause.ofJson j = .fieldRef target ∧ r.retarget target j = .ok j' := by
  constructor
  · intro h
    obtain ⟨operator, operands, rfl, hfield⟩ : ∃ operator operands,
        j = .arr (.str operator :: operands) ∧ Text.trim operator = "field" := by
      cases h with
      | column hfield | name hfield | kept hfield => exact ⟨_, _, rfl, hfield⟩
    exact ⟨_, Clause.ofJson_eq_fieldRef_iff.2 ⟨operator, operands, rfl, hfield, rfl⟩,
      (retarget_eq_ok_iff hfield).2 h⟩
  · rintro ⟨target, htarget, h⟩
    obtain ⟨operator, operands, rfl, hfield, rfl⟩ := Clause.ofJson_eq_fieldRef_iff.1 htarget
    exact (retarget_eq_ok_iff hfield).1 h

theorem fieldRef?_eq_some_iff {j j' : Json} : r.fieldRef? j = .ok (some j') ↔ Retargeted r j j' := by
  rw [retargeted_iff, fieldRef?]
  split
  · next target hj => simp [hj, Except.map_eq_ok_iff]
  · next hj =>
    constructor
    · intro h
      cases h
    · rintro ⟨target, htarget, -⟩
      exact (hj target htarget).elim

theorem fieldRef?_eq_none_iff {j : Json} :
    r.fieldRef? j = .ok none ↔ (Clause.ofJson j).isFieldRef = false := by
  rw [fieldRef?]
  split
  · next target hj =>
    simp [hj, Except.map_eq_ok_iff, Clause.isFieldRef]
  · next hj =>
    simp only [true_iff]
    cases hc : Clause.ofJson j <;> simp_all [Clause.isFieldRef]

/-- A value is renamed if it is a field reference, and stays otherwise. -/
theorem fieldRef_eq_ok_iff {j j' : Json} : r.fieldRef j = .ok j' ↔
    Retargeted r j j' ∨ (Clause.ofJson j).isFieldRef = false ∧ j' = j := by
  rw [fieldRef, Except.bind_eq_ok_iff]
  constructor
  · rintro ⟨o, ho, h⟩
    obtain rfl := Except.ok.inj h
    cases o with
    | none => exact .inr ⟨fieldRef?_eq_none_iff.1 ho, rfl⟩
    | some j' => exact .inl (fieldRef?_eq_some_iff.1 ho)
  · rintro (h | ⟨h, rfl⟩)
    · exact ⟨some j', fieldRef?_eq_some_iff.2 h, rfl⟩
    · exact ⟨none, fieldRef?_eq_none_iff.2 h, rfl⟩

theorem Retargeted.isFieldRef {j j' : Json} (h : Retargeted r j j') : (Clause.ofJson j').isFieldRef := by
  cases h with
  | column hfield | name hfield | kept hfield =>
    rw [Clause.isFieldRef_ofJson_clause, decide_eq_true hfield]

/-! ## Lists -/

/-- A list is renamed as a field reference, or else item by item. -/
theorem nested_arr_eq_ok_iff {items : List Json} {j' : Json} : r.nested (.arr items) = .ok j' ↔
    Retargeted r (.arr items) j' ∨ (Clause.ofJson (.arr items)).isFieldRef = false ∧
      ∃ items', r.nestedItems items = .ok items' ∧ j' = .arr items' := by
  rw [nested, Except.bind_eq_ok_iff]
  constructor
  · rintro ⟨o, ho, h⟩
    cases o with
    | some j =>
      obtain rfl := Except.ok.inj h
      exact .inl (fieldRef?_eq_some_iff.1 ho)
    | none =>
      obtain ⟨items', hitems, h⟩ := Except.bind_eq_ok_iff.1 h
      exact .inr ⟨fieldRef?_eq_none_iff.1 ho, items', hitems, (Except.ok.inj h).symm⟩
  · rintro (h | ⟨hnot, items', hitems, rfl⟩)
    · exact ⟨some j', fieldRef?_eq_some_iff.2 h, rfl⟩
    · exact ⟨none, fieldRef?_eq_none_iff.2 hnot, Except.bind_eq_ok_iff.2 ⟨items', hitems, rfl⟩⟩

theorem nestedItems_cons_eq_ok_iff {i : Json} {items items' : List Json} :
    r.nestedItems (i :: items) = .ok items' ↔ ∃ i' rest, r.nested i = .ok i' ∧
      r.nestedItems items = .ok rest ∧ items' = i' :: rest := by
  rw [nestedItems, Except.bind_eq_ok_iff]
  constructor
  · rintro ⟨i', hi, h⟩
    obtain ⟨rest, hrest, h⟩ := Except.bind_eq_ok_iff.1 h
    exact ⟨i', rest, hi, hrest, (Except.ok.inj h).symm⟩
  · rintro ⟨i', rest, hi, hrest, rfl⟩
    exact ⟨i', hi, Except.bind_eq_ok_iff.2 ⟨rest, hrest, rfl⟩⟩

/-- Only a text becomes a text. -/
theorem nested_eq_str {j : Json} {s : String} (h : r.nested j = .ok (.str s)) : j = .str s := by
  cases j with
  | arr items =>
    obtain h | ⟨-, items', -, h⟩ := nested_arr_eq_ok_iff.1 h
    · cases h
    · cases h
  | _ => exact Except.ok.inj h

/-- Renaming the items of a list makes no field reference of it. -/
theorem isFieldRef_nestedItems {items items' : List Json} (h : r.nestedItems items = .ok items')
    (hitems : (Clause.ofJson (.arr items)).isFieldRef = false) :
    (Clause.ofJson (.arr items')).isFieldRef = false := by
  rw [Bool.eq_false_iff]
  intro hfield
  obtain ⟨target, htarget⟩ := Clause.isFieldRef_eq_true_iff.1 hfield
  obtain ⟨operator, operands, hlist, hoperator, -⟩ := Clause.ofJson_eq_fieldRef_iff.1 htarget
  cases items with
  | nil =>
    rw [← Except.ok.inj h] at hlist
    cases hlist
  | cons i items =>
    obtain ⟨i', rest, hi, -, rfl⟩ := nestedItems_cons_eq_ok_iff.1 h
    obtain ⟨rfl, rfl⟩ := List.cons.inj (Json.arr.inj hlist)
    rw [nested_eq_str hi, Clause.isFieldRef_ofJson_clause, decide_eq_true hoperator] at hitems
    cases hitems

/-! ## Filters -/

/-- A clause that a filter may combine others with: a comparison of two operands, or a connective of at
least two. -/
def Combines (j : Json) : Prop :=
  (∃ name, Clause.ofJson j = .comparison name 2) ∨ ∃ name n, 2 ≤ n ∧ Clause.ofJson j = .logical name n

theorem Combines.isFieldRef {operator : Json} {operands : List Json}
    (h : Combines (.arr (operator :: operands))) (operands' : List Json) :
    (Clause.ofJson (.arr (operator :: operands'))).isFieldRef = false := by
  have hclause : Clause.ofJson (.arr (operator :: operands)) ≠ .constant := by
    obtain ⟨name, h⟩ | ⟨name, n, -, h⟩ := h <;> simp [h]
  have hnot : (Clause.ofJson (.arr (operator :: operands))).isFieldRef = false := by
    obtain ⟨name, h⟩ | ⟨name, n, -, h⟩ := h <;> simp [h, Clause.isFieldRef]
  obtain ⟨text, operands, heq⟩ := Clause.ofJson_ne_constant hclause
  obtain ⟨rfl, rfl⟩ := List.cons.inj (Json.arr.inj heq)
  rw [Clause.isFieldRef_ofJson_clause] at hnot ⊢
  exact hnot

theorem Combines.of_length {operator : Json} {operands operands' : List Json}
    (h : Combines (.arr (operator :: operands))) (hlength : operands'.length = operands.length) :
    Combines (.arr (operator :: operands')) := by
  have hclause : Clause.ofJson (.arr (operator :: operands)) ≠ .constant := by
    obtain ⟨name, h⟩ | ⟨name, n, -, h⟩ := h <;> simp [h]
  have hnot := h.isFieldRef operands
  obtain ⟨text, operands, heq⟩ := Clause.ofJson_ne_constant hclause
  obtain ⟨rfl, rfl⟩ := List.cons.inj (Json.arr.inj heq)
  have hfield : Text.trim text ≠ "field" := by
    intro hfield
    rw [Clause.isFieldRef_ofJson_clause, decide_eq_true hfield] at hnot
    cases hnot
  have haggregation : Text.trim text ≠ "aggregation" := by
    intro haggregation
    rw [Combines, Clause.ofJson, haggregation, Clause.ofOperator, if_neg (by decide), if_pos rfl] at h
    split at h <;> simp at h
  have hsame : Clause.ofJson (.arr (.str text :: operands')) =
      Clause.ofJson (.arr (.str text :: operands)) :=
    Clause.ofOperator_congr hfield haggregation hlength
  rwa [Combines, hsame]

/-- A list in a filter is a constant, a field reference, or a clause that combines others. -/
theorem filter_arr_eq_ok_iff {operator j' : Json} {operands : List Json} :
    r.filter (.arr (operator :: operands)) = .ok j' ↔
      Clause.ofJson (.arr (operator :: operands)) = .constant ∧ j' = .arr (operator :: operands) ∨
      Retargeted r (.arr (operator :: operands)) j' ∨
      Combines (.arr (operator :: operands)) ∧
        ∃ operands', r.filters operands = .ok operands' ∧ j' = .arr (operator :: operands') := by
  rw [filter, Combines, retargeted_iff]
  cases hclause : Clause.ofJson (.arr (operator :: operands)) with
  | comparison name n =>
    by_cases hn : n = 2
    · simp [hn, Except.map_eq_ok_iff, eq_comm (a := j')]
    · simp [hn, malformed]
  | logical name n =>
    by_cases hn : n < 2
    · simp [hn, malformed]
    · simp [hn, Except.map_eq_ok_iff, eq_comm (a := j'), Nat.le_of_not_lt hn]
  | _ => simp [malformed, eq_comm]

theorem filters_cons_eq_ok_iff {i : Json} {items items' : List Json} :
    r.filters (i :: items) = .ok items' ↔ ∃ i' rest, r.filter i = .ok i' ∧
      r.filters items = .ok rest ∧ items' = i' :: rest := by
  rw [filters, Except.bind_eq_ok_iff]
  constructor
  · rintro ⟨i', hi, h⟩
    obtain ⟨rest, hrest, h⟩ := Except.bind_eq_ok_iff.1 h
    exact ⟨i', rest, hi, hrest, (Except.ok.inj h).symm⟩
  · rintro ⟨i', rest, hi, hrest, rfl⟩
    exact ⟨i', hi, Except.bind_eq_ok_iff.2 ⟨rest, hrest, rfl⟩⟩

/-! ## Other parts -/

theorem expressions_eq_ok_iff {j j' : Json} :
    r.expressions j = .ok j' ↔ j.isObj ∧ j.onMembers (fun _ => r.nested) = .ok j' := by
  cases j with
  | obj members => simp [expressions, Json.onMembers, Json.isObj]
  | _ => simp [expressions, malformed, Json.isObj]

theorem breakout_eq_ok_iff {j j' : Json} :
    r.breakout j = .ok j' ↔ j.isArr ∧ j.onItems r.fieldRef = .ok j' := by
  cases j with
  | arr items => simp [breakout, Json.onItems, Json.isArr]
  | _ => simp [breakout, malformed, Json.isArr]

theorem orderings_eq_ok_iff {j j' : Json} :
    r.orderings j = .ok j' ↔ j.isArr ∧ j.onItems r.ordering = .ok j' := by
  cases j with
  | arr items => simp [orderings, Json.onItems, Json.isArr]
  | _ => simp [orderings, malformed, Json.isArr]

theorem ordering_eq_ok_iff {j j' : Json} : r.ordering j = .ok j' ↔
    ∃ reference reference', j.item? 1 = some reference ∧ r.fieldRef reference = .ok reference' ∧
      j' = j.setItem 1 reference' := by
  rw [ordering]
  cases j.item? 1 with
  | none => simp [malformed]
  | some reference =>
    rw [Except.bind_eq_ok_iff]
    simp [Except.pure_eq_ok_iff, eq_comm (a := j')]

end Renaming

end Rehome
