import Rehome.Proofs.Json.Update
import Rehome.Proofs.Reference.Columns
import Rehome.Proofs.Reference.Frame
import Rehome.Proofs.Reference.Settled.Place

/-! # Results and the query

The columns of a result refer to the columns of a query in the same way as the query does. A reference by id
becomes what it becomes in the query, and the id beside it becomes that of the same column. A reference by
name is left alone with what is beside it, also where the query has another name for it. -/

namespace Rehome

/-- The id beside a column of a result is no source column. -/
def Mapping.IdAway (m : Mapping) (column : Json) : Prop :=
  ∀ v c, column.member? "id" = some v → Ident.ofJson? v = some c → ¬m.tables.isSourceColumn c

namespace Renaming

variable {r : Renaming}

/-- A column of a result has the reference that the query would have, and beside it no source column. -/
structure FollowsQuery (r : Renaming) (reference column' : Json) : Prop where
  reference : ∃ reference', column'.member? "field_ref" = some reference' ∧ r.fieldRef reference = .ok reference'
  id : r.mapping.IdAway column'

/-- A reference to a column by id is renamed as in a query, and the id is written beside it. -/
theorem metadataReference_of_id {column column' reference : Json} {c : ColumnId}
    (h : r.metadataReference column = .ok column') (hreference : column.member? "field_ref" = some reference)
    (hc : Clause.ofJson reference = .fieldRef (.id c)) : ∃ reference' c', r.fieldRef reference = .ok reference' ∧
      column'.member? "field_ref" = some reference' ∧ r.mapping.replaceColumn c = .ok c' ∧
      column'.member? "id" = some c'.toJson := by
  have hobj := Json.isObj_of_member? hreference
  simp only [metadataReference, hreference, hc] at h
  obtain ⟨c', hc', h⟩ := Except.bind_eq_ok_iff.1 h
  obtain rfl := Except.ok.inj h
  refine ⟨reference.setItem 1 c'.toJson, c', ?_, ?_, Except.mapError_eq_ok_iff.1 hc', ?_⟩
  · refine fieldRef_eq_ok_iff.2 (.inl (retargeted_iff.2 ⟨_, hc, ?_⟩))
    exact Except.bind_eq_ok_iff.2 ⟨c', hc', rfl⟩
  · rw [Json.member?_setMember_of_ne (by decide), Json.member?_setMember_self hobj]
  · exact Json.member?_setMember_self (Json.isObj_setMember.trans hobj)

/-- A reference by name is left alone, and so is what is beside it. -/
theorem metadataReference_of_name {column reference : Json} {n : String}
    (hreference : column.member? "field_ref" = some reference)
    (hn : Clause.ofJson reference = .fieldRef (.name n)) : r.metadataReference column = .ok column := by
  simp only [metadataReference, hreference, hn]

/-- In a query, a reference by name stays unless there is another name for it. -/
theorem fieldRef_eq_self_iff {reference : Json} {n : String} (hn : Clause.ofJson reference = .fieldRef (.name n)) :
    r.fieldRef reference = .ok reference ↔ ∀ n', r.mapping.replaceName? n = some n' → n' = n := by
  have hrenamed : r.fieldRef reference =
      .ok ((r.mapping.replaceName? n).elim reference fun n' => reference.setItem 1 (.str n')) := by
    simp only [fieldRef, fieldRef?, hn, retarget]
    cases r.mapping.replaceName? n <;> rfl
  obtain ⟨operator, operands, rfl, -, htarget⟩ := Clause.ofJson_eq_fieldRef_iff.1 hn
  obtain ⟨rest, rfl⟩ := ofItem_eq_name htarget.symm
  rw [hrenamed]
  cases r.mapping.replaceName? n with
  | none => simp
  | some n' => simp [Json.setItem]

theorem member?_metadataColumn {column column' : Json} (h : r.metadataColumn column = .ok column') :
    ∃ renamed, r.metadataReference column = .ok renamed ∧
      column'.member? "field_ref" = renamed.member? "field_ref" ∧ column'.member? "id" = renamed.member? "id" := by
  obtain ⟨renamed, hrenamed, h⟩ := Except.bind_eq_ok_iff.1 h
  exact ⟨renamed, hrenamed, Json.keeps_onMember (by decide) _ _ h, Json.keeps_onMember (by decide) _ _ h⟩

/-- The columns of the result of a card are renamed one by one. -/
theorem exists_of_cardNode {card card' : Json} {columns : List Json} (h : r.cardNode card = .ok card')
    (hcolumns : card.member? "result_metadata" = some (.arr columns)) : ∃ columns',
      List.Forall₂ (fun column column' => r.metadataColumn column = .ok column') columns columns' ∧
      card'.member? "result_metadata" = some (.arr columns') := by
  obtain ⟨card₁, h₁, h⟩ := Except.bind_eq_ok_iff.1 h
  obtain ⟨card₂, h₂, h⟩ := Except.bind_eq_ok_iff.1 h
  obtain ⟨card₃, h₃, h⟩ := Except.bind_eq_ok_iff.1 h
  have hkept : card₃.member? "result_metadata" = some (.arr columns) := by
    rw [Json.keeps_onMember (by decide) _ _ h₃, Json.keeps_onMember (by decide) _ _ h₂,
      Json.keeps_onMember (by decide) _ _ h₁, hcolumns]
  rw [Json.onMember_of_some hkept] at h
  obtain ⟨renamed, hrenamed, h⟩ := Except.bind_eq_ok_iff.1 h
  obtain ⟨columns', hcolumns', heq⟩ := Except.bind_eq_ok_iff.1 hrenamed
  obtain rfl := Except.ok.inj heq
  obtain rfl := Except.ok.inj h
  exact ⟨columns', Except.mapM_eq_ok_iff.1 hcolumns', Json.member?_setMember_self (Json.isObj_of_member? hkept)⟩

/-- How far the result of a card follows its query. A column that refers by id does. One that refers by name keeps
its reference and the id that is beside it, so it does unless the name is overridden by another one or the id is
that of a source column. -/
theorem resultColumns_follow (hm : r.mapping.Separates) {card card' : Json} {columns : List Json}
    (h : r.cardNode card = .ok card') (hcolumns : card.member? "result_metadata" = some (.arr columns)) :
    ∃ columns', card'.member? "result_metadata" = some (.arr columns') ∧ columns.length = columns'.length ∧
      ∀ (i : Nat) (column column' reference : Json), columns[i]? = some column → columns'[i]? = some column' →
        column.member? "field_ref" = some reference →
        (∀ c, Clause.ofJson reference = .fieldRef (.id c) → r.FollowsQuery reference column') ∧
        ∀ n, Clause.ofJson reference = .fieldRef (.name n) →
          column'.member? "field_ref" = some reference ∧ column'.member? "id" = column.member? "id" ∧
          (r.FollowsQuery reference column' ↔
            (∀ n', r.mapping.replaceName? n = some n' → n' = n) ∧ r.mapping.IdAway column) := by
  obtain ⟨columns', hrenamed, hmember⟩ := exists_of_cardNode h hcolumns
  obtain ⟨hlength, hitems⟩ := Json.forall₂_iff_getElem?.1 hrenamed
  refine ⟨columns', hmember, hlength, fun i column column' reference hi hi' hreference => ?_⟩
  obtain ⟨renamed, hmetadata, hfield, hid⟩ := member?_metadataColumn (hitems i _ _ hi hi')
  refine ⟨fun c hc => ?_, fun n hn => ?_⟩
  · obtain ⟨reference', c', hreference', hfield', hc', hid'⟩ := metadataReference_of_id hmetadata hreference hc
    refine ⟨⟨reference', hfield.trans hfield', hreference'⟩, fun v d hv hd => ?_⟩
    obtain rfl := Option.some.inj ((hid.trans hid').symm.trans hv)
    rw [Ident.ofJson?_toJson] at hd
    obtain rfl := Option.some.inj hd
    exact hm.not_isSourceColumn hc'
  · obtain rfl := Except.ok.inj ((metadataReference_of_name hreference hn).symm.trans hmetadata)
    have haway : r.mapping.IdAway column' ↔ r.mapping.IdAway column := by rw [Mapping.IdAway, Mapping.IdAway, hid]
    refine ⟨hfield.trans hreference, hid, ?_⟩
    rw [← fieldRef_eq_self_iff hn, ← haway]
    constructor
    · rintro ⟨⟨reference', hreference', hrenamed'⟩, hid'⟩
      obtain rfl := Option.some.inj ((hfield.trans hreference).symm.trans hreference')
      exact ⟨hrenamed', hid'⟩
    · rintro ⟨hself, hid'⟩
      exact ⟨⟨reference, hfield.trans hreference, hself⟩, hid'⟩

/-- A card with one column in its result. -/
def resultCard (column : Json) : Json := .obj [("result_metadata", .arr [column])]

/-- A column of a result that refers by id, with the id beside the reference. -/
def resultById (column : ColumnId) : Json :=
  .obj [("id", column.toJson), ("field_ref", Sample.fieldRef column)]

theorem resultColumns_follow_oneColumn : oneColumn.Separates ∧
    cardNode ⟨oneColumn, .card ⟨7⟩⟩ (resultCard (resultById ⟨100⟩)) = .ok (resultCard (resultById ⟨1100⟩)) ∧
    FollowsQuery ⟨oneColumn, .card ⟨7⟩⟩ (Sample.fieldRef ⟨100⟩) (resultById ⟨1100⟩) := by
  have hcard : cardNode ⟨oneColumn, .card ⟨7⟩⟩ (resultCard (resultById ⟨100⟩)) =
      .ok (resultCard (resultById ⟨1100⟩)) := by
    decide +kernel
  obtain ⟨columns', hcolumns', -, hfollow⟩ := resultColumns_follow separates_oneColumn hcard rfl
  obtain rfl := Json.arr.inj (Option.some.inj hcolumns')
  exact ⟨separates_oneColumn, hcard, (hfollow 0 _ _ _ rfl rfl rfl).1 ⟨100⟩ (by rfl)⟩

/-- The table with one column, and another name for a field. -/
def renamedTotal : Mapping := { oneColumn with overrides := Overrides.none.withName "TOTAL" "TOTAL_EUR" }

theorem separates_renamedTotal : renamedTotal.Separates where
  built := separates_oneColumn.built
  disjoint := separates_oneColumn.disjoint

/-- A reference to a field by its name. -/
def namedRef (name : String) : Json := .arr [.str "field", .str name, .null]

/-- A result that refers to a field by its old name keeps it, although a query gets the new one; and a column that
refers by name keeps the id of a source column. -/
theorem resultColumns_left_behind : renamedTotal.Separates ∧
    Clause.ofJson (namedRef "TOTAL") = .fieldRef (.name "TOTAL") ∧
    fieldRef ⟨renamedTotal, .card ⟨7⟩⟩ (namedRef "TOTAL") = .ok (namedRef "TOTAL_EUR") ∧
    cardNode ⟨renamedTotal, .card ⟨7⟩⟩ (resultCard (.obj [("field_ref", namedRef "TOTAL")])) =
      .ok (resultCard (.obj [("field_ref", namedRef "TOTAL")])) ∧
    namedRef "TOTAL" ≠ namedRef "TOTAL_EUR" ∧
    cardNode ⟨renamedTotal, .card ⟨7⟩⟩ (resultCard (.obj [("id", .int 100), ("field_ref", namedRef "GROUP")])) =
      .ok (resultCard (.obj [("id", .int 100), ("field_ref", namedRef "GROUP")])) ∧
    renamedTotal.tables.isSourceColumn ⟨100⟩ :=
  ⟨separates_renamedTotal, by rfl, by decide +kernel, by decide +kernel, by decide, by decide +kernel, by decide⟩

end Renaming

end Rehome
