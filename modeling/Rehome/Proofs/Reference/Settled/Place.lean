import Rehome.Proofs.Place.Settled
import Rehome.Proofs.Reference.Settled.Settings

/-! # Renaming the references of places settles

Cards, dashcards and parameters, and with them every kind of place: the visits that rename references are
visits that settle (`settling_place`). -/

namespace Rehome.Renaming

variable {r : Renaming} {answer : CardId → Except MigrationError Unit} (hr : r.mapping.Settled)

include hr

/-! ## Columns of results -/

omit hr in
/-- A column of a result that has its own id where it refers to one by id. -/
theorem metadataReference_eq_ok_self {column : Json}
    (h : ∀ reference c, column.member? "field_ref" = some reference →
      Clause.ofJson reference = .fieldRef (.id c) → r.column c = .ok c ∧
        reference.item? 1 = some c.toJson ∧ column.member? "id" = some c.toJson) :
    r.metadataReference column = .ok column := by
  rw [metadataReference]
  split
  · rfl
  · next reference hreference =>
    split
    · next c hc =>
      obtain ⟨hcolumn, hitem, hid⟩ := h reference c hreference hc
      rw [hcolumn]
      show Except.ok _ = _
      rw [Json.setItem_eq_self hitem, Json.setMember_eq_self hreference, Json.setMember_eq_self hid]
    · rfl

omit hr in
/-- The column that a renamed reference refers to is written beside it. -/
theorem metadataReference_renamed {column column' : Json} (h : r.metadataReference column = .ok column')
    {reference' : Json} {c' : ColumnId} (hreference' : column'.member? "field_ref" = some reference')
    (hc' : Clause.ofJson reference' = .fieldRef (.id c')) : ∃ c, r.column c = .ok c' ∧
      reference'.item? 1 = some c'.toJson ∧ column'.member? "id" = some c'.toJson := by
  rw [metadataReference] at h
  split at h
  · next hnone =>
    obtain rfl := Except.ok.inj h
    rw [hnone] at hreference'
    cases hreference'
  · next reference hreference =>
    split at h
    · next c hc =>
      obtain ⟨d, hd, h⟩ := Except.bind_eq_ok_iff.1 h
      obtain rfl := Except.ok.inj h
      have hobj := Json.isObj_of_member? hreference
      rw [Json.member?_setMember_of_ne (by decide), Json.member?_setMember_self hobj,
        Option.some.injEq] at hreference'
      obtain ⟨operator, operands, rfl, hfield, htarget⟩ := Clause.ofJson_eq_fieldRef_iff.1 hc
      obtain ⟨item, rest, rfl, -⟩ := ofItem_eq_id htarget.symm
      have hclause : Clause.ofJson reference' = .fieldRef (.id d) := by
        rw [← hreference']
        refine Clause.ofJson_eq_fieldRef_iff.2 ⟨operator, d.toJson :: rest, rfl, hfield, ?_⟩
        rw [List.head?_cons, ofItem_toJson]
      obtain rfl : d = c' := by simpa [hclause] using hc'
      refine ⟨c, hd, ?_, Json.member?_setMember_self ?_⟩
      · rw [← hreference']
        rfl
      · exact Json.isObj_setMember.trans hobj
    · next hnot =>
      obtain rfl := Except.ok.inj h
      rw [hreference] at hreference'
      obtain rfl := Option.some.inj hreference'
      exact (hnot c' hc').elim

/-- The column that a renamed reference refers to stays, and so does what is written beside it. -/
theorem metadataReference_named {column column' : Json} (h : r.metadataReference column = .ok column')
    {reference' : Json} {c' : ColumnId} (hreference' : column'.member? "field_ref" = some reference')
    (hc' : Clause.ofJson reference' = .fieldRef (.id c')) : r.column c' = .ok c' ∧
      reference'.item? 1 = some c'.toJson ∧ column'.member? "id" = some c'.toJson := by
  obtain ⟨c, hc, hitem, hid⟩ := metadataReference_renamed h hreference' hc'
  exact ⟨settles_column hr c c' hc, hitem, hid⟩

theorem settles_metadataColumn : Settles r.metadataColumn := by
  intro column column'' h
  obtain ⟨column', hcolumn', h⟩ := Except.bind_eq_ok_iff.1 h
  have hkeeps {key : String} (hkey : key ≠ "table_id") : column''.member? key = column'.member? key :=
    Json.keeps_onMember hkey column' column'' h
  refine Except.bind_eq_ok_iff.2 ⟨column'', metadataReference_eq_ok_self fun reference c href hc => ?_, ?_⟩
  · rw [hkeeps (by decide)] at href ⊢
    exact metadataReference_named hr hcolumn' href hc
  · exact Json.settles_onMember _ (Json.settles_unlessNull (settles_tableValue hr)) column' column'' h

/-! ## Cards -/

omit hr in
theorem settles_databaseValue :
    Settles (Json.unlessNull fun _ => pure r.databaseValue : Json → Except MigrationError Json) :=
  Json.settles_unlessNull fun _ _ h => h

omit hr in
theorem settles_setDatabase :
    Settles fun query : Json => (pure (query.setMember "database" r.databaseValue) : Except MigrationError _) := by
  intro query query' h
  obtain rfl := Except.ok.inj h
  cases query with
  | obj members => exact congrArg Except.ok (Json.setMember_eq_self (Json.member?_setMember_self rfl))
  | _ => rfl

theorem settles_cardNode : Settles r.cardNode := by
  have hmetadata : Settles (Json.onMember "result_metadata" (Json.onItems r.metadataColumn)) :=
    Json.settles_onMember _ (Json.settles_onItems (settles_metadataColumn hr))
  refine Json.settles_onMember_bind settles_databaseValue ?_ ?_
  · refine Json.settles_onMember_bind settles_setDatabase ?_ ?_
    · exact Json.settles_onMember_bind (Json.settles_unlessNull (settles_tableValue hr)) hmetadata
        (Json.keeps_onMember (by decide))
    · exact Json.keeps_onMember_bind (by decide) (Json.keeps_onMember (by decide))
  · refine Json.keeps_onMember_bind (by decide) ?_
    exact Json.keeps_onMember_bind (by decide) (Json.keeps_onMember (by decide))

/-! ## Dashcards -/

theorem settles_cardSummary : Settles r.cardSummary :=
  Json.settles_onMember_bind (Json.settles_unlessNull (settles_tableValue hr))
    (Json.settles_onMember _ settles_databaseValue) (Json.keeps_onMember (by decide))

theorem settles_dashcardNode : Settles fun j => (r.dashcardNode j).given answer := by
  rw [funext dashcardNode_given]
  exact Json.settles_onMember_bind (Json.settles_unlessNull (settles_givenCardValue hr answer))
    (Json.settles_onMember _ (settles_cardSummary hr)) (Json.keeps_onMember (by decide))

/-! ## Parameters -/

theorem settles_dimensionTarget : Settles r.dimensionTarget := by
  intro target target' h
  rw [dimensionTarget] at h
  split at h
  · next hdimension =>
    have hsame : target'.item? 0 = some (.str "dimension") := by
      rw [← hdimension]
      obtain ⟨v, v', -, -, rfl⟩ | ⟨-, rfl⟩ := Json.onItem_eq_ok_iff.1 h
      · exact Json.item?_setItem_of_ne (by decide) v'
      · rfl
    rw [dimensionTarget, if_pos hsame]
    exact Json.settles_onItem 1 (settles_fieldRef hr) target target' h
  · next hnot =>
    obtain rfl := Except.ok.inj h
    rw [dimensionTarget, if_neg hnot]

theorem settles_parameterMapping : Settles r.parameterMapping :=
  Json.settles_onMember_bind (Json.settles_unlessNull (settles_cardValue hr))
    (Json.settles_onMember _ (settles_dimensionTarget hr)) (Json.keeps_onMember (by decide))

omit hr in
theorem valuesSource_given (config : Json) : (r.valuesSource config).given answer =
    (config.onMember "card_id" (Json.unlessNull (r.givenCardValue answer)) >>=
      Json.onMember "value_field" r.fieldRef) := by
  refine Plan.compatible_given.bind ?_ fun config => ?_
  · refine Plan.compatible_given.onMember _ (fun j => ?_) config
    exact Plan.compatible_given.unlessNull neededCardValue_given j
  · exact Plan.compatible_given.onMember _ (fun _ => rfl) config

theorem settles_parameter : Settles fun j => (r.parameter j).given answer := by
  have hconfig : (fun j => (r.parameter j).given answer) =
      Json.onMember "values_source_config" fun config =>
        config.onMember "card_id" (Json.unlessNull (r.givenCardValue answer)) >>=
          Json.onMember "value_field" r.fieldRef :=
    funext (Plan.compatible_given.onMember _ valuesSource_given)
  rw [hconfig]
  refine Json.settles_onMember _ ?_
  exact Json.settles_onMember_bind (Json.settles_unlessNull (settles_givenCardValue hr answer))
    (Json.settles_onMember _ (settles_fieldRef hr)) (Json.keeps_onMember (by decide))

/-! ## Places -/

theorem place_self {k : PlaceKind} {t t' : Trail} {j j' : Json} (hk : t.kind? = some k)
    (hk' : t'.kind? = some k) (ht : k = .card → t.hasKind .dashboard = t'.hasKind .dashboard)
    (hkeys : KeysAre (KeyReadsBack r) k j) (h : (r.place t j).given answer = .ok j') :
    (r.place t' j').given answer = .ok j' := by
  rw [place, hk] at h
  rw [place, hk']
  cases k with
  | card =>
    rw [← ht rfl]
    split_ifs at h ⊢
    · exact settles_dashcardNode hr j j' h
    · exact settles_cardNode hr j j' h
  | queryPart => exact settles_queryPart hr j j' h
  | join => exact settles_join hr j j' h
  | visualizationSettings => exact settles_visualizationSettings hr j j' h
  | tableColumns =>
    cases j with
    | arr items => exact tableColumns_self hr hkeys h
    | _ =>
      obtain rfl := Except.ok.inj h
      rfl
  | columnSettings =>
    cases j with
    | obj members => exact columnSettings_self hr hkeys h
    | _ =>
      obtain rfl := Except.ok.inj h
      rfl
  | clickBehavior => exact settles_clickBehavior hr j j' h
  | parameterMapping => exact settles_parameterMapping hr j j' h
  | parameter => exact settles_parameter hr j j' h
  | _ => rfl

omit hr in
theorem keeps_visualizationSettings {key : String} (hkey : key ∉ nameSettings) :
    Keeps key fun j => (.ok (r.visualizationSettings j) : Except MigrationError Json) := by
  rw [funext visualizationSettings_eq]
  refine Json.keeps_onMembers fun v v' h => ?_
  rw [if_neg (by simpa using hkey)] at h
  exact (Except.ok.inj h).symm

/-- Visits that rename references settle, wherever the texts of renamed keys are read as what they were
made of. -/
theorem settling_place : Settling (fun t j => (r.place t j).given answer) (KeyReadsBack r) where
  settles ht hkeys h := place_self hr rfl rfl (fun _ => Trail.hasKind_push_congr ht _ _) hkeys h
  settlesQuery := by
    rintro k t t' j j' (rfl | rfl) ht ht' h
    · exact place_self hr ht ht' (fun hk => by cases hk) trivial h
    · exact place_self hr ht ht' (fun hk => by cases hk) trivial h
  keepsQuery := by
    have hkeeps : Walk.KeepsInner fun t j => (r.place t j).results Set.univ := keepsInner_place
    exact ⟨fun h hj => hkeeps.nested h (Plan.mem_results_of_given hj),
      fun h hj => hkeeps.joins h (Plan.mem_results_of_given hj)⟩
  keepsSettings := by
    intro t j j' key h hkey
    refine keeps_visualizationSettings ?_ j j' h
    revert hkey
    simp only [List.mem_cons, List.not_mem_nil, or_false]
    rintro (rfl | rfl | rfl | rfl) <;> decide
  keepsColumns h he' := by
    obtain ⟨members, e, hj, he, -, hvalue⟩ := exists_of_columnSettings h he'
    exact ⟨members, e, hj, he, hvalue⟩
  keepsCard h := place_card_keeps rfl h
  keepsDashboard h := (Except.ok.inj h).symm

/-! ## Documents -/

omit hr in
/-- Renames a document: the cards that are needed for it, and what becomes of it. -/
def document (r : Renaming) (d : Json) : Plan Json := Walk.document r.owner.kind r.place [] d

omit hr in
/-- Only these cards can be had. -/
def onlyCards (r : Renaming) (cards : List CardId) (c : CardId) : Except MigrationError Unit :=
  if c ∈ cards then .ok () else .error (.unknownCard r.owner c)

omit hr in
theorem onlyCards_eq_ok_iff {cards : List CardId} {c : CardId} :
    r.onlyCards cards c = .ok () ↔ c ∈ cards := by
  by_cases h : c ∈ cards <;> simp [onlyCards, h]

/-- A renamed document is renamed to itself, and needs no card but those that were needed before. -/
theorem document_self {d d' : Json}
    (hkeys : ∀ key, ColumnKey r.owner.kind d key → KeyReadsBack r key)
    (h : (r.document d).outcome = .ok d') :
    (r.document d').outcome = .ok d' ∧ ∀ c ∈ (r.document d').needs, c ∈ (r.document d).needs := by
  have hgiven (d : Json) (answer : CardId → Except MigrationError Unit) : (r.document d).given answer =
      Walk.document r.owner.kind (fun t j => (r.place t j).given answer) [] d :=
    Plan.compatible_given.document (fun _ _ => rfl) r.owner.kind [] d
  have hd : (r.document d).given (r.onlyCards (r.document d).needs) = .ok d' :=
    Except.bind_eq_ok_iff.2 ⟨(), Except.forM_eq_ok_iff.2 fun c hc => onlyCards_eq_ok_iff.2 hc, h⟩
  rw [hgiven] at hd
  have hd' := (settling_place hr).document hkeys hd
  rw [← hgiven] at hd'
  obtain ⟨_, hneeds, houtcome⟩ := Except.bind_eq_ok_iff.1 hd'
  exact ⟨houtcome, fun c hc => onlyCards_eq_ok_iff.1 (Except.forM_eq_ok_iff.1 hneeds c hc)⟩

end Rehome.Renaming
