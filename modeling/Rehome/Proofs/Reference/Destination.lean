import Rehome.Proofs.Json.Similar
import Rehome.Proofs.Reference.Columns
import Rehome.Proofs.Reference.Needs
import Rehome.Proofs.Reference.Settled.Place
import Rehome.Proofs.Reference.Sources

/-! # Cards in destination terms

At each place where a card may refer to something, a renamed card refers to something in the destination
(`card_inDestination`): the target database, destination tables, columns that others are mapped to or
overridden by, and cards and dashboards that others are moved to. The keys of column settings are texts
that hold references; what a new key is read as differs from the reference that it was made of in doubles
at most, and those do not tell which column is meant. -/

namespace Rehome

attribute [local instance] Set.monad

/-! ## Destination terms -/

namespace Mapping

variable (m : Mapping)

/-- A column that may take the place of another. -/
def IsTarget (c : ColumnId) : Prop := m.tables.isDestinationColumn c ∨ m.overrides.isReplacement c

/-- The id of a destination table. -/
def HoldsTable (j : Json) : Prop := ∃ t : TableId, m.tables.isDestinationTable t ∧ j = t.toJson

/-- The source of a query in the destination: a table, or a card that others are moved to and that is
available. -/
def ReadsDestination (available : Set CardId) (j : Json) : Prop :=
  m.HoldsTable j ∨ ∃ c ∈ m.moves.destinationCards, c ∈ available ∧ j = (Source.card c).toJson

/-- A click that leads to something in the destination, if it leads anywhere. -/
def LeadsToDestination (click : Json) : Prop :=
  ∀ target, click.member? "targetId" = some target → target ≠ .null →
    if click.text? "linkType" = some "dashboard" then ∃ p ∈ m.moves.dashboards, target = p.2.toJson
    else ∃ c ∈ m.moves.destinationCards, target = c.toJson

/-- A query whose parts and joins, at any depth, read from the destination and refer to its columns. -/
structure QueryInDestination (available : Set CardId) (q : Json) : Prop where
  source {k : PlaceKind} {p v : Json} : Walk.Reaches .queryPart q k p →
    p.member? "source-table" = some v → m.ReadsDestination available v
  refers {k : PlaceKind} {p x : Json} : Walk.Reaches .queryPart q k p → RefersAt k p x →
    PointsTo m.IsTarget x

/-- The column of a result, with the id of the column that it refers to beside the reference. -/
structure ResultInDestination (column : Json) : Prop where
  table {v : Json} : column.member? "table_id" = some v → v ≠ .null → m.HoldsTable v
  reference {f : Json} {c : ColumnId} : column.member? "field_ref" = some f →
    Clause.ofJson f = .fieldRef (.id c) → m.IsTarget c ∧ column.member? "id" = some c.toJson

structure SettingsInDestination (s : Json) : Prop where
  columns {items : List Json} {column f : Json} : s.member? "table.columns" = some (.arr items) →
    column ∈ items → column.member? "fieldRef" = some f → PointsTo m.IsTarget f
  keys {members : List (String × Json)} {e : String × Json} {j f : Json} :
    s.member? "column_settings" = some (.obj members) → e ∈ members → Json.parse? e.1 = some j →
    j.item? 0 = some (.str "ref") → j.item? 1 = some f → PointsTo m.IsTarget f
  columnClicks {members : List (String × Json)} {e : String × Json} {click : Json} :
    s.member? "column_settings" = some (.obj members) → e ∈ members →
    e.2.member? "click_behavior" = some click → m.LeadsToDestination click
  click {click : Json} : s.member? "click_behavior" = some click → m.LeadsToDestination click

/-- What a card holds beside its query, its settings and the mappings of parameters. -/
structure NodeInDestination (d : Json) : Prop where
  database {q : Json} : d.member? "dataset_query" = some q → q.isObj →
    q.member? "database" = some m.database.toJson
  databaseId {v : Json} : d.member? "database_id" = some v → v ≠ .null → v = m.database.toJson
  table {v : Json} : d.member? "table_id" = some v → v ≠ .null → m.HoldsTable v
  results {items : List Json} {column : Json} : d.member? "result_metadata" = some (.arr items) →
    column ∈ items → m.ResultInDestination column

structure CardInDestination (available : Set CardId) (d : Json) : Prop extends
    m.NodeInDestination d where
  query {q : Json} : d.query? = some q → m.QueryInDestination available q
  settings {s : Json} : d.member? "visualization_settings" = some s → m.SettingsInDestination s
  mappings {items : List Json} {mapping target f : Json} :
    d.member? "parameter_mappings" = some (.arr items) → mapping ∈ items →
    mapping.member? "target" = some target → target.item? 0 = some (.str "dimension") →
    target.item? 1 = some f → PointsTo m.IsTarget f

end Mapping

/-! ## References up to doubles -/

section Blur

open Json (blur)

theorem ofJson?_blur {kind : IdentKind} (j : Json) :
    (Ident.ofJson? (blur j) : Option (Ident kind)) = Ident.ofJson? j := by
  cases j <;> rfl

theorem FieldTarget.ofItem_blur (item : Option Json) : ofItem (item.map blur) = ofItem item := by
  cases item with
  | none => rfl
  | some j => cases j <;> rfl

/-- No clause depends on its doubles. -/
theorem Clause.ofJson_blur (j : Json) : ofJson (blur j) = ofJson j := by
  cases j with
  | arr items =>
    match items with
    | .str operator :: operands =>
      show ofOperator _ _ = ofOperator _ _
      have haggregation : ((operands.map blur).head?.bind Ident.ofJson? : Option (Ident .column)) =
          operands.head?.bind Ident.ofJson? := by
        cases operands with
        | nil => rfl
        | cons j rest => exact ofJson?_blur j
      rw [Json.blurItems_eq_map, ofOperator, ofOperator, haggregation, List.head?_map,
        FieldTarget.ofItem_blur, List.length_map]
    | [] | .null :: _ | .bool _ :: _ | .int _ :: _ | .double _ :: _ | .arr _ :: _ | .obj _ :: _ => rfl
  | _ => rfl

theorem item?_blur (i : Nat) (j : Json) : (blur j).item? i = (j.item? i).map blur := by
  cases j with
  | arr items =>
    show (Json.blurItems items)[i]? = _
    rw [Json.blurItems_eq_map, List.getElem?_map]
    rfl
  | _ => rfl

theorem PointsTo.of_blur_eq {P : ColumnId → Prop} {j j' : Json} (h : PointsTo P j)
    (hj : blur j' = blur j) : PointsTo P j' := by
  intro c hc
  rw [← Clause.ofJson_blur, hj, Clause.ofJson_blur] at hc
  exact h c hc

end Blur

namespace Renaming

variable {r : Renaming} (hb : r.mapping.tables.Built) {available : Set CardId} {trail : Trail}
  {j j' : Json}

include hb

/-! ## Ids -/

theorem column_isTarget {c c' : ColumnId} (h : r.column c = .ok c') : r.mapping.IsTarget c' :=
  r.mapping.replaceColumn_cases hb (Except.mapError_eq_ok_iff.1 h)

theorem table_isDestinationTable {t t' : TableId} (h : r.table t = .ok t') :
    r.mapping.tables.isDestinationTable t' :=
  Mapping.isDestinationTable_of_resolveTable hb (Except.mapError_eq_ok_iff.1 h)

theorem tableValue_holdsTable (h : r.tableValue j = .ok j') : r.mapping.HoldsTable j' := by
  obtain ⟨t, -, h⟩ := Except.bind_eq_ok_iff.1 h
  obtain ⟨t', ht, h⟩ := Except.bind_eq_ok_iff.1 h
  exact ⟨t', table_isDestinationTable hb ht, (Except.ok.inj h).symm⟩

omit hb in
theorem cardValue_moved (h : r.cardValue j = .ok j') :
    ∃ c ∈ r.mapping.moves.destinationCards, j' = c.toJson := by
  obtain ⟨c, -, h⟩ := Except.bind_eq_ok_iff.1 h
  obtain ⟨c', hc, h⟩ := Except.bind_eq_ok_iff.1 h
  exact ⟨c', Moves.mem_destinationCards_of_card? (card_eq_ok_iff.1 hc), (Except.ok.inj h).symm⟩

omit hb in
theorem dashboardValue_moved (h : r.dashboardValue j = .ok j') :
    ∃ p ∈ r.mapping.moves.dashboards, j' = p.2.toJson := by
  obtain ⟨d, -, h⟩ := Except.bind_eq_ok_iff.1 h
  obtain ⟨d', hd, h⟩ := Except.bind_eq_ok_iff.1 h
  rw [dashboard] at hd
  split at hd
  · next d'' hmoved =>
    obtain rfl := Except.ok.inj hd
    obtain ⟨p, hp, rfl⟩ := Moves.exists_of_find? hmoved
    exact ⟨p, hp, (Except.ok.inj h).symm⟩
  · cases hd

omit hb in
/-- A null member stays null, and every other one is renamed. -/
theorem exists_of_onMember_unlessNull {key : String} {f : Json → Except MigrationError Json} {v' : Json}
    (h : j.onMember key (Json.unlessNull f) = .ok j') (hv' : j'.member? key = some v')
    (hnull : v' ≠ .null) : ∃ v, f v = .ok v' := by
  obtain ⟨v, -, hv⟩ := Json.mem_of_mem_onMember (Json.mem_onMember_of_eq_ok h) hv'
  cases v with
  | null => exact absurd (Except.ok.inj hv).symm hnull
  | _ => exact ⟨_, hv⟩

/-! ## Queries -/

theorem source_readsDestination {v v' : Json} (hv : v' ∈ (r.source v).results available) :
    r.mapping.ReadsDestination available v' := by
  rw [source] at hv
  split at hv
  · obtain ⟨t, ht, hv⟩ := Plan.mem_results_bind.1 hv
    obtain rfl : v' = t.toJson := by simpa using hv
    exact .inl ⟨t, table_isDestinationTable hb (Plan.mem_results_ofExcept.1 ht), rfl⟩
  · obtain ⟨c, hc, hv⟩ := Plan.mem_results_bind.1 hv
    obtain ⟨_, hneed, hv⟩ := Plan.mem_results_bind.1 hv
    obtain rfl : v' = (Source.card c).toJson := by simpa using hv
    exact .inr ⟨c, Moves.mem_destinationCards_of_card? (card_eq_ok_iff.1 (Plan.mem_results_ofExcept.1 hc)),
      Plan.mem_results_need.1 hneed, rfl⟩
  · exact absurd (Plan.mem_results_ofExcept.1 hv) (by simp [malformed])

omit hb in
theorem leaves_place {k : PlaceKind} {p : Json} (hk : k = .queryPart ∨ k = .join)
    (hp : Walk.Leaves (r.outcomes available) k p) :
    Walk.Leaves (fun trail j => (r.place trail j).results Set.univ) k p := by
  obtain ⟨trail, j, hkind, hp⟩ := hp
  have hlayout : Label.layoutAt trail = .none := by
    rcases hk with rfl | rfl <;> simp [Label.layoutAt, hkind, Label.layout]
  exact ⟨trail, j, hkind, (mem_results_place hlayout hp).1, fun _ _ => trivial⟩

theorem query_inDestination {q q' : Json} (hq : q' ∈ q.onObj (Walk.query (r.outcomes available) trail)) :
    r.mapping.QueryInDestination available q' := by
  have hleaves {k : PlaceKind} {p : Json} (hp : Walk.Reaches .queryPart q' k p) (hobj : p.isObj) :
      Walk.Leaves (r.outcomes available) k p :=
    Walk.query_leaves keepsInner_outcomes trail q (hp.isObj hobj)
      (Json.mem_of_mem_onObj hq (hp.isObj hobj)) hp
  constructor
  · intro k p v hp hv
    obtain ⟨old, hold⟩ := exists_source_of_leaves (hp.kind_cases (.inl rfl))
      (hleaves hp (Json.isObj_of_member? hv)) hv
    exact source_readsDestination hb hold
  · intro k p x hp hx
    exact refersAt_pointsTo (column_isTarget hb)
      (leaves_place (hp.kind_cases (.inl rfl)) (hleaves hp hx.isObj)) hx

/-! ## Columns of results -/

theorem metadataColumn_inDestination {column column' : Json} (h : r.metadataColumn column = .ok column') :
    r.mapping.ResultInDestination column' := by
  obtain ⟨a, ha, h⟩ := Except.bind_eq_ok_iff.1 h
  constructor
  · intro v hv hnull
    obtain ⟨old, hold⟩ := exists_of_onMember_unlessNull h hv hnull
    exact tableValue_holdsTable hb hold
  · intro f c hf hc
    rw [Json.keeps_onMember (by decide) a column' h] at hf ⊢
    obtain ⟨c', hc', -, hid⟩ := metadataReference_renamed ha hf hc
    exact ⟨column_isTarget hb hc', hid⟩

/-! ## Settings -/

/-- What a new key is read as refers to a column as the key does. -/
theorem refKey_pointsTo {key key' : String} (h : r.refKey key = .ok key') {f : Json}
    (hj : Json.parse? key' = some j) (hmark : j.item? 0 = some (.str "ref")) (hf : j.item? 1 = some f) :
    PointsTo r.mapping.IsTarget f := by
  obtain ⟨old, new, hold, hnew, rfl⟩ | ⟨hnone, rfl⟩ := refKey_eq_ok_iff.1 h
  · have hblur := Json.blur_of_parse?_compact (legible_refValue? (Json.legible_of_parse? hold) hnew) hj
    obtain ⟨-, field, field', hfield, hretargeted, rfl⟩ := refValue?_eq_some_iff.1 hnew
    have hsame : some (Json.blur f) = some (Json.blur field') := by
      have hitem := congrArg (Json.item? 1) hblur
      rwa [item?_blur, item?_blur, hf, Json.item?_setItem hfield] at hitem
    exact (hretargeted.pointsTo (column_isTarget hb)).of_blur_eq (Option.some.inj hsame)
  · -- a key that keeps its text holds no field reference
    have hnone := hnone j hj
    rw [refValue?, hmark, hf] at hnone
    obtain ⟨o, ho, hmap⟩ := Except.bind_eq_ok_iff.1 hnone
    obtain rfl : o = none := by simpa using Except.ok.inj hmap
    exact pointsTo_of_not_isFieldRef (fieldRef?_eq_none_iff.1 ho)

omit hb in
theorem clickBehavior_leads {click click' : Json} (h : r.clickBehavior click = .ok click') :
    r.mapping.LeadsToDestination click' := by
  intro target htarget hnull
  obtain ⟨a, ha, h⟩ := Except.bind_eq_ok_iff.1 h
  have hlink : click'.text? "linkType" = click.text? "linkType" := by
    rw [Json.text?, Json.text?, Json.keeps_onMember (by decide) a click' h,
      Json.keeps_onMember (by decide) click a ha]
  rw [Json.keeps_onMember (by decide) a click' h] at htarget
  obtain ⟨old, hold⟩ := exists_of_onMember_unlessNull ha htarget hnull
  rw [clickTarget] at hold
  rw [hlink]
  split at hold
  · next hdashboard =>
    rw [if_pos (eq_of_beq hdashboard)]
    exact dashboardValue_moved hold
  · next hnot =>
    rw [if_neg fun hdashboard => hnot (beq_iff_eq.2 hdashboard)]
    exact cardValue_moved hold

omit hb in
/-- A visit of the behaviour of a click leaves one that leads to the destination. -/
theorem visitedClick_leads {click click' : Json} (htrail : trail.kind? = some .clickBehavior)
    (h : click' ∈ click.onObj (r.outcomes available trail)) : r.mapping.LeadsToDestination click' := by
  intro target htarget
  have hvisit := Json.mem_of_mem_onObj h (Json.isObj_of_member? htarget)
  have hplace := mem_results_place (by simp [Label.layoutAt, htrail, Label.layout]) hvisit
  rw [place, htrail] at hplace
  exact clickBehavior_leads (Plan.mem_results_ofExcept.1 hplace) target htarget

omit hb in
theorem member?_visitedSettings {c s' : Json} {key : String}
    (h : s' ∈ r.outcomes available (trail.push .visualizationSettings none) c)
    (hkey : key ∉ nameSettings) (hlabel : Label.isTextSetting key = false) :
    s'.member? key = c.member? key := by
  obtain ⟨a, ha, h⟩ := Json.mem_bind.1 h
  rw [Label.member?_of_mem_mapSlots rfl hlabel h]
  exact keeps_visualizationSettings hkey c a ha.1

omit hb in
/-- An entry of the settings of columns that a visit leaves behind has a renamed key and, but for its
title, the value that it had. -/
theorem exists_of_visitedColumns {u : Json} {members' : List (String × Json)} {e' : String × Json}
    (h : .obj members' ∈ r.outcomes available (trail.push .columnSettings none) u) (he' : e' ∈ members') :
    ∃ members e, u = .obj members ∧ e ∈ members ∧ r.refKey e.1 = .ok e'.1 ∧
      e'.2.member? "click_behavior" = e.2.member? "click_behavior" := by
  obtain ⟨a, ha, h⟩ := Json.mem_bind.1 h
  have hlabels : .obj members' ∈ a.onMembers fun _ value =>
      value.onMember "column_title" (Json.onStr fun _ => (Set.univ : Set String)) := h
  obtain ⟨renamed, e₁, rfl, he₁, hkey, hvalue⟩ := Json.exists_of_mem_onMembers hlabels he'
  obtain ⟨members, e, rfl, he, hrefKey, hsame⟩ :=
    exists_of_columnSettings (Plan.mem_results_ofExcept.1 ha) he₁
  refine ⟨members, e, rfl, he, hkey ▸ hrefKey, ?_⟩
  rw [Json.member?_of_mem_onMember (by decide) hvalue, hsame]

theorem settings_inDestination {s s' : Json}
    (h : s' ∈ s.onObj (Walk.settings (r.outcomes available) trail)) :
    r.mapping.SettingsInDestination s' := by
  have hwalk {key : String} {v' : Json} (hv' : s'.member? key = some v') (hkey : key ∉ nameSettings)
      (hlabel : Label.isTextSetting key = false) : ∃ c,
      Walk.SettingsWalked (r.outcomes available) (trail.push .visualizationSettings none) s c ∧
      c.member? key = some v' := by
    obtain ⟨c, hwalked, hs⟩ := Walk.mem_settings (Json.mem_of_mem_onObj h (Json.isObj_of_member? hv'))
    exact ⟨c, hwalked, (member?_visitedSettings hs hkey hlabel).symm.trans hv'⟩
  have hcolumn {members' : List (String × Json)} {e' : String × Json}
      (hmembers' : s'.member? "column_settings" = some (.obj members')) (he' : e' ∈ members') :
      (∃ key, r.refKey key = .ok e'.1) ∧ ∀ click, e'.2.member? "click_behavior" = some click →
        r.mapping.LeadsToDestination click := by
    obtain ⟨c, hwalked, hc⟩ := hwalk hmembers' (by decide) (by decide)
    obtain ⟨v, u, -, hu, hvisit⟩ := hwalked.columnSettings hc
    obtain ⟨members, e, rfl, he, hkey, hsame⟩ :=
      exists_of_visitedColumns (Json.mem_of_mem_onObj hvisit rfl) he'
    refine ⟨⟨e.1, hkey⟩, fun click hclick => ?_⟩
    obtain ⟨-, old, -, -, -, hentry⟩ := Json.exists_of_mem_onMembers hu he
    obtain ⟨before, -, hbefore⟩ := Json.mem_of_mem_onMember hentry (hsame ▸ hclick)
    exact visitedClick_leads rfl hbefore
  constructor
  · intro items column f hitems hitem hf
    obtain ⟨c, hwalked, hc⟩ := hwalk hitems (by decide) (by decide)
    obtain ⟨v, -, hv⟩ := hwalked.tableColumns hc
    have hplace := mem_results_place rfl (Json.mem_of_mem_onArr hv rfl)
    obtain ⟨-, old, -, -, hold⟩ := Json.exists_of_onItems (Plan.mem_results_ofExcept.1 hplace) hitem
    obtain ⟨a, ha, hold⟩ := Except.bind_eq_ok_iff.1 hold
    rw [Json.keeps_onMember (by decide) a column hold] at hf
    obtain ⟨old, -, hfield⟩ := Json.mem_of_mem_onMember (Json.mem_onMember_of_eq_ok ha) hf
    exact fieldRef_pointsTo (column_isTarget hb) hfield
  · intro members e j f hmembers he hj hmark hf
    obtain ⟨⟨key, hkey⟩, -⟩ := hcolumn hmembers he
    exact refKey_pointsTo hb hkey hj hmark hf
  · intro members e click hmembers he
    exact (hcolumn hmembers he).2 click
  · intro click hclick
    obtain ⟨c, hwalked, hc⟩ := hwalk hclick (by decide) (by decide)
    obtain ⟨v, hv⟩ := hwalked.click hc
    exact visitedClick_leads rfl hv

/-! ## Cards -/

theorem parameterMapping_pointsTo {mapping mapping' target f : Json}
    (h : r.parameterMapping mapping = .ok mapping') (htarget : mapping'.member? "target" = some target)
    (hmark : target.item? 0 = some (.str "dimension")) (hf : target.item? 1 = some f) :
    PointsTo r.mapping.IsTarget f := by
  obtain ⟨a, -, h⟩ := Except.bind_eq_ok_iff.1 h
  obtain ⟨old, -, hold⟩ := Json.mem_of_mem_onMember (Json.mem_onMember_of_eq_ok h) htarget
  have hold : r.dimensionTarget old = .ok target := hold
  rw [dimensionTarget] at hold
  split at hold
  · obtain ⟨field, field', hfield, hrenamed, rfl⟩ | ⟨hnone, rfl⟩ := Json.onItem_eq_ok_iff.1 hold
    · rw [Json.item?_setItem hfield] at hf
      exact Option.some.inj hf ▸ fieldRef_pointsTo (column_isTarget hb) hrenamed
    · rw [hnone] at hf
      cases hf
  · next hnot =>
    obtain rfl := Except.ok.inj hold
    exact absurd hmark hnot

theorem cardNode_inDestination {card card' : Json} (h : r.cardNode card = .ok card') :
    r.mapping.NodeInDestination card' := by
  obtain ⟨a, ha, h⟩ := Except.bind_eq_ok_iff.1 h
  obtain ⟨b, hb', h⟩ := Except.bind_eq_ok_iff.1 h
  obtain ⟨c, hc, h⟩ := Except.bind_eq_ok_iff.1 h
  constructor
  · intro q hq hobj
    rw [Json.keeps_onMember (by decide) c card' h, Json.keeps_onMember (by decide) b c hc] at hq
    obtain ⟨old, -, hold⟩ := Json.mem_of_mem_onMember (Json.mem_onMember_of_eq_ok hb') hq
    obtain rfl := Except.ok.inj hold
    exact Json.member?_setMember_self (Json.isObj_setMember.symm.trans hobj)
  · intro v hv hnull
    rw [Json.keeps_onMember (by decide) c card' h, Json.keeps_onMember (by decide) b c hc,
      Json.keeps_onMember (by decide) a b hb'] at hv
    obtain ⟨old, hold⟩ := exists_of_onMember_unlessNull ha hv hnull
    exact (Except.ok.inj hold).symm
  · intro v hv hnull
    rw [Json.keeps_onMember (by decide) c card' h] at hv
    obtain ⟨old, hold⟩ := exists_of_onMember_unlessNull hc hv hnull
    exact tableValue_holdsTable hb hold
  · intro items column hitems hcolumn
    obtain ⟨old, -, hold⟩ := Json.mem_of_mem_onMember (Json.mem_onMember_of_eq_ok h) hitems
    obtain ⟨-, before, -, -, hbefore⟩ := Json.exists_of_onItems hold hcolumn
    exact metadataColumn_inDestination hb hbefore

/-- Wherever a renamed card may refer to something, it refers to something in the destination. -/
theorem card_inDestination (hj : j' ∈ Walk.card (r.outcomes available) [] j) :
    r.mapping.CardInDestination available j' := by
  obtain ⟨title, d, hwalked, hd⟩ := Walk.mem_card hj
  obtain ⟨a, ha, hlabels⟩ := Json.mem_bind.1 hd
  rw [place_card rfl, if_neg (by simp [Trail.hasKind, Trail.push])] at ha
  have hnode : r.cardNode d = .ok a := Plan.mem_results_ofExcept.1 ha
  have hmember {key : String} (hkey : (key == "name" || key == "description") = false) :
      j'.member? key = a.member? key := Label.member?_of_mem_mapSlots rfl hkey hlabels
  have hinside := cardNode_inDestination hb hnode
  refine ⟨⟨?_, ?_, ?_, ?_⟩, ?_, ?_, ?_⟩
  · rw [hmember rfl]
    exact hinside.database
  · rw [hmember rfl]
    exact hinside.databaseId
  · rw [hmember rfl]
    exact hinside.table
  · rw [hmember rfl]
    exact hinside.results
  · intro q hq
    rw [query?_congr (hmember rfl), query?_cardNode hnode] at hq
    obtain ⟨old, hold⟩ := hwalked.query hq
    exact query_inDestination hb hold
  · intro s hs
    rw [hmember rfl, keeps_cardNode (by decide) d a hnode] at hs
    obtain ⟨old, -, hold⟩ := hwalked.settings hs
    exact settings_inDestination hb hold
  · intro items mapping target f hitems hmapping htarget
    rw [hmember rfl, keeps_cardNode (by decide) d a hnode] at hitems
    obtain ⟨old, hold⟩ := hwalked.mappings hitems
    obtain ⟨-, before, -, -, hvisit⟩ := Json.mem_of_mem_onItems hold hmapping
    have hplace := mem_results_place rfl (Json.mem_of_mem_onObj hvisit (Json.isObj_of_member? htarget))
    exact parameterMapping_pointsTo hb (Plan.mem_results_ofExcept.1 hplace) htarget

end Renaming

end Rehome
