import Rehome.Proofs.Mapping.Built
import Rehome.Proofs.Reference.Clauses
import Rehome.Proofs.Reference.Results
import Rehome.Sample

/-! # Columns of a renamed query

A query part has its references in lists within lists, in trees of clauses, or at fixed positions
(`RefersAt`). After a renaming none of them points at a column that is mapped, provided that no such
column is also the target of a mapping or an override. Values that are nested in maps, in lists of
constants and below the fixed positions are left alone, so a reference there is not renamed. -/

namespace Rehome

attribute [local instance] Set.monad

/-! ## Positions -/

/-- `ThroughLists j x` holds when `x` is `j` or is nested in it by lists, none of them a field reference. -/
inductive ThroughLists : Json → Json → Prop
  /-- Every value is in itself. -/
  | refl (j : Json) : ThroughLists j j
  /-- Lists hold their items. -/
  | item {items : List Json} {i x : Json} : ¬(Clause.ofJson (.arr items)).isFieldRef → i ∈ items →
    ThroughLists i x → ThroughLists (.arr items) x

/-- `ThroughClauses j x` holds when `x` is `j` or is nested in it by clauses, none of them a field
reference. -/
inductive ThroughClauses : Json → Json → Prop
  /-- Every value is in itself. -/
  | refl (j : Json) : ThroughClauses j j
  /-- Clauses hold their operands. -/
  | operand {operator : String} {operands : List Json} {i x : Json} :
    ¬(Clause.ofJson (.arr (.str operator :: operands))).isFieldRef → i ∈ operands →
    ThroughClauses i x → ThroughClauses (.arr (.str operator :: operands)) x

/-- `RefersAt k p x` holds when `x` is at a position of `p`, a place of kind `k`, where a reference is
renamed. -/
inductive RefersAt : PlaceKind → Json → Json → Prop
  | filter {p v x : Json} : p.member? "filter" = some v → ThroughClauses v x → RefersAt .queryPart p x
  | aggregation {p v x : Json} : p.member? "aggregation" = some v → ThroughLists v x →
    RefersAt .queryPart p x
  | fields {p v x : Json} : p.member? "fields" = some v → ThroughLists v x → RefersAt .queryPart p x
  | expression {p x : Json} {e : String × Json} {members : List (String × Json)} :
    p.member? "expressions" = some (.obj members) → e ∈ members → ThroughLists e.2 x →
    RefersAt .queryPart p x
  | breakout {p x : Json} {items : List Json} : p.member? "breakout" = some (.arr items) → x ∈ items →
    RefersAt .queryPart p x
  | ordering {p o x : Json} {items : List Json} : p.member? "order-by" = some (.arr items) → o ∈ items →
    o.item? 1 = some x → RefersAt .queryPart p x
  | condition {p v x : Json} : p.member? "condition" = some v → ThroughLists v x → RefersAt .join p x
  | joinFields {p v x : Json} : p.member? "fields" = some v → ThroughLists v x → RefersAt .join p x

theorem RefersAt.isObj {k : PlaceKind} {p x : Json} (h : RefersAt k p x) : p.isObj := by
  cases h with
  | filter hv | aggregation hv | fields hv | expression hv | breakout hv | ordering hv | condition hv
  | joinFields hv => exact Json.isObj_of_member? hv

/-- If a value is a reference to the id of a column, the column has the property. -/
def PointsTo (P : ColumnId → Prop) (j : Json) : Prop := ∀ c, Clause.ofJson j = .fieldRef (.id c) → P c

/-- Is a value no reference to a source column? -/
def Mapping.PointsAway (m : Mapping) (j : Json) : Prop :=
  ∀ c, Clause.ofJson j = .fieldRef (.id c) → ¬m.tables.isSourceColumn c

/-- No source column is the target of a mapping or an override. -/
structure Mapping.Separates (m : Mapping) : Prop where
  built : m.tables.Built
  disjoint : ∀ c, m.tables.isSourceColumn c →
    ¬m.tables.isDestinationColumn c ∧ ¬m.overrides.isReplacement c

theorem Mapping.Separates.not_isSourceColumn {m : Mapping} (h : m.Separates) {c c' : ColumnId}
    (hc : m.replaceColumn c = .ok c') : ¬m.tables.isSourceColumn c' := by
  intro hsource
  obtain ⟨hdestination, hreplacement⟩ := h.disjoint c' hsource
  rcases m.replaceColumn_cases h.built hc with h | h
  · exact hdestination h
  · exact hreplacement h

namespace Renaming

variable {r : Renaming} {P : ColumnId → Prop} {j j' x : Json}

/-! ## References -/

theorem pointsTo_of_not_isFieldRef (h : (Clause.ofJson j).isFieldRef = false) : PointsTo P j := by
  intro c hc
  rw [hc] at h
  cases h

/-! Columns are renamed to columns with a property. -/

section Renamed

variable (hP : ∀ {c c' : ColumnId}, r.column c = .ok c' → P c')

include hP

theorem Retargeted.pointsTo (h : Retargeted r j j') : PointsTo P j' := by
  intro c hc
  obtain ⟨operator, operands, hj', -, htarget⟩ := Clause.ofJson_eq_fieldRef_iff.1 hc
  cases h with
  | column _ _ hcolumn =>
    obtain ⟨-, rfl⟩ := List.cons.inj (Json.arr.inj hj')
    rw [List.head?_cons, ofItem_toJson] at htarget
    rw [FieldTarget.id.inj htarget]
    exact hP hcolumn
  | name =>
    obtain ⟨-, rfl⟩ := List.cons.inj (Json.arr.inj hj')
    cases htarget
  | kept _ hid =>
    obtain ⟨-, rfl⟩ := List.cons.inj (Json.arr.inj hj')
    exact absurd htarget.symm (hid c)

theorem fieldRef_pointsTo (h : r.fieldRef j = .ok j') : PointsTo P j' := by
  obtain h | ⟨hnot, rfl⟩ := fieldRef_eq_ok_iff.1 h
  · exact h.pointsTo hP
  · exact pointsTo_of_not_isFieldRef hnot

theorem Retargeted.throughLists (h : Retargeted r j j') (hx : ThroughLists j' x) : PointsTo P x := by
  cases hx with
  | refl => exact h.pointsTo hP
  | item hnot => exact absurd h.isFieldRef hnot

/-! ## Lists -/

omit hP in
mutual

/-- What is nested in lists refers to renamed columns alone. -/
theorem nested_pointsTo (hP : ∀ {c c' : ColumnId}, r.column c = .ok c' → P c') : (j : Json) →
    ∀ {j' x : Json}, r.nested j = .ok j' → ThroughLists j' x → PointsTo P x
  | .arr items, j', x, h, hx => by
    obtain h | ⟨hitems, items', hnested, rfl⟩ := nested_arr_eq_ok_iff.1 h
    · exact h.throughLists hP hx
    · cases hx with
      | refl => exact pointsTo_of_not_isFieldRef (isFieldRef_nestedItems hnested hitems)
      | item _ hi hx => exact nestedItems_pointsTo hP items hnested hi hx
  | .null, j', x, h, hx | .bool _, j', x, h, hx | .int _, j', x, h, hx | .double _, j', x, h, hx
  | .str _, j', x, h, hx | .obj _, j', x, h, hx => by
    obtain rfl := Except.ok.inj h
    cases hx
    exact pointsTo_of_not_isFieldRef rfl

theorem nestedItems_pointsTo (hP : ∀ {c c' : ColumnId}, r.column c = .ok c' → P c') : (items : List Json) →
    ∀ {items' : List Json} {i x : Json}, r.nestedItems items = .ok items' → i ∈ items' →
    ThroughLists i x → PointsTo P x
  | [], items', i, x, h, hi, _ => by
    rw [← Except.ok.inj h] at hi
    cases hi
  | j :: items, items', i, x, h, hi, hx => by
    obtain ⟨j', rest, hj, hrest, rfl⟩ := nestedItems_cons_eq_ok_iff.1 h
    rcases List.mem_cons.1 hi with rfl | hi
    · exact nested_pointsTo hP j hj hx
    · exact nestedItems_pointsTo hP items hrest hi hx

end

/-! ## Filters -/

omit hP in
mutual

/-- The operands of a filter refer to renamed columns alone. -/
theorem filter_pointsTo (hP : ∀ {c c' : ColumnId}, r.column c = .ok c' → P c') : (j : Json) →
    ∀ {j' x : Json}, r.filter j = .ok j' → ThroughClauses j' x → PointsTo P x
  | .arr (operator :: operands), j', x, h, hx => by
    obtain ⟨hconstant, rfl⟩ | h | ⟨hcombines, operands', hoperands, rfl⟩ := filter_arr_eq_ok_iff.1 h
    · cases hx with
      | refl => exact pointsTo_of_not_isFieldRef (by simp [hconstant, Clause.isFieldRef])
      | operand => exact absurd hconstant (Clause.ofJson_clause_ne_constant _ _)
    · cases hx with
      | refl => exact h.pointsTo hP
      | operand hnot => exact absurd h.isFieldRef hnot
    · cases hx with
      | refl => exact pointsTo_of_not_isFieldRef (hcombines.isFieldRef operands')
      | operand _ hi hx => exact filters_pointsTo hP operands hoperands hi hx
  | .arr [], j', x, h, hx | .null, j', x, h, hx | .bool _, j', x, h, hx | .int _, j', x, h, hx
  | .double _, j', x, h, hx | .str _, j', x, h, hx | .obj _, j', x, h, hx => by
    obtain rfl := Except.ok.inj h
    cases hx
    exact pointsTo_of_not_isFieldRef rfl

theorem filters_pointsTo (hP : ∀ {c c' : ColumnId}, r.column c = .ok c' → P c') : (items : List Json) →
    ∀ {items' : List Json} {i x : Json}, r.filters items = .ok items' → i ∈ items' →
    ThroughClauses i x → PointsTo P x
  | [], items', i, x, h, hi, _ => by
    rw [← Except.ok.inj h] at hi
    cases hi
  | j :: items, items', i, x, h, hi, hx => by
    obtain ⟨j', rest, hj, hrest, rfl⟩ := filters_cons_eq_ok_iff.1 h
    rcases List.mem_cons.1 hi with rfl | hi
    · exact filter_pointsTo hP j hj hx
    · exact filters_pointsTo hP items hrest hi hx

end

/-! ## Query parts and joins -/

/-- The positions of a renamed query part or join refer to renamed columns alone. -/
theorem refersAt_pointsTo {k : PlaceKind} {p : Json}
    (hp : Walk.Leaves (fun trail j => (r.place trail j).results Set.univ) k p)
    (hx : RefersAt k p x) : PointsTo P x := by
  obtain ⟨trail, j, hkind, hp⟩ := hp
  cases hx with
  | filter hv hx =>
    obtain ⟨v, -, hv⟩ := Json.mem_of_mem_onMembers (mem_place_queryPart hkind hp) hv
    exact filter_pointsTo hP v (by simpa [queryMember] using hv) hx
  | aggregation hv hx =>
    obtain ⟨v, -, hv⟩ := Json.mem_of_mem_onMembers (mem_place_queryPart hkind hp) hv
    exact nested_pointsTo hP v (by simpa [queryMember] using hv) hx
  | fields hv hx =>
    obtain ⟨v, -, hv⟩ := Json.mem_of_mem_onMembers (mem_place_queryPart hkind hp) hv
    exact nested_pointsTo hP v (by simpa [queryMember] using hv) hx
  | expression hv he hx =>
    obtain ⟨v, -, hv⟩ := Json.mem_of_mem_onMembers (mem_place_queryPart hkind hp) hv
    obtain ⟨-, hexpressions⟩ := expressions_eq_ok_iff.1 (by simpa [queryMember] using hv)
    obtain ⟨-, old, -, -, -, hold⟩ := Json.exists_of_onMembers hexpressions he
    exact nested_pointsTo hP old.2 hold hx
  | breakout hv hx =>
    obtain ⟨v, -, hv⟩ := Json.mem_of_mem_onMembers (mem_place_queryPart hkind hp) hv
    obtain ⟨-, hitems⟩ := breakout_eq_ok_iff.1 (by simpa [queryMember] using hv)
    obtain ⟨-, i, -, -, hi⟩ := Json.exists_of_onItems hitems hx
    exact fieldRef_pointsTo hP hi
  | ordering hv ho hx =>
    obtain ⟨v, -, hv⟩ := Json.mem_of_mem_onMembers (mem_place_queryPart hkind hp) hv
    obtain ⟨-, hitems⟩ := orderings_eq_ok_iff.1 (by simpa [queryMember] using hv)
    obtain ⟨-, i, -, -, hi⟩ := Json.exists_of_onItems hitems ho
    obtain ⟨reference, reference', hreference, hrenamed, rfl⟩ := ordering_eq_ok_iff.1 hi
    rw [Json.item?_setItem hreference] at hx
    rw [← Option.some.inj hx]
    exact fieldRef_pointsTo hP hrenamed
  | condition hv hx =>
    obtain ⟨v, -, hv⟩ := Json.mem_of_mem_onMembers (mem_place_join hkind hp) hv
    exact nested_pointsTo hP v (by simpa [joinMember] using hv) hx
  | joinFields hv hx =>
    obtain ⟨v, -, hv⟩ := Json.mem_of_mem_onMembers (mem_place_join hkind hp) hv
    exact nested_pointsTo hP v (by simpa [joinMember] using hv) hx

end Renamed

theorem refersAt_pointsAway (hm : r.mapping.Separates) {k : PlaceKind} {p : Json}
    (hp : Walk.Leaves (fun trail j => (r.place trail j).results Set.univ) k p)
    (hx : RefersAt k p x) : r.mapping.PointsAway x :=
  refersAt_pointsTo (fun hc => hm.not_isSourceColumn (Except.mapError_eq_ok_iff.1 hc)) hp hx

/-- A query that has been renamed refers to no source column, at any depth of nested queries and joins. -/
theorem query_pointsAway (hm : r.mapping.Separates) {trail : Trail} {q q' : Json}
    (hq : (Walk.query r.place trail q).outcome = .ok q') {k : PlaceKind} {p : Json}
    (hp : Walk.Reaches .queryPart q' k p) (hx : RefersAt k p x) {c : ColumnId}
    (hc : Clause.ofJson x = .fieldRef (.id c)) : ¬r.mapping.tables.isSourceColumn c := by
  have hresult : q' ∈ (Walk.query r.place trail q).results Set.univ := ⟨hq, fun _ _ => trivial⟩
  rw [Plan.compatible_results.query (fun _ _ => rfl)] at hresult
  have hleaves := Walk.query_leaves keepsInner_place trail q (hp.isObj hx.isObj) hresult hp
  exact refersAt_pointsAway hm hleaves hx c hc

/-! ## An example -/

/-- One table with one column. -/
def oneColumn : Mapping :=
  ⟨⟨3⟩, ⟨[(⟨10⟩, ⟨110⟩)], [(⟨110⟩, ⟨10⟩)], [(⟨100⟩, ⟨⟨1100⟩, ⟨10⟩, ⟨110⟩⟩)],
    [(⟨1100⟩, ⟨⟨1100⟩, ⟨10⟩, ⟨110⟩⟩)]⟩, .none, .none⟩

theorem separates_oneColumn : oneColumn.Separates where
  built := by
    have hspec : EquivalenceTable.ofSpec ⟨[⟨⟨10⟩, ⟨110⟩, [⟨⟨100⟩, ⟨1100⟩⟩]⟩]⟩ = .ok oneColumn.tables := rfl
    exact EquivalenceTable.built_ofSpec hspec
  disjoint c hc := by
    obtain ⟨r, hr⟩ := Option.isSome_iff_exists.1 hc
    obtain h | h := List.mem_cons.1 (Assoc.mem_of_lookup hr)
    · obtain rfl := congrArg Prod.fst h
      decide
    · cases h

/-- A query over another query, with a reference to the column of `oneColumn` in either. -/
def filtered (column : ColumnId) : Json :=
  .obj [("source-query", .obj [("source-table", .int 110),
      ("filter", .arr [.str "=", Sample.fieldRef column, .int 1])]),
    ("breakout", .arr [Sample.fieldRef column])]

theorem not_isSourceColumn_filtered : oneColumn.Separates ∧
    (Walk.query (place ⟨oneColumn, .card ⟨7⟩⟩) [] (filtered ⟨100⟩)).outcome = .ok (filtered ⟨1100⟩) ∧
    ¬oneColumn.tables.isSourceColumn ⟨1100⟩ := by
  have houtcome : (Walk.query (place ⟨oneColumn, .card ⟨7⟩⟩) [] (filtered ⟨100⟩)).outcome =
      .ok (filtered ⟨1100⟩) := by rfl
  have hreaches : Walk.Reaches .queryPart (filtered ⟨1100⟩) .queryPart
      (.obj [("source-table", .int 110), ("filter", .arr [.str "=", Sample.fieldRef ⟨1100⟩, .int 1])]) :=
    .nested rfl rfl (.refl _ _)
  have hrefers := RefersAt.filter (x := Sample.fieldRef ⟨1100⟩) (p := .obj [("source-table", .int 110),
    ("filter", .arr [.str "=", Sample.fieldRef ⟨1100⟩, .int 1])]) rfl
    (.operand (by decide) List.mem_cons_self (.refl _))
  exact ⟨separates_oneColumn, houtcome,
    query_pointsAway separates_oneColumn houtcome hreaches hrefers (by rfl)⟩

/-- `Below j x` holds when `x` is `j` or is nested in it by lists and maps, outside of the options of field
references. -/
inductive Below : Json → Json → Prop
  /-- Every value is in itself. -/
  | refl (j : Json) : Below j j
  /-- Lists hold their items. -/
  | item {items : List Json} {n : Nat} {i x : Json} : items[n]? = some i →
    ¬((Clause.ofJson (.arr items)).isFieldRef ∧ n = 2) → Below i x → Below (.arr items) x
  /-- Maps hold the values of their members. -/
  | member {members : List (String × Json)} {e : String × Json} {x : Json} : e ∈ members →
    Below e.2 x → Below (.obj members) x

/-- A query with references in a map, in a list of constants, and below the fixed positions. -/
def scattered : Json :=
  .obj [("aggregation", .arr [.arr [.str "case", .obj [("default", Sample.fieldRef ⟨100⟩)]]]),
    ("filter", .arr [.str "=", .arr [.int 1, Sample.fieldRef ⟨100⟩], .int 1]),
    ("breakout", .arr [.arr [.str "binning", Sample.fieldRef ⟨100⟩]]),
    ("order-by", .arr [.arr [.str "asc", .arr [.str "lower", Sample.fieldRef ⟨100⟩]]])]

/-- References at other positions are left alone, although the query is renamed. -/
theorem isSourceColumn_scattered : oneColumn.Separates ∧
    (Walk.query (place ⟨oneColumn, .card ⟨7⟩⟩) [] scattered).outcome = .ok scattered ∧
    ∀ key ∈ ["aggregation", "filter", "breakout", "order-by"], ∃ v x c,
      scattered.member? key = some v ∧ Below v x ∧ Clause.ofJson x = .fieldRef (.id c) ∧
        oneColumn.tables.isSourceColumn c := by
  refine ⟨separates_oneColumn, by rfl, fun key hkey => ?_⟩
  have hclause : Clause.ofJson (Sample.fieldRef ⟨100⟩) = .fieldRef (.id ⟨100⟩) := by rfl
  have hsource : oneColumn.tables.isSourceColumn ⟨100⟩ := by decide
  simp only [List.mem_cons, List.not_mem_nil, or_false] at hkey
  rcases hkey with rfl | rfl | rfl | rfl
  · refine ⟨_, _, _, rfl, ?_, hclause, hsource⟩
    exact .item (n := 0) rfl (by decide) (.item (n := 1) rfl (by decide)
      (.member List.mem_cons_self (.refl _)))
  · refine ⟨_, _, _, rfl, ?_, hclause, hsource⟩
    exact .item (n := 1) rfl (by decide) (.item (n := 1) rfl (by decide) (.refl _))
  · refine ⟨_, _, _, rfl, ?_, hclause, hsource⟩
    exact .item (n := 0) rfl (by decide) (.item (n := 1) rfl (by decide) (.refl _))
  · refine ⟨_, _, _, rfl, ?_, hclause, hsource⟩
    exact .item (n := 0) rfl (by decide) (.item (n := 1) rfl (by decide)
      (.item (n := 1) rfl (by decide) (.refl _)))

end Renaming

end Rehome
