import Rehome.Proofs.Mapping.Built

/-! # Resolution of columns, as documents list it

An equivalence table and overrides are indexes, filled one entry after the other: a source is taken
once, the first mapping to a destination stays, the last override of a column in a table wins. What
takes the place of a column can be told from the two documents alone (`replaceColumn_of_listed`). -/

namespace Rehome

/-- The mappings of columns in the order of the document, each by its source. -/
def TablesSpec.listed (spec : TablesSpec) : List (ColumnId × ResolvedColumn) :=
  spec.tables.flatMap fun t =>
    t.columns.map fun c => (c.source, ⟨c.destination, t.source, t.destination⟩)

namespace OverridesSpec

/-- The replacement in the last override that is listed for a column and a table, or for all tables. -/
def last? (spec : OverridesSpec) (column : ColumnId) (table : Option TableId) : Option ColumnId :=
  (spec.columns.reverse.find? fun o => o.column = column ∧ o.table = table).map (·.replacement)

/-- What the overrides put in the place of a destination column: the last override for its table goes
before the last one for all tables. -/
def inPlaceOf (spec : OverridesSpec) (r : ResolvedColumn) : ColumnId :=
  ((spec.last? r.column (some r.table)).or (spec.last? r.column none)).getD r.column

/-- Some override puts `column` in the place of another, and none that follows supersedes it. -/
def Puts (spec : OverridesSpec) (column : ColumnId) : Prop :=
  ∃ before o after, spec.columns = before ++ o :: after ∧ o.replacement = column ∧
    ∀ later ∈ after, ¬(later.column = o.column ∧ later.table = o.table)

end OverridesSpec

/-! ## Equivalences -/

namespace EquivalenceTable

variable {e e' : EquivalenceTable} {listed : List (ColumnId × ResolvedColumn)}

/-- A table that holds the listed mappings: every one by its source, the first by its destination. -/
structure Indexes (e : EquivalenceTable) (listed : List (ColumnId × ResolvedColumn)) : Prop where
  columns : e.columns = listed
  nodup : (listed.map Prod.fst).Nodup
  target (column : ColumnId) :
    e.columnTargets.lookup column = (listed.map Prod.snd).find? fun r => r.column = column

theorem Indexes.empty : Indexes empty [] where
  columns := rfl
  nodup := List.nodup_nil
  target _ := rfl

theorem Indexes.insertTable (h : e.Indexes listed) {source destination : TableId}
    (hinsert : e.insertTable source destination = .ok e') : e'.Indexes listed where
  columns := (columns_insertTable hinsert).1.trans h.columns
  nodup := h.nodup
  target column := by
    rw [(columns_insertTable hinsert).2]
    exact h.target column

theorem insertColumn_eq_ok_iff {sourceTable : TableId} {source destination : ColumnId} :
    e.insertColumn sourceTable source destination = .ok e' ↔
      ∃ table, e.tables.lookup sourceTable = some table ∧ e.columns.lookup source = none ∧
        e' = { e with
          columns := Assoc.put source ⟨destination, sourceTable, table⟩ e.columns
          columnTargets := Assoc.putNew destination ⟨destination, sourceTable, table⟩ e.columnTargets } := by
  rw [insertColumn]
  cases e.tables.lookup sourceTable with
  | none => simp
  | some table =>
    cases e.columns.lookup source with
    | none => simp [eq_comm]
    | some r => simp

theorem Indexes.insertColumn (h : e.Indexes listed) {sourceTable table : TableId}
    {source destination : ColumnId} (htable : e.tables.lookup sourceTable = some table)
    (hinsert : e.insertColumn sourceTable source destination = .ok e') :
    e'.Indexes (listed ++ [(source, ⟨destination, sourceTable, table⟩)]) := by
  obtain ⟨table', htable', hsource, rfl⟩ := insertColumn_eq_ok_iff.1 hinsert
  obtain rfl : table = table' := Option.some.inj (htable.symm.trans htable')
  have hnew : source ∉ listed.map Prod.fst := by
    rw [← h.columns, ← Assoc.isSome_lookup_iff, hsource]
    exact Bool.false_ne_true
  constructor
  · rw [h.columns, Assoc.put_of_not_mem hnew]
  · rw [List.map_append]
    exact h.nodup.append (List.nodup_singleton source) (by simpa using hnew)
  · intro column
    rw [Assoc.lookup_putNew, h.target, List.map_append, List.find?_append]
    congr 1
    by_cases hcolumn : destination = column
    · simp [hcolumn]
    · simp [hcolumn, Ne.symm hcolumn]

/-- The columns of one table, one after the other. -/
theorem Indexes.insertColumns (h : e.Indexes listed) {sourceTable table : TableId}
    (htable : e.tables.lookup sourceTable = some table) {columns : List ColumnPair}
    (hinsert : columns.foldlM (fun e c => e.insertColumn sourceTable c.source c.destination) e = .ok e') :
    e'.Indexes (listed ++ columns.map fun c => (c.source, ⟨c.destination, sourceTable, table⟩)) := by
  induction columns generalizing e listed with
  | nil =>
    obtain rfl := Except.ok.inj hinsert
    rwa [List.map_nil, List.append_nil]
  | cons c columns ih =>
    rw [List.foldlM_cons] at hinsert
    obtain ⟨e₁, hc, hcolumns⟩ := Except.bind_eq_ok_iff.1 hinsert
    have hnext := ih (h.insertColumn htable hc) ((tables_insertColumn hc).1 ▸ htable) hcolumns
    rwa [List.append_assoc] at hnext

theorem Indexes.insertPair (h : e.Indexes listed) {t : TablePair} (hinsert : e.insertPair t = .ok e') :
    e'.Indexes (listed ++ t.columns.map fun c => (c.source, ⟨c.destination, t.source, t.destination⟩)) := by
  obtain ⟨e₁, htable, hcolumns⟩ := Except.bind_eq_ok_iff.1 hinsert
  refine (h.insertTable htable).insertColumns ?_ hcolumns
  rw [(insertTable_cases htable).1, Assoc.lookup_put_self]

/-- A table that is built from a document holds the mappings that are listed there. -/
theorem indexes_ofSpec {spec : TablesSpec} (h : ofSpec spec = .ok e) : e.Indexes spec.listed := by
  have hfold : ∀ (tables : List TablePair) {e : EquivalenceTable} {listed}, e.Indexes listed →
      ∀ {e'}, tables.foldlM EquivalenceTable.insertPair e = .ok e' →
        e'.Indexes (listed ++ TablesSpec.listed ⟨tables⟩) := by
    intro tables
    induction tables with
    | nil =>
      intro e listed he e' h
      obtain rfl := Except.ok.inj h
      exact (List.append_nil listed).symm ▸ he
    | cons t tables ih =>
      intro e listed he e' h
      rw [List.foldlM_cons] at h
      obtain ⟨e₁, ht, htables⟩ := Except.bind_eq_ok_iff.1 h
      have hnext := ih (he.insertPair ht) htables
      rwa [List.append_assoc] at hnext
  exact hfold spec.tables Indexes.empty h

end EquivalenceTable

/-! ## Overrides -/

namespace Overrides

/-- Overrides of columns are kept by table and column. -/
theorem byColumn_ofSpec (spec : OverridesSpec) : (ofSpec spec).byColumn =
    Assoc.ofList (spec.columns.map fun o => ((o.table, o.column), o.replacement)) := by
  have hnames : ∀ (names : List (String × String)) (o : Overrides),
      (names.foldl (fun o p => o.withName p.1 p.2) o).byColumn = o.byColumn := by
    intro names
    induction names with
    | nil => exact fun _ => rfl
    | cons p names ih => exact fun o => ih (o.withName p.1 p.2)
  have hcolumns : ∀ (columns : List ColumnOverride) (o : Overrides),
      (columns.foldl (fun o c => o.withColumn c.column c.table c.replacement) o).byColumn =
        (columns.map fun c => ((c.table, c.column), c.replacement)).foldl
          (fun entries p => Assoc.put p.1 p.2 entries) o.byColumn := by
    intro columns
    induction columns with
    | nil => exact fun _ => rfl
    | cons c columns ih => exact fun o => ih (o.withColumn c.column c.table c.replacement)
  rw [ofSpec, hnames, hcolumns]
  rfl

/-- The override of a column in a table is the last that is listed. -/
theorem lookup_byColumn_ofSpec (spec : OverridesSpec) (column : ColumnId) (table : Option TableId) :
    (ofSpec spec).byColumn.lookup (table, column) = spec.last? column table := by
  rw [byColumn_ofSpec, Assoc.lookup_eq_lookup, Assoc.lookup_ofList, OverridesSpec.last?,
    ← List.map_reverse]
  induction spec.columns.reverse with
  | nil => rfl
  | cons o rest ih =>
    rw [List.map_cons, Assoc.lookup_cons, List.find?_cons, ih]
    by_cases ho : o.column = column ∧ o.table = table
    · obtain ⟨rfl, rfl⟩ := ho
      simp
    · have hne : (table, column) ≠ (o.table, o.column) := fun h =>
        ho ⟨(Prod.mk.inj h).2.symm, (Prod.mk.inj h).1.symm⟩
      simp [hne, ho]

theorem replacement?_ofSpec (spec : OverridesSpec) (r : ResolvedColumn) :
    ((ofSpec spec).replacement? r.column r.table).getD r.column = spec.inPlaceOf r := by
  rw [replacement?, lookup_byColumn_ofSpec, lookup_byColumn_ofSpec, OverridesSpec.inPlaceOf]

/-- The overrides that are kept are those that are the last for their column and table. -/
theorem mem_byColumn_ofSpec_iff (spec : OverridesSpec) (o : ColumnOverride) :
    ((o.table, o.column), o.replacement) ∈ (ofSpec spec).byColumn ↔
      spec.last? o.column o.table = some o.replacement := by
  rw [← lookup_byColumn_ofSpec, Assoc.lookup_eq_lookup, Assoc.lookup_eq_some_iff_mem]
  rw [byColumn_ofSpec]
  exact Assoc.nodup_keys_ofList _

/-- The replacements that are kept are those of overrides that no later one supersedes. -/
theorem isReplacement_ofSpec_iff (spec : OverridesSpec) (column : ColumnId) :
    (ofSpec spec).isReplacement column ↔ spec.Puts column := by
  rw [isReplacement, List.any_eq_true]
  constructor
  · rintro ⟨⟨⟨table, column'⟩, replacement⟩, hmem, heq⟩
    obtain rfl : replacement = column := eq_of_beq heq
    have hlast := (mem_byColumn_ofSpec_iff spec ⟨column', table, replacement⟩).1 hmem
    obtain ⟨o, ho, rfl⟩ := Option.map_eq_some_iff.1 hlast
    obtain ⟨hmatch, after, before, hsplit, hlater⟩ := List.find?_eq_some_iff_append.1 ho
    obtain ⟨rfl, rfl⟩ := of_decide_eq_true hmatch
    have hcolumns : spec.columns = before.reverse ++ o :: after.reverse := by
      rw [← List.reverse_reverse spec.columns, hsplit]
      simp
    refine ⟨before.reverse, o, after.reverse, hcolumns, rfl, fun later hmem hsame => ?_⟩
    simpa [hsame] using hlater later (List.mem_reverse.1 hmem)
  · rintro ⟨before, o, after, hsplit, rfl, hlater⟩
    refine ⟨((o.table, o.column), o.replacement), ?_, beq_self_eq_true _⟩
    refine (mem_byColumn_ofSpec_iff spec o).2 (Option.map_eq_some_iff.2 ⟨o, ?_, rfl⟩)
    have hreverse : spec.columns.reverse = after.reverse ++ o :: before.reverse := by simp [hsplit]
    refine List.find?_eq_some_iff_append.2 ⟨by simp, _, _, hreverse, fun later hmem => ?_⟩
    simpa [imp_iff_not_or] using hlater later (List.mem_reverse.1 hmem)

end Overrides

/-! ## Columns -/

namespace Mapping

variable {m : Mapping} {tables : TablesSpec} {overrides : OverridesSpec}

/-- A column that resolves is replaced by what the overrides put in the place of its destination. -/
theorem replaceColumn_of_resolveColumn (h : m.overrides = .ofSpec overrides) {x : ColumnId}
    {r : ResolvedColumn} (hr : m.tables.resolveColumn x = .ok r) :
    m.replaceColumn x = .ok (overrides.inPlaceOf r) := by
  rw [replaceColumn, hr, h]
  exact congrArg Except.ok (Overrides.replacement?_ofSpec overrides r)

/-- What takes the place of a column, told from the documents that list the equivalences and the
overrides: a source goes before a destination, and of the mappings to a destination the first counts;
a column that is neither stays if an override puts it in the place of another. -/
theorem replaceColumn_of_listed (htables : EquivalenceTable.ofSpec tables = .ok m.tables)
    (hoverrides : m.overrides = .ofSpec overrides) (x : ColumnId) :
    (∀ r, (x, r) ∈ tables.listed → m.replaceColumn x = .ok (overrides.inPlaceOf r)) ∧
      (x ∉ tables.listed.map Prod.fst →
        (∀ r, (tables.listed.map Prod.snd).find? (fun r => r.column = x) = some r →
          m.replaceColumn x = .ok (overrides.inPlaceOf r)) ∧
        ((∀ r ∈ tables.listed.map Prod.snd, r.column ≠ x) →
          (overrides.Puts x → m.replaceColumn x = .ok x) ∧
          (¬overrides.Puts x → m.replaceColumn x = .error (.unresolvedColumn x)))) := by
  have hindexes := EquivalenceTable.indexes_ofSpec htables
  refine ⟨fun r hr => ?source, fun hsource => ⟨fun r hr => ?destination, fun hneither => ?neither⟩⟩
  case source =>
    have hlookup : m.tables.columns.lookup x = some r := by
      rw [hindexes.columns]
      exact (Assoc.lookup_eq_some_iff_mem hindexes.nodup).2 hr
    refine replaceColumn_of_resolveColumn hoverrides ?_
    rw [EquivalenceTable.resolveColumn, hlookup, Option.some_or]
  all_goals
    have hnone : m.tables.columns.lookup x = none := by
      rw [hindexes.columns]
      exact Assoc.lookup_eq_none hsource
  case destination =>
    refine replaceColumn_of_resolveColumn hoverrides ?_
    rw [EquivalenceTable.resolveColumn, hnone, hindexes.target, hr, Option.none_or]
  case neither =>
    have hresolve : m.tables.resolveColumn x = .error (.unresolvedColumn x) := by
      rw [EquivalenceTable.resolveColumn, hnone, hindexes.target,
        List.find?_eq_none.2 (by simpa using hneither), Option.none_or]
    rw [replaceColumn, hresolve, hoverrides]
    constructor
    · intro h
      exact if_pos ((Overrides.isReplacement_ofSpec_iff overrides x).2 h)
    · intro h
      exact if_neg (mt (Overrides.isReplacement_ofSpec_iff overrides x).1 h)

/-- Two tables with a destination column in common, one of the columns a source of its own. -/
def overlapping : TablesSpec :=
  ⟨[⟨⟨1⟩, ⟨10⟩, [⟨⟨11⟩, ⟨110⟩⟩, ⟨⟨12⟩, ⟨120⟩⟩]⟩, ⟨⟨2⟩, ⟨20⟩, [⟨⟨21⟩, ⟨110⟩⟩, ⟨⟨110⟩, ⟨120⟩⟩]⟩]⟩

/-- Overrides for one table and for all, some of them superseded. -/
def superseding : OverridesSpec where
  columns := [⟨⟨110⟩, none, ⟨7⟩⟩, ⟨⟨110⟩, some ⟨20⟩, ⟨8⟩⟩, ⟨⟨110⟩, some ⟨20⟩, ⟨9⟩⟩, ⟨⟨120⟩, some ⟨10⟩, ⟨6⟩⟩]
  fieldNames := []

/-- The mapping that the two documents make. -/
def overlapped : Mapping where
  database := ⟨3⟩
  tables := (EquivalenceTable.ofSpec overlapping).toOption.getD .empty
  overrides := .ofSpec superseding
  moves := .none

theorem puts_superseding : superseding.Puts ⟨9⟩ ∧ ¬superseding.Puts ⟨8⟩ := by
  rw [← Overrides.isReplacement_ofSpec_iff, ← Overrides.isReplacement_ofSpec_iff]
  decide

theorem replaceColumn_overlapped : EquivalenceTable.ofSpec overlapping = .ok overlapped.tables ∧
    overlapped.overrides = .ofSpec superseding ∧
    overlapped.replaceColumn ⟨11⟩ = .ok ⟨7⟩ ∧ overlapped.replaceColumn ⟨21⟩ = .ok ⟨9⟩ ∧
    overlapped.replaceColumn ⟨110⟩ = .ok ⟨120⟩ ∧ overlapped.replaceColumn ⟨120⟩ = .ok ⟨6⟩ ∧
    overlapped.replaceColumn ⟨9⟩ = .ok ⟨9⟩ ∧
    overlapped.replaceColumn ⟨8⟩ = .error (.unresolvedColumn ⟨8⟩) := by
  have htables : EquivalenceTable.ofSpec overlapping = .ok overlapped.tables := rfl
  refine ⟨htables, rfl, ?_, ?_, ?_, ?_, ?_, ?_⟩
  · exact (replaceColumn_of_listed htables rfl ⟨11⟩).1 ⟨⟨110⟩, ⟨1⟩, ⟨10⟩⟩ (by decide)
  · exact (replaceColumn_of_listed htables rfl ⟨21⟩).1 ⟨⟨110⟩, ⟨2⟩, ⟨20⟩⟩ (by decide)
  · exact (replaceColumn_of_listed htables rfl ⟨110⟩).1 ⟨⟨120⟩, ⟨2⟩, ⟨20⟩⟩ (by decide)
  · exact ((replaceColumn_of_listed htables rfl ⟨120⟩).2 (by decide)).1 ⟨⟨120⟩, ⟨1⟩, ⟨10⟩⟩ (by decide)
  · exact (((replaceColumn_of_listed htables rfl ⟨9⟩).2 (by decide)).2 (by decide)).1 puts_superseding.1
  · exact (((replaceColumn_of_listed htables rfl ⟨8⟩).2 (by decide)).2 (by decide)).2 puts_superseding.2

end Mapping

end Rehome
