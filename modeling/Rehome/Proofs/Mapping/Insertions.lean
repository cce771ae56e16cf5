import Rehome.Proofs.Mapping.Resolution

/-! # Insertions into an equivalence table

An equivalence table is filled by calls, each of which checks first and writes afterwards, to one index
after the other. Whatever the calls are, the table that they leave holds what they were accepted for and
nothing else (`Lists`), and a call that fails leaves it as it was (`call_run`). -/

namespace Rehome

/-- An id at the source, where each is mapped once. -/
inductive SourceId where
  | table (id : TableId)
  | column (id : ColumnId)
deriving DecidableEq, Repr

/-- A call that adds to an equivalence table. -/
inductive Insertion where
  | table (source destination : TableId)
  | column (sourceTable : TableId) (source destination : ColumnId)
deriving DecidableEq, Repr

namespace SourceId

def table? : SourceId → Option TableId
  | .table t => some t
  | .column _ => none

def column? : SourceId → Option ColumnId
  | .table _ => none
  | .column c => some c

/-- Why an id cannot be mapped once more. -/
def repeated : SourceId → MappingError
  | .table t => .duplicateTable t
  | .column c => .duplicateColumn c

theorem table?_eq_some_iff {id : SourceId} {t : TableId} : id.table? = some t ↔ id = .table t := by
  cases id <;> simp [table?]

theorem column?_eq_some_iff {id : SourceId} {c : ColumnId} : id.column? = some c ↔ id = .column c := by
  cases id <;> simp [column?]

@[simp] theorem mem_filterMap_table? {ids : List SourceId} {t : TableId} :
    t ∈ ids.filterMap table? ↔ .table t ∈ ids := by simp [table?_eq_some_iff]

@[simp] theorem mem_filterMap_column? {ids : List SourceId} {c : ColumnId} :
    c ∈ ids.filterMap column? ↔ .column c ∈ ids := by simp [column?_eq_some_iff]

/-- Ids are distinct if those of tables are and those of columns are. -/
theorem nodup_iff (ids : List SourceId) :
    ids.Nodup ↔ (ids.filterMap table?).Nodup ∧ (ids.filterMap column?).Nodup := by
  induction ids with
  | nil => simp
  | cons id ids ih =>
    cases id with
    | table t =>
      show _ ↔ (t :: ids.filterMap table?).Nodup ∧ (ids.filterMap column?).Nodup
      rw [List.nodup_cons, List.nodup_cons, ih, mem_filterMap_table?, and_assoc]
    | column c =>
      show _ ↔ (ids.filterMap table?).Nodup ∧ (c :: ids.filterMap column?).Nodup
      rw [List.nodup_cons, List.nodup_cons, ih, mem_filterMap_column?, and_left_comm]

end SourceId

namespace Insertion

/-- The id that a call maps. -/
def source : Insertion → SourceId
  | .table s _ => .table s
  | .column _ c _ => .column c

/-- A table and its destination, if a table is inserted. -/
def table? : Insertion → Option (TableId × TableId)
  | .table s d => some (s, d)
  | .column .. => none

/-- A column, its table and its destination, if a column is inserted. -/
def column? : Insertion → Option (ColumnId × TableId × ColumnId)
  | .table .. => none
  | .column t c d => some (c, t, d)

/-- The table that is mapped to a destination, if that is what is inserted. -/
def tableTo? (destination : TableId) : Insertion → Option TableId
  | .table s d => if d = destination then some s else none
  | .column .. => none

/-- The column that is mapped to a destination, if that is what is inserted. -/
def columnTo? (destination : ColumnId) : Insertion → Option ColumnId
  | .table .. => none
  | .column _ c d => if d = destination then some c else none

@[simp] theorem mem_filterMap_table? {accepted : List Insertion} {s d : TableId} :
    (s, d) ∈ accepted.filterMap table? ↔ .table s d ∈ accepted := by
  have hiff (i : Insertion) : i.table? = some (s, d) ↔ i = .table s d := by cases i <;> simp [table?]
  simp [hiff]

@[simp] theorem mem_filterMap_column? {accepted : List Insertion} {t : TableId} {c d : ColumnId} :
    (c, t, d) ∈ accepted.filterMap column? ↔ .column t c d ∈ accepted := by
  have hiff (i : Insertion) : i.column? = some (c, t, d) ↔ i = .column t c d := by
    cases i <;> simp [column?, and_left_comm]
  simp [hiff]

theorem tableTo?_eq_some_iff {i : Insertion} {s d : TableId} : tableTo? d i = some s ↔ i = .table s d := by
  cases i with
  | table s' d' => simp [tableTo?, and_comm]
  | column => simp [tableTo?]

/-- The first column that is mapped to a destination. -/
theorem findSome?_columnTo? (accepted : List Insertion) (d : ColumnId) : accepted.findSome? (columnTo? d) =
    ((accepted.filterMap column?).find? fun p => p.2.2 = d).map Prod.fst := by
  induction accepted with
  | nil => rfl
  | cons i accepted ih =>
    cases i with
    | table => exact ih
    | column t c d' =>
      show List.findSome? _ _ = Option.map _ (List.find? _ ((c, t, d') :: accepted.filterMap column?))
      rw [List.findSome?_cons, List.find?_cons, columnTo?]
      by_cases hd : d' = d
      · simp [hd]
      · simp [hd, ih]

/-- A call in place: its checks, and then its writes to one index after the other. -/
def call : Insertion → EStateM MappingError EquivalenceTable Unit
  | .table source destination => do
    if ((← get).tables.lookup source).isSome then throw (.duplicateTable source)
    modify fun e => { e with tables := Assoc.put source destination e.tables }
    modify fun e => { e with tableSources := Assoc.putNew destination source e.tableSources }
  | .column sourceTable source destination => do
    let some home := (← get).tables.lookup sourceTable | throw (.unresolvedTable sourceTable)
    if ((← get).columns.lookup source).isSome then throw (.duplicateColumn source)
    modify fun e => { e with columns := Assoc.put source ⟨destination, sourceTable, home⟩ e.columns }
    modify fun e => { e with
      columnTargets := Assoc.putNew destination ⟨destination, sourceTable, home⟩ e.columnTargets }

/-- The table with what a call adds to it. -/
def add : Insertion → EquivalenceTable → Except MappingError EquivalenceTable
  | .table source destination, e => e.insertTable source destination
  | .column sourceTable source destination, e => e.insertColumn sourceTable source destination

/-- A call that fails has written nothing. -/
theorem call_run (i : Insertion) (e : EquivalenceTable) : i.call.run e =
    match i.add e with
    | .ok e' => .ok () e'
    | .error err => .error err e := by
  cases i with
  | table source destination =>
    rw [add, EquivalenceTable.insertTable, call, EStateM.run_bind, EStateM.run_get]
    cases h : e.tables.lookup source with
    | none | some _ =>
      simp only [h]
      rfl
  | column sourceTable source destination =>
    rw [add, EquivalenceTable.insertColumn, call, EStateM.run_bind, EStateM.run_get]
    cases h : e.tables.lookup sourceTable with
    | none =>
      simp only [h]
      rfl
    | some home =>
      simp only [h, EStateM.run_bind, EStateM.run_get]
      cases e.columns.lookup source with
      | none | some _ => rfl

theorem map_filterMap_table? (accepted : List Insertion) :
    (accepted.filterMap table?).map Prod.fst = (accepted.map source).filterMap SourceId.table? := by
  rw [List.map_filterMap, List.filterMap_map]
  refine List.filterMap_congr fun i _ => ?_
  cases i <;> rfl

theorem map_filterMap_column? (accepted : List Insertion) :
    (accepted.filterMap column?).map Prod.fst = (accepted.map source).filterMap SourceId.column? := by
  rw [List.map_filterMap, List.filterMap_map]
  refine List.filterMap_congr fun i _ => ?_
  cases i <;> rfl

end Insertion

/-! ## What a table lists -/

namespace EquivalenceTable

variable {e e' : EquivalenceTable} {accepted : List Insertion} {i : Insertion}

/-- A table that has accepted these calls, one after the other, and no others. -/
structure Lists (e : EquivalenceTable) (accepted : List Insertion) : Prop where
  distinct : (accepted.map Insertion.source).Nodup
  tables : e.tables = accepted.filterMap Insertion.table?
  columns : (e.columns.map fun p => (p.1, p.2.sourceTable, p.2.column)) = accepted.filterMap Insertion.column?
  owner {p : ColumnId × ResolvedColumn} : p ∈ e.columns → e.tables.lookup p.2.sourceTable = some p.2.table
  tableSource (d : TableId) : e.tableSources.lookup d = accepted.findSome? (Insertion.tableTo? d)
  indexes : e.Indexes e.columns

theorem insertTable_eq_ok_iff {s d : TableId} : e.insertTable s d = .ok e' ↔
    e.tables.lookup s = none ∧ e' = { e with
      tables := Assoc.put s d e.tables
      tableSources := Assoc.putNew d s e.tableSources } := by
  rw [insertTable]
  cases e.tables.lookup s with
  | none => simp [eq_comm]
  | some _ => simp

theorem lists_empty : empty.Lists [] where
  distinct := List.nodup_nil
  tables := rfl
  columns := rfl
  owner h := absurd h List.not_mem_nil
  tableSource _ := rfl
  indexes := .empty

namespace Lists

theorem keys_tables (h : e.Lists accepted) :
    e.tables.map Prod.fst = (accepted.map Insertion.source).filterMap SourceId.table? := by
  rw [h.tables, Insertion.map_filterMap_table?]

theorem keys_columns (h : e.Lists accepted) :
    e.columns.map Prod.fst = (accepted.map Insertion.source).filterMap SourceId.column? := by
  rw [← Insertion.map_filterMap_column?, ← h.columns, List.map_map]
  rfl

theorem isSome_lookup_tables_iff (h : e.Lists accepted) {s : TableId} :
    (e.tables.lookup s).isSome ↔ .table s ∈ accepted.map Insertion.source := by
  rw [Assoc.isSome_lookup_iff, h.keys_tables, SourceId.mem_filterMap_table?]

theorem isSome_lookup_columns_iff (h : e.Lists accepted) {c : ColumnId} :
    (e.columns.lookup c).isSome ↔ .column c ∈ accepted.map Insertion.source := by
  rw [Assoc.isSome_lookup_iff, h.keys_columns, SourceId.mem_filterMap_column?]

/-- A table is mapped as it has been inserted. -/
theorem lookup_tables_iff (h : e.Lists accepted) {s d : TableId} :
    e.tables.lookup s = some d ↔ .table s d ∈ accepted := by
  have hnodup : (e.tables.map Prod.fst).Nodup := h.keys_tables ▸ ((SourceId.nodup_iff _).1 h.distinct).1
  rw [Assoc.lookup_eq_some_iff_mem hnodup, h.tables, Insertion.mem_filterMap_table?]

/-- A column is mapped as it has been inserted. -/
theorem lookup_columns_iff (h : e.Lists accepted) {t : TableId} {c d : ColumnId} :
    (∃ r, e.columns.lookup c = some r ∧ r.sourceTable = t ∧ r.column = d) ↔ .column t c d ∈ accepted := by
  simp only [Assoc.lookup_eq_some_iff_mem h.indexes.nodup]
  rw [← Insertion.mem_filterMap_column?, ← h.columns, List.mem_map]
  simp

/-- The table of a mapped column is mapped to where the column says. -/
theorem lookup_sourceTable (h : e.Lists accepted) {c : ColumnId} {r : ResolvedColumn}
    (hr : e.columns.lookup c = some r) : e.tables.lookup r.sourceTable = some r.table :=
  h.owner (Assoc.mem_of_lookup hr)

/-- What tables are mapped to are the destination tables. -/
theorem isDestinationTable_iff (h : e.Lists accepted) {d : TableId} :
    e.isDestinationTable d ↔ ∃ s, e.tables.lookup s = some d := by
  rw [isDestinationTable, h.tableSource, Option.isSome_iff_exists]
  constructor
  · rintro ⟨s, hs⟩
    obtain ⟨i, hi, hto⟩ := List.exists_of_findSome?_eq_some hs
    obtain rfl := Insertion.tableTo?_eq_some_iff.1 hto
    exact ⟨s, h.lookup_tables_iff.2 hi⟩
  · rintro ⟨s, hs⟩
    rw [← Option.isSome_iff_exists, List.findSome?_isSome_iff]
    exact ⟨_, h.lookup_tables_iff.1 hs, by rw [Insertion.tableTo?_eq_some_iff.2 rfl]; rfl⟩

/-- What columns are mapped to are the destination columns. -/
theorem isDestinationColumn_iff (h : e.Lists accepted) {d : ColumnId} :
    e.isDestinationColumn d ↔ ∃ c r, e.columns.lookup c = some r ∧ r.column = d := by
  rw [isDestinationColumn, h.indexes.target, List.find?_isSome]
  simp only [Assoc.lookup_eq_some_iff_mem h.indexes.nodup, List.mem_map, Prod.exists, exists_eq_right,
    decide_eq_true_iff]
  constructor
  · rintro ⟨r, ⟨c, hr⟩, hd⟩
    exact ⟨c, r, hr, hd⟩
  · rintro ⟨c, r, hr, hd⟩
    exact ⟨r, ⟨c, hr⟩, hd⟩

/-- A destination column leads to where the column is that was mapped to it first. -/
theorem lookup_columnTargets (h : e.Lists accepted) (d : ColumnId) : e.columnTargets.lookup d =
    (accepted.findSome? (Insertion.columnTo? d)).bind fun c => e.columns.lookup c := by
  rw [h.indexes.target, Insertion.findSome?_columnTo?, ← h.columns, List.find?_map, List.find?_map]
  show Option.map Prod.snd (e.columns.find? fun p => p.2.column = d) =
    (Option.map Prod.fst (Option.map _ (e.columns.find? fun p => p.2.column = d))).bind _
  cases hfirst : e.columns.find? fun p => p.2.column = d with
  | none => rfl
  | some p => exact ((Assoc.lookup_eq_some_iff_mem h.indexes.nodup).2 (List.mem_of_find?_eq_some hfirst)).symm

/-! ### One more call -/

/-- A table is inserted, which has not been mapped before. -/
theorem insertTable (h : e.Lists accepted) {s d : TableId} (hinsert : e.insertTable s d = .ok e') :
    e'.Lists (accepted ++ [.table s d]) := by
  obtain ⟨hs, rfl⟩ := insertTable_eq_ok_iff.1 hinsert
  have hnew : .table s ∉ accepted.map Insertion.source := by
    rw [← h.isSome_lookup_tables_iff, hs]
    exact Bool.false_ne_true
  have hkey : s ∉ e.tables.map Prod.fst := by
    rwa [h.keys_tables, SourceId.mem_filterMap_table?]
  constructor
  case distinct =>
    rw [List.map_append]
    exact h.distinct.append (List.nodup_singleton _) (List.disjoint_singleton.2 hnew)
  case tables =>
    rw [Assoc.put_of_not_mem hkey, List.filterMap_append, ← h.tables]
    rfl
  case columns =>
    rw [h.columns, List.filterMap_append]
    exact (List.append_nil _).symm
  case owner =>
    intro p hp
    have howner := h.owner hp
    rw [Assoc.lookup_put_of_ne]
    · exact howner
    · intro heq
      rw [heq, hs] at howner
      cases howner
  case tableSource =>
    intro d'
    rw [Assoc.lookup_putNew, h.tableSource, List.findSome?_append]
    simp [Insertion.tableTo?, eq_comm (a := d)]
  case indexes => exact h.indexes.insertTable hinsert

/-- A column is inserted, which has not been mapped before. -/
theorem insertColumn (h : e.Lists accepted) {t : TableId} {c d : ColumnId}
    (hinsert : e.insertColumn t c d = .ok e') : e'.Lists (accepted ++ [.column t c d]) := by
  obtain ⟨home, hhome, hc, rfl⟩ := insertColumn_eq_ok_iff.1 hinsert
  have hnew : .column c ∉ accepted.map Insertion.source := by
    rw [← h.isSome_lookup_columns_iff, hc]
    exact Bool.false_ne_true
  have hkey : c ∉ e.columns.map Prod.fst := by
    rwa [h.keys_columns, SourceId.mem_filterMap_column?]
  constructor
  case distinct =>
    rw [List.map_append]
    exact h.distinct.append (List.nodup_singleton _) (List.disjoint_singleton.2 hnew)
  case tables =>
    rw [h.tables, List.filterMap_append]
    exact (List.append_nil _).symm
  case columns =>
    rw [Assoc.put_of_not_mem hkey, List.map_append, h.columns, List.filterMap_append]
    rfl
  case owner =>
    intro p hp
    rcases Assoc.mem_put hp with rfl | hp
    · exact hhome
    · exact h.owner hp
  case tableSource =>
    intro d'
    rw [h.tableSource, List.findSome?_append]
    simp [Insertion.tableTo?]
  case indexes =>
    have hindexes := h.indexes.insertColumn hhome hinsert
    rwa [← Assoc.put_of_not_mem hkey] at hindexes

theorem add (h : e.Lists accepted) (hadd : i.add e = .ok e') : e'.Lists (accepted ++ [i]) := by
  cases i with
  | table => exact h.insertTable hadd
  | column => exact h.insertColumn hadd

end Lists

/-! ## Any calls -/

/-- The calls that have been accepted and the table that is left, after calls on a new table. -/
def called (calls : List Insertion) : List Insertion × EquivalenceTable :=
  calls.foldl (fun s i =>
    match i.call.run s.2 with
    | .ok _ e => (s.1 ++ [i], e)
    | .error _ e => (s.1, e)) ([], empty)

theorem lists_called (calls : List Insertion) : (called calls).2.Lists (called calls).1 := by
  refine List.foldlRecOn (motive := fun s : _ × EquivalenceTable => s.2.Lists s.1) calls _ lists_empty ?_
  intro s hs i _
  rw [i.call_run]
  cases hadd : i.add s.2 with
  | ok e => exact hs.add hadd
  | error err => exact hs

/-- What an equivalence table is to hold once these calls have been accepted. -/
structure Represents (e : EquivalenceTable) (accepted : List Insertion) : Prop where
  /-- A table is mapped as it was inserted. -/
  table {s d : TableId} : e.tables.lookup s = some d ↔ .table s d ∈ accepted
  /-- A column is mapped as it was inserted. -/
  column {t : TableId} {c d : ColumnId} :
    (∃ r, e.columns.lookup c = some r ∧ r.sourceTable = t ∧ r.column = d) ↔ .column t c d ∈ accepted
  /-- The table that a column is mapped with is mapped itself, to the same destination. -/
  owner {c : ColumnId} {r : ResolvedColumn} :
    e.columns.lookup c = some r → e.tables.lookup r.sourceTable = some r.table
  /-- What tables are mapped to are the destination tables, -/
  destinationTable {d : TableId} : e.isDestinationTable d ↔ ∃ s, e.tables.lookup s = some d
  /-- and what columns are mapped to the destination columns. -/
  destinationColumn {d : ColumnId} :
    e.isDestinationColumn d ↔ ∃ c r, e.columns.lookup c = some r ∧ r.column = d
  /-- A destination table leads back to the table that was mapped to it first, -/
  firstTable (d : TableId) : e.tableSources.lookup d = accepted.findSome? (Insertion.tableTo? d)
  /-- and a destination column to where the column is that was mapped to it first. -/
  firstColumn (d : ColumnId) : e.columnTargets.lookup d =
    (accepted.findSome? (Insertion.columnTo? d)).bind fun c => e.columns.lookup c

theorem Lists.represents (h : e.Lists accepted) : e.Represents accepted where
  table := h.lookup_tables_iff
  column := h.lookup_columns_iff
  owner := h.lookup_sourceTable
  destinationTable := h.isDestinationTable_iff
  destinationColumn := h.isDestinationColumn_iff
  firstTable := h.tableSource
  firstColumn := h.lookup_columnTargets

end EquivalenceTable

end Rehome
