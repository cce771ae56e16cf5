import Rehome.Proofs.Mapping.Insertions

/-! # Documents that list equivalences

A document is inserted table by table, each followed by its columns. That succeeds just if no id of a table
and no id of a column is listed twice at the source, and otherwise the error names the first id that is
listed again (`insertions_represented`). -/

namespace Rehome

/-- The calls that a table and its columns in a document stand for, in order. -/
def TablePair.insertions (p : TablePair) : List Insertion :=
  .table p.source p.destination :: p.columns.map fun c => .column p.source c.source c.destination

/-- The calls that a document stands for, in order. -/
def TablesSpec.insertions (spec : TablesSpec) : List Insertion := spec.tables.flatMap TablePair.insertions

/-- The ids at the source that a document lists, in order. -/
def TablesSpec.sources (spec : TablesSpec) : List SourceId :=
  spec.tables.flatMap fun t => .table t.source :: t.columns.map fun c => .column c.source

namespace TablesSpec

variable (spec : TablesSpec)

theorem map_source_insertions : spec.insertions.map Insertion.source = spec.sources := by
  rw [insertions, List.map_flatMap, sources]
  refine List.flatMap_congr fun t _ => ?_
  rw [TablePair.insertions, List.map_cons, List.map_map]
  rfl

theorem filterMap_table?_sources : spec.sources.filterMap SourceId.table? = spec.tables.map (·.source) := by
  rw [sources, List.filterMap_flatMap, List.map_eq_flatMap]
  refine List.flatMap_congr fun t _ => ?_
  have hcolumns : (t.columns.map fun c => SourceId.column c.source).filterMap SourceId.table? = [] := by
    rw [List.filterMap_map, List.filterMap_eq_nil_iff]
    exact fun _ _ => rfl
  exact congrArg (t.source :: ·) hcolumns

theorem filterMap_column?_sources :
    spec.sources.filterMap SourceId.column? = (spec.tables.flatMap (·.columns)).map (·.source) := by
  rw [sources, List.filterMap_flatMap, List.map_flatMap]
  refine List.flatMap_congr fun t _ => ?_
  rw [List.filterMap_cons_none rfl, List.filterMap_map]
  exact congrFun (List.filterMap_eq_map (f := ColumnPair.source)) t.columns

end TablesSpec

namespace EquivalenceTable

variable {e : EquivalenceTable} {accepted : List Insertion} {i : Insertion}

/-- Insertions after accepted ones: all of them are accepted, or there is a first one whose id was mapped
before, and that is refused. -/
inductive Ends (accepted calls : List Insertion) : Except MappingError EquivalenceTable → Prop
  | done {e : EquivalenceTable} : e.Lists (accepted ++ calls) → Ends accepted calls (.ok e)
  | refused {before after : List Insertion} {i : Insertion} : calls = before ++ i :: after →
    ((accepted ++ before).map Insertion.source).Nodup →
    i.source ∈ (accepted ++ before).map Insertion.source → Ends accepted calls (.error i.source.repeated)

theorem Ends.bind {calls calls' : List Insertion} {x : Except MappingError EquivalenceTable}
    {f : EquivalenceTable → Except MappingError EquivalenceTable} (hx : Ends accepted calls x)
    (hf : ∀ e, e.Lists (accepted ++ calls) → Ends (accepted ++ calls) calls' (f e)) :
    Ends accepted (calls ++ calls') (x >>= f) := by
  cases hx with
  | @refused before after i hcalls hnodup hi =>
    have hsplit : calls ++ calls' = before ++ i :: (after ++ calls') := by
      rw [hcalls, List.append_assoc, List.cons_append]
    exact .refused hsplit hnodup hi
  | @done e he =>
    show Ends accepted (calls ++ calls') (f e)
    have hfe := hf e he
    generalize f e = y at hfe
    cases hfe with
    | done he' => exact .done (List.append_assoc _ _ _ ▸ he')
    | @refused before after i hcalls hnodup hi =>
      rw [List.append_assoc] at hnodup hi
      have hsplit : calls ++ calls' = (calls ++ before) ++ i :: after := by
        rw [hcalls, List.append_assoc]
      exact .refused hsplit hnodup hi

namespace Lists

theorem ends_refused (h : e.Lists accepted) (hi : i.source ∈ accepted.map Insertion.source) :
    Ends accepted [i] (.error i.source.repeated) := by
  have hsplit : [i] = [] ++ i :: [] := rfl
  refine .refused hsplit ?_ ?_
  · rw [List.append_nil]
    exact h.distinct
  · rwa [List.append_nil]

theorem ends_insertTable (h : e.Lists accepted) (s d : TableId) :
    Ends accepted [.table s d] (e.insertTable s d) := by
  by_cases hs : .table s ∈ accepted.map Insertion.source
  · obtain ⟨d', hd'⟩ := Option.isSome_iff_exists.1 (h.isSome_lookup_tables_iff.2 hs)
    rw [EquivalenceTable.insertTable, hd']
    exact h.ends_refused (i := .table s d) hs
  · have hnone : e.tables.lookup s = none := by
      rwa [← h.isSome_lookup_tables_iff, Option.not_isSome_iff_eq_none] at hs
    have hinsert := insertTable_eq_ok_iff (d := d).2 ⟨hnone, rfl⟩
    rw [hinsert]
    exact .done (h.insertTable hinsert)

theorem ends_insertColumn (h : e.Lists accepted) {t : TableId}
    (ht : .table t ∈ accepted.map Insertion.source) (c d : ColumnId) :
    Ends accepted [.column t c d] (e.insertColumn t c d) := by
  obtain ⟨home, hhome⟩ := Option.isSome_iff_exists.1 (h.isSome_lookup_tables_iff.2 ht)
  by_cases hc : .column c ∈ accepted.map Insertion.source
  · obtain ⟨r, hr⟩ := Option.isSome_iff_exists.1 (h.isSome_lookup_columns_iff.2 hc)
    rw [EquivalenceTable.insertColumn, hhome, hr]
    exact h.ends_refused (i := .column t c d) hc
  · have hnone : e.columns.lookup c = none := by
      rwa [← h.isSome_lookup_columns_iff, Option.not_isSome_iff_eq_none] at hc
    have hinsert : e.insertColumn t c d = .ok _ := insertColumn_eq_ok_iff.2 ⟨home, hhome, hnone, rfl⟩
    rw [hinsert]
    exact .done (h.insertColumn hinsert)

/-- The columns of a table that has been inserted. -/
theorem ends_insertColumns (h : e.Lists accepted) {t : TableId}
    (ht : .table t ∈ accepted.map Insertion.source) (columns : List ColumnPair) :
    Ends accepted (columns.map fun c => .column t c.source c.destination)
      (columns.foldlM (fun e c => e.insertColumn t c.source c.destination) e) := by
  induction columns generalizing e accepted with
  | nil => exact .done ((List.append_nil accepted).symm ▸ h)
  | cons c columns ih =>
    rw [List.foldlM_cons]
    refine (h.ends_insertColumn ht c.source c.destination).bind fun e' h' => ih h' ?_
    rw [List.map_append]
    exact List.mem_append_left _ ht

theorem ends_insertPair (h : e.Lists accepted) (p : TablePair) :
    Ends accepted (p.insertions) (e.insertPair p) := by
  refine (h.ends_insertTable p.source p.destination).bind fun e' h' => h'.ends_insertColumns ?_ p.columns
  rw [List.map_append]
  exact List.mem_append_right _ List.mem_cons_self

theorem ends_insertPairs (h : e.Lists accepted) (pairs : List TablePair) :
    Ends accepted (pairs.flatMap TablePair.insertions) (pairs.foldlM EquivalenceTable.insertPair e) := by
  induction pairs generalizing e accepted with
  | nil => exact .done ((List.append_nil accepted).symm ▸ h)
  | cons p pairs ih =>
    rw [List.foldlM_cons, List.flatMap_cons]
    exact (h.ends_insertPair p).bind fun e' h' => ih h'

end Lists

/-- A document is inserted call by call, up to the first id that is listed again. -/
theorem ends_ofSpec (spec : TablesSpec) : Ends [] spec.insertions (ofSpec spec) :=
  lists_empty.ends_insertPairs spec.tables

variable {spec : TablesSpec}

theorem lists_ofSpec (h : ofSpec spec = .ok e) : e.Lists spec.insertions := by
  have hends := ends_ofSpec spec
  rw [h] at hends
  cases hends with
  | done he => exact he

/-- A document makes a table just if no source id is listed twice. -/
theorem ofSpec_eq_ok_iff : (∃ e, ofSpec spec = .ok e) ↔ spec.sources.Nodup := by
  rw [← spec.map_source_insertions]
  constructor
  · rintro ⟨e, he⟩
    exact (lists_ofSpec he).distinct
  · intro hnodup
    have hends := ends_ofSpec spec
    generalize ofSpec spec = x at hends
    cases hends with
    | done => exact ⟨_, rfl⟩
    | refused hsplit _ hi =>
      rw [hsplit, List.map_append, List.map_cons] at hnodup
      exact absurd List.mem_cons_self (List.disjoint_of_nodup_append hnodup hi)

/-- The error names the first source id that is listed again. -/
theorem exists_repeated {err : MappingError} (h : ofSpec spec = .error err) :
    ∃ before id after, spec.sources = before ++ id :: after ∧ before.Nodup ∧ id ∈ before ∧
      err = id.repeated := by
  rw [← spec.map_source_insertions]
  have hends := ends_ofSpec spec
  rw [h] at hends
  cases hends with
  | refused hsplit hnodup hi =>
    exact ⟨_, _, _, by rw [hsplit, List.map_append, List.map_cons, List.nil_append], hnodup, hi, rfl⟩

/-- All tables and columns of a document are counted. -/
theorem count_ofSpec (h : ofSpec spec = .ok e) : e.tableCount = spec.tables.length ∧
    e.columnCount = (spec.tables.flatMap (·.columns)).length := by
  have hlists := lists_ofSpec h
  constructor
  · rw [tableCount, ← List.length_map Prod.fst, hlists.keys_tables, spec.map_source_insertions,
      spec.filterMap_table?_sources, List.length_map]
  · rw [columnCount, ← List.length_map Prod.fst, hlists.keys_columns, spec.map_source_insertions,
      spec.filterMap_column?_sources, List.length_map]

/-- After any calls, those that failed included, the table represents the calls that were accepted: a call in
place leaves the table that the insertion makes, and the table that there was if it fails. So a document
makes a table just if no table and no column is listed twice at the source; otherwise the first id that is
listed again is named; and all tables and columns that are listed are counted. -/
theorem insertions_represented (calls : List Insertion) (spec : TablesSpec) :
    (called calls).2.Represents (called calls).1 ∧
    (∀ (i : Insertion) (e : EquivalenceTable), i.call.run e =
      match i.add e with
      | .ok e' => .ok () e'
      | .error err => .error err e) ∧
    ((∃ e, ofSpec spec = .ok e) ↔ (spec.tables.map (·.source)).Nodup ∧
      ((spec.tables.flatMap (·.columns)).map (·.source)).Nodup) ∧
    (∀ err, ofSpec spec = .error err → ∃ before id after, spec.sources = before ++ id :: after ∧
      before.Nodup ∧ id ∈ before ∧ err = id.repeated) ∧
    ∀ e, ofSpec spec = .ok e → e.tableCount = spec.tables.length ∧
      e.columnCount = (spec.tables.flatMap (·.columns)).length := by
  refine ⟨(lists_called calls).represents, Insertion.call_run, ?_, fun err => exists_repeated,
    fun e => count_ofSpec⟩
  rw [ofSpec_eq_ok_iff, SourceId.nodup_iff, spec.filterMap_table?_sources, spec.filterMap_column?_sources]

/-- Column 11 is listed again before table 1 is. -/
example : ofSpec ⟨[⟨⟨1⟩, ⟨10⟩, [⟨⟨11⟩, ⟨110⟩⟩]⟩, ⟨⟨2⟩, ⟨20⟩, [⟨⟨11⟩, ⟨120⟩⟩]⟩, ⟨⟨1⟩, ⟨30⟩, []⟩]⟩ =
    .error (.duplicateColumn ⟨11⟩) := by decide

end EquivalenceTable

end Rehome
