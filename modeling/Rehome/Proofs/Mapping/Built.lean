import Rehome.Mapping.Basic
import Rehome.Proofs.Data.Assoc
import Rehome.Proofs.Data.Except

/-! # Equivalence tables that are built up

An equivalence table is built from the empty one by adding tables and columns, so what every addition
keeps holds of every table: whatever a table or column resolves to is a destination table or column. -/

namespace Rehome

namespace EquivalenceTable

variable {e e' : EquivalenceTable}

/-- The equivalence tables that can be built. -/
inductive Built : EquivalenceTable → Prop
  | empty : Built empty
  /-- A table may be added. -/
  | insertTable {e e' : EquivalenceTable} {source destination : TableId} : Built e →
    e.insertTable source destination = .ok e' → Built e'
  /-- A column may be added to a table. -/
  | insertColumn {e e' : EquivalenceTable} {table : TableId} {source destination : ColumnId} : Built e →
    e.insertColumn table source destination = .ok e' → Built e'

theorem built_ofSpec {spec : TablesSpec} (h : ofSpec spec = .ok e) : Built e := by
  refine Except.foldlM_invariant (fun e pair e' he hpair => ?_) Built.empty h
  rw [insertPair] at hpair
  cases htable : e.insertTable pair.source pair.destination with
  | error _ =>
    rw [htable] at hpair
    cases hpair
  | ok t =>
    rw [htable] at hpair
    exact Except.foldlM_invariant (fun _ _ _ h hc => .insertColumn h hc) (.insertTable he htable) hpair

/-- Is a column one of those that are mapped? -/
def isSourceColumn (e : EquivalenceTable) (column : ColumnId) : Bool := (e.columns.lookup column).isSome

theorem columns_insertTable {source destination : TableId}
    (h : e.insertTable source destination = .ok e') :
    e'.columns = e.columns ∧ e'.columnTargets = e.columnTargets := by
  rw [insertTable] at h
  split at h
  · cases h
  · obtain rfl := Except.ok.inj h
    exact ⟨rfl, rfl⟩

theorem insertColumn_cases {table : TableId} {source destination : ColumnId}
    (h : e.insertColumn table source destination = .ok e') :
    ∃ r : ResolvedColumn, r.column = destination ∧ e'.columns = Assoc.put source r e.columns ∧
      e'.columnTargets = Assoc.putNew destination r e.columnTargets := by
  rw [insertColumn] at h
  split at h
  · cases h
  split at h
  · cases h
  · obtain rfl := Except.ok.inj h
    exact ⟨_, rfl, rfl, rfl⟩

/-- What a column is known to resolve to is a destination column. -/
theorem Built.isDestinationColumn (h : Built e) {c : ColumnId} {r : ResolvedColumn}
    (hr : e.columns.lookup c = some r ∨ e.columnTargets.lookup c = some r) :
    e.isDestinationColumn r.column := by
  induction h with
  | empty => simp [EquivalenceTable.empty] at hr
  | insertTable _ hinsert ih =>
    obtain ⟨hcolumns, htargets⟩ := columns_insertTable hinsert
    rw [hcolumns, htargets] at hr
    rw [EquivalenceTable.isDestinationColumn, htargets]
    exact ih hr
  | @insertColumn e e' table source destination _ hinsert ih =>
    obtain ⟨r', rfl, hcolumns, htargets⟩ := insertColumn_cases hinsert
    have hkeep : e.isDestinationColumn r.column → e'.isDestinationColumn r.column := by
      intro hold
      rw [EquivalenceTable.isDestinationColumn, htargets, Assoc.lookup_putNew, Option.isSome_or]
      exact Bool.or_eq_true_iff.2 (.inl hold)
    have hnew : e'.isDestinationColumn r'.column := by
      rw [EquivalenceTable.isDestinationColumn, htargets, Assoc.lookup_putNew, if_pos rfl,
        Option.isSome_or]
      simp
    rw [hcolumns, htargets, Assoc.lookup_put, Assoc.lookup_putNew] at hr
    by_cases hrr : r = r'
    · rwa [hrr]
    · refine hkeep (ih (hr.imp (fun h => ?_) fun h => ?_))
      · split at h
        · exact absurd (Option.some.inj h).symm hrr
        · exact h
      · obtain h | ⟨-, h⟩ := Option.or_eq_some_iff.1 h
        · exact h
        · split at h
          · exact absurd (Option.some.inj h).symm hrr
          · cases h

theorem insertTable_cases {source destination : TableId} (h : e.insertTable source destination = .ok e') :
    e'.tables = Assoc.put source destination e.tables ∧
      e'.tableSources = Assoc.putNew destination source e.tableSources := by
  rw [insertTable] at h
  split at h
  · cases h
  · obtain rfl := Except.ok.inj h
    exact ⟨rfl, rfl⟩

theorem tables_insertColumn {table : TableId} {source destination : ColumnId}
    (h : e.insertColumn table source destination = .ok e') :
    e'.tables = e.tables ∧ e'.tableSources = e.tableSources := by
  rw [insertColumn] at h
  split at h
  · cases h
  split at h
  · cases h
  · obtain rfl := Except.ok.inj h
    exact ⟨rfl, rfl⟩

/-- What a table is known to resolve to is a destination table. -/
theorem Built.isDestinationTable (h : Built e) {t d : TableId} (hd : e.tables.lookup t = some d) :
    e.isDestinationTable d := by
  induction h with
  | empty => simp [EquivalenceTable.empty] at hd
  | @insertTable e e' source destination _ hinsert ih =>
    obtain ⟨htables, hsources⟩ := insertTable_cases hinsert
    rw [htables, Assoc.lookup_put] at hd
    rw [EquivalenceTable.isDestinationTable, hsources, Assoc.lookup_putNew, Option.isSome_or]
    split at hd
    · obtain rfl := Option.some.inj hd
      simp
    · exact Bool.or_eq_true_iff.2 (.inl (ih hd))
  | insertColumn _ hinsert ih =>
    obtain ⟨htables, hsources⟩ := tables_insertColumn hinsert
    rw [htables] at hd
    rw [EquivalenceTable.isDestinationTable, hsources]
    exact ih hd

end EquivalenceTable

namespace Mapping

/-- What takes the place of a table is a destination table. -/
theorem isDestinationTable_of_resolveTable {m : Mapping} (h : m.tables.Built) {t t' : TableId}
    (ht : m.resolveTable t = .ok t') : m.tables.isDestinationTable t' := by
  rw [resolveTable, EquivalenceTable.resolveTable] at ht
  split at ht
  · next d hd =>
    obtain rfl := Except.ok.inj ht
    exact h.isDestinationTable hd
  · split at ht
    · next hdestination =>
      obtain rfl := Except.ok.inj ht
      exact hdestination
    · cases ht

/-- What takes the place of a column is a destination column, or what an override puts in the place of
one. -/
theorem replaceColumn_cases {m : Mapping} (h : m.tables.Built) {c c' : ColumnId}
    (hc : m.replaceColumn c = .ok c') :
    m.tables.isDestinationColumn c' ∨ m.overrides.isReplacement c' := by
  rw [replaceColumn] at hc
  split at hc
  · next r hr =>
    have hr : m.tables.columns.lookup c = some r ∨ m.tables.columnTargets.lookup c = some r := by
      rw [EquivalenceTable.resolveColumn] at hr
      split at hr
      · next r' hr' =>
        obtain rfl := Except.ok.inj hr
        exact (Option.or_eq_some_iff.1 hr').imp_right And.right
      · cases hr
    obtain rfl := Except.ok.inj hc
    cases hreplacement : m.overrides.replacement? r.column r.table with
    | none => exact .inl (h.isDestinationColumn hr)
    | some c' =>
      refine .inr (List.any_eq_true.2 ?_)
      obtain hlookup | ⟨-, hlookup⟩ := Option.or_eq_some_iff.1 hreplacement
      · exact ⟨_, Assoc.mem_of_lookup hlookup, beq_self_eq_true c'⟩
      · exact ⟨_, Assoc.mem_of_lookup hlookup, beq_self_eq_true c'⟩
  · split at hc
    · next hreplacement =>
      obtain rfl := Except.ok.inj hc
      exact .inr hreplacement
    · cases hc

end Mapping

end Rehome
