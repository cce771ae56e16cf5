import Rehome.Proofs.Mapping.Resolution
import Rehome.Proofs.Reference.Columns

/-! # Columns that are replaced once more

A column that has taken the place of another is a destination column or the replacement in an override, so
it is looked up among the destinations and, if it is none of them, among the replacements. A replacement
that is a destination column itself is taken for the latter, and its own override applies. So a column that
has been put in the place of another is stable just if no override moves it on (`replaceColumn_again`). -/

namespace Rehome

/-- A table that has been built holds the columns that it maps, the first for each destination. -/
theorem EquivalenceTable.Built.indexes {e : EquivalenceTable} (h : e.Built) : e.Indexes e.columns := by
  induction h with
  | empty => exact .empty
  | insertTable _ hinsert ih =>
    rw [(columns_insertTable hinsert).1]
    exact ih.insertTable hinsert
  | insertColumn _ hinsert ih =>
    obtain ⟨table, htable, -, rfl⟩ := insertColumn_eq_ok_iff.1 hinsert
    have hindexes := ih.insertColumn htable hinsert
    rwa [← hindexes.columns] at hindexes

namespace Mapping

variable {m : Mapping} {x y : ColumnId}

/-- An override moves a destination column on to another one, in the table where it was found first. -/
def MovesOn (m : Mapping) (column : ColumnId) : Prop :=
  ∃ table, m.tables.tableOf? column = some table ∧
    ∃ column', m.overrides.replacement? column table = some column' ∧ column' ≠ column

/-- The overrides of a destination column that is no source decide what takes its place. -/
theorem replaceColumn_of_tableOf? (h : m.tables.Built) (hy : ¬m.tables.isSourceColumn y) {table : TableId}
    (htable : m.tables.tableOf? y = some table) :
    m.replaceColumn y = .ok ((m.overrides.replacement? y table).getD y) := by
  obtain ⟨r, hr, rfl⟩ := Option.map_eq_some_iff.1 htable
  have hcolumn : r.column = y := by
    rw [h.indexes.target] at hr
    simpa using List.find?_some hr
  have hnone : m.tables.columns.lookup y = none := Option.not_isSome_iff_eq_none.1 hy
  rw [replaceColumn, EquivalenceTable.resolveColumn, hnone, hr, Option.none_or]
  simp only [hcolumn]

/-- A column that is no source and no destination stays if it is a replacement. -/
theorem replaceColumn_of_isReplacement (hy : ¬m.tables.isSourceColumn y)
    (htable : m.tables.tableOf? y = none) (hreplacement : m.overrides.isReplacement y) :
    m.replaceColumn y = .ok y := by
  have hnone : m.tables.columns.lookup y = none := Option.not_isSome_iff_eq_none.1 hy
  have htarget : m.tables.columnTargets.lookup y = none := Option.map_eq_none_iff.1 htable
  rw [replaceColumn, EquivalenceTable.resolveColumn, hnone, htarget, Option.none_or]
  exact if_pos hreplacement

/-- Where no source column is a destination or a replacement, what has taken the place of a column stays as it
is just if no override moves it on. -/
theorem replaceColumn_again (h : m.Separates) (hxy : m.replaceColumn x = .ok y) :
    m.replaceColumn y = .ok y ↔ ¬m.MovesOn y := by
  have hsource := h.not_isSourceColumn hxy
  cases htable : m.tables.tableOf? y with
  | some table =>
    rw [replaceColumn_of_tableOf? h.built hsource htable, MovesOn, Except.ok.injEq]
    cases hreplacement : m.overrides.replacement? y table with
    | none => simp [htable, hreplacement]
    | some y' => simp [htable, hreplacement]
  | none =>
    have hnot : ¬m.tables.isDestinationColumn y := by
      rw [EquivalenceTable.isDestinationColumn, Option.not_isSome_iff_eq_none]
      exact Option.map_eq_none_iff.1 htable
    have hreplacement := (replaceColumn_cases h.built hxy).resolve_left hnot
    refine iff_of_true (replaceColumn_of_isReplacement hsource htable hreplacement) ?_
    rintro ⟨table, htable', -⟩
    rw [htable] at htable'
    cases htable'

/-- The source columns are apart from the others if each that is mapped is. -/
theorem separates_of_listed (built : m.tables.Built) (h : ∀ e ∈ m.tables.columns,
    ¬m.tables.isDestinationColumn e.1 ∧ ¬m.overrides.isReplacement e.1) : m.Separates where
  built := built
  disjoint c hc := by
    obtain ⟨r, hr⟩ := Option.isSome_iff_exists.1 hc
    exact h _ (Assoc.mem_of_lookup hr)

/-- Amounts in three currencies: the second is put in the place of the first, and the third in its own. -/
def currencies : Mapping where
  database := ⟨3⟩
  tables := (EquivalenceTable.ofSpec
    ⟨[⟨⟨10⟩, ⟨110⟩, [⟨⟨100⟩, ⟨1100⟩⟩, ⟨⟨101⟩, ⟨1101⟩⟩]⟩]⟩).toOption.getD .empty
  overrides := (Overrides.none.withColumn ⟨1100⟩ (some ⟨110⟩) ⟨1101⟩).withColumn ⟨1101⟩ none ⟨1102⟩
  moves := .none

theorem separates_currencies : currencies.Separates := by
  refine separates_of_listed ?_ (by decide)
  have hspec : EquivalenceTable.ofSpec ⟨[⟨⟨10⟩, ⟨110⟩, [⟨⟨100⟩, ⟨1100⟩⟩, ⟨⟨101⟩, ⟨1101⟩⟩]⟩]⟩ =
    .ok currencies.tables := rfl
  exact EquivalenceTable.built_ofSpec hspec

theorem replaceColumn_exchanged : currencies.Separates ∧ currencies.replaceColumn ⟨101⟩ = .ok ⟨1102⟩ ∧
    ¬currencies.MovesOn ⟨1102⟩ ∧ currencies.replaceColumn ⟨1102⟩ = .ok ⟨1102⟩ := by
  have h : currencies.replaceColumn ⟨101⟩ = .ok ⟨1102⟩ := by decide
  have hstays : ¬currencies.MovesOn ⟨1102⟩ := by
    rintro ⟨table, htable, -⟩
    have hnone : currencies.tables.tableOf? ⟨1102⟩ = none := by decide
    rw [hnone] at htable
    cases htable
  exact ⟨separates_currencies, h, hstays, (replaceColumn_again separates_currencies h).2 hstays⟩

/-- A column that is put in the place of another is moved on when it is met again. -/
theorem replaceColumn_onward : currencies.Separates ∧ currencies.replaceColumn ⟨100⟩ = .ok ⟨1101⟩ ∧
    currencies.replaceColumn ⟨1101⟩ ≠ .ok ⟨1101⟩ :=
  ⟨separates_currencies, by decide, by decide⟩

end Mapping

end Rehome
