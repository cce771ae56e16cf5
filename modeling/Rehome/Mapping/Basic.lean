import Rehome.Mapping.Equivalence
import Rehome.Mapping.Overrides
import Rehome.Mapping.Moves

/-! # Mapping from source to destination

All that a renaming consults: the database that queries go to, equivalent tables and columns,
overrides of columns, and the new ids of cards and dashboards. -/

namespace Rehome

structure Mapping where
  database : DatabaseId
  tables : EquivalenceTable
  overrides : Overrides
  moves : Moves
deriving DecidableEq, Repr

namespace Mapping

def resolveTable (m : Mapping) (table : TableId) : Except MappingError TableId :=
  m.tables.resolveTable table

/-- The column that takes the place of a column: its counterpart, or what overrides that. A column that
is not mapped stays as it is when it is what some override puts in the place of another. -/
def replaceColumn (m : Mapping) (column : ColumnId) : Except MappingError ColumnId :=
  match m.tables.resolveColumn column with
  | .ok r => .ok ((m.overrides.replacement? r.column r.table).getD r.column)
  | .error e => if m.overrides.isReplacement column then .ok column else .error e

/-- The name that takes the place of a column name, if there is one. -/
def replaceName? (m : Mapping) (name : String) : Option String := m.overrides.name? name

end Mapping

end Rehome
