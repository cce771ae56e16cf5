import Rehome.Data.Assoc
import Rehome.Ident

/-! # Overrides of columns

A column of the destination may have to be replaced by another, in one table or in all. Overrides are
keyed by destination ids and are consulted after a column has been resolved, never before. -/

namespace Rehome

/-- One column override, for one destination table or for all. -/
structure ColumnOverride where
  column : ColumnId
  table : Option TableId
  replacement : ColumnId
deriving DecidableEq, Repr

/-- The overrides as they are listed in a document. -/
structure OverridesSpec where
  columns : List ColumnOverride
  fieldNames : List (String × String)
deriving DecidableEq, Repr

structure Overrides where
  byColumn : List ((Option TableId × ColumnId) × ColumnId)
  byName : List (String × String)
deriving DecidableEq, Repr

namespace Overrides

def none : Overrides := ⟨[], []⟩

/-- Overrides a column; an override for the same column and table is superseded. -/
def withColumn (column : ColumnId) (table : Option TableId) (replacement : ColumnId)
    (o : Overrides) : Overrides :=
  { o with byColumn := Assoc.put (table, column) replacement o.byColumn }

/-- Overrides a column name. -/
def withName (name replacement : String) (o : Overrides) : Overrides :=
  { o with byName := Assoc.put name replacement o.byName }

def ofSpec (spec : OverridesSpec) : Overrides :=
  spec.fieldNames.foldl (fun o p => o.withName p.1 p.2)
    (spec.columns.foldl (fun o c => o.withColumn c.column c.table c.replacement) none)

/-- The replacement of a column of a table; an override for the table goes before one for all. -/
def replacement? (o : Overrides) (column : ColumnId) (table : TableId) : Option ColumnId :=
  (o.byColumn.lookup (some table, column)).or (o.byColumn.lookup (Option.none, column))

/-- Is `column` what some override puts in the place of another? -/
def isReplacement (o : Overrides) (column : ColumnId) : Bool :=
  o.byColumn.any fun p => p.2 == column

def name? (o : Overrides) (name : String) : Option String := o.byName.lookup name

def isEmpty (o : Overrides) : Bool := o.byColumn.isEmpty && o.byName.isEmpty

end Overrides

end Rehome
