import Rehome.Data.Assoc
import Rehome.Mapping.Error

/-! # Equivalent tables and columns

Source tables and columns, each with its counterpart at the destination. Lookups take source ids, which
are mapped, and destination ids, which stay as they are: so a document that has been moved can be
moved again. Entries are never replaced, neither at the source nor at the destination. -/

namespace Rehome

/-- A source column and its counterpart. -/
structure ColumnPair where
  source : ColumnId
  destination : ColumnId
deriving DecidableEq, Repr

/-- A source table, its counterpart, and its columns. -/
structure TablePair where
  source : TableId
  destination : TableId
  columns : List ColumnPair
deriving DecidableEq, Repr

/-- The equivalences as they are listed in a document. -/
structure TablesSpec where
  tables : List TablePair
deriving DecidableEq, Repr

/-- Where a column was found: its destination id, and its table at source and at destination. -/
structure ResolvedColumn where
  column : ColumnId
  sourceTable : TableId
  table : TableId
deriving DecidableEq, Repr

structure EquivalenceTable where
  /-- The destination of every source table. -/
  tables : List (TableId × TableId)
  /-- The first source table of every destination. -/
  tableSources : List (TableId × TableId)
  /-- What every source column resolves to. -/
  columns : List (ColumnId × ResolvedColumn)
  /-- What every destination column resolves to: the first mapping that led to it. -/
  columnTargets : List (ColumnId × ResolvedColumn)
deriving DecidableEq, Repr

namespace EquivalenceTable

def empty : EquivalenceTable := ⟨[], [], [], []⟩

def insertTable (source destination : TableId) (e : EquivalenceTable) :
    Except MappingError EquivalenceTable :=
  match e.tables.lookup source with
  | some _ => .error (.duplicateTable source)
  | none => .ok { e with
      tables := Assoc.put source destination e.tables
      tableSources := Assoc.putNew destination source e.tableSources }

/-- Adds a column to a table that has been added before. -/
def insertColumn (sourceTable : TableId) (source destination : ColumnId) (e : EquivalenceTable) :
    Except MappingError EquivalenceTable :=
  match e.tables.lookup sourceTable with
  | none => .error (.unresolvedTable sourceTable)
  | some table =>
    match e.columns.lookup source with
    | some _ => .error (.duplicateColumn source)
    | none =>
      let resolved : ResolvedColumn := ⟨destination, sourceTable, table⟩
      .ok { e with
        columns := Assoc.put source resolved e.columns
        columnTargets := Assoc.putNew destination resolved e.columnTargets }

/-- Adds a table and its columns. -/
def insertPair (e : EquivalenceTable) (pair : TablePair) : Except MappingError EquivalenceTable := do
  let e ← e.insertTable pair.source pair.destination
  pair.columns.foldlM (fun e c => e.insertColumn pair.source c.source c.destination) e

def ofSpec (spec : TablesSpec) : Except MappingError EquivalenceTable :=
  spec.tables.foldlM insertPair empty

def isDestinationTable (e : EquivalenceTable) (table : TableId) : Bool :=
  (e.tableSources.lookup table).isSome

def isDestinationColumn (e : EquivalenceTable) (column : ColumnId) : Bool :=
  (e.columnTargets.lookup column).isSome

/-- The table of a destination column. -/
def tableOf? (e : EquivalenceTable) (column : ColumnId) : Option TableId :=
  (e.columnTargets.lookup column).map (·.table)

/-- The destination of a table. An id that is a source and a destination is taken for a source. -/
def resolveTable (e : EquivalenceTable) (table : TableId) : Except MappingError TableId :=
  match e.tables.lookup table with
  | some destination => .ok destination
  | none => if e.isDestinationTable table then .ok table else .error (.unresolvedTable table)

/-- The destination of a column, with its tables; a source id goes before a destination id. -/
def resolveColumn (e : EquivalenceTable) (column : ColumnId) : Except MappingError ResolvedColumn :=
  match (e.columns.lookup column).or (e.columnTargets.lookup column) with
  | some resolved => .ok resolved
  | none => .error (.unresolvedColumn column)

def tableCount (e : EquivalenceTable) : Nat := e.tables.length

def columnCount (e : EquivalenceTable) : Nat := e.columns.length

end EquivalenceTable

end Rehome
