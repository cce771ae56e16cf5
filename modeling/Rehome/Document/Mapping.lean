import Rehome.Document.Node
import Rehome.Mapping.Basic

/-! # Mappings in documents

How equivalences, overrides and moves are written down: each is a record, and lists and maps in them may
be left out when they are empty. -/

namespace Rehome

/-! ## Equivalences -/

def ColumnPair.ofNode? (format : Format) (n : Node) : Option ColumnPair := do
  let [source, destination] ← n.fields? format ["source", "destination"] | none
  return ⟨← Node.required Node.id? source, ← Node.required Node.id? destination⟩

def TablePair.ofNode? (format : Format) (n : Node) : Option TablePair := do
  let [source, destination, columns] ← n.fields? format ["source", "destination", "columns"] | none
  return ⟨← Node.required Node.id? source, ← Node.required Node.id? destination,
    ← Node.withDefault [] (Node.listOf (ColumnPair.ofNode? format)) columns⟩

def TablesSpec.ofNode? (format : Format) (n : Node) : Option TablesSpec := do
  let [tables] ← n.fields? format ["tables"] | none
  return ⟨← Node.withDefault [] (Node.listOf (TablePair.ofNode? format)) tables⟩

def ColumnPair.toJson (c : ColumnPair) : Json :=
  .obj [("source", c.source.toJson), ("destination", c.destination.toJson)]

def TablePair.toJson (t : TablePair) : Json :=
  .obj [("source", t.source.toJson), ("destination", t.destination.toJson),
    ("columns", .arr (t.columns.map ColumnPair.toJson))]

def TablesSpec.toJson (s : TablesSpec) : Json := .obj [("tables", .arr (s.tables.map TablePair.toJson))]

/-! ## Overrides -/

def ColumnOverride.ofNode? (format : Format) (n : Node) : Option ColumnOverride := do
  let [column, table, replacement] ← n.fields? format ["column", "table", "replacement"] | none
  return ⟨← Node.required Node.id? column, ← Node.optional Node.id? table,
    ← Node.required Node.id? replacement⟩

def OverridesSpec.ofNode? (format : Format) (n : Node) : Option OverridesSpec := do
  let [columns, names] ← n.fields? format ["columns", "field_names"] | none
  return ⟨← Node.withDefault [] (Node.listOf (ColumnOverride.ofNode? format)) columns,
    ← Node.withDefault [] Node.textMap names⟩

/-- The value that is there, or null. -/
def Json.ofOption {α : Type} (toJson : α → Json) : Option α → Json
  | some a => toJson a
  | none => .null

/-- A map of texts as an object. -/
def Json.ofTextMap (entries : List (String × String)) : Json :=
  .obj (entries.map fun p => (p.1, .str p.2))

def ColumnOverride.toJson (c : ColumnOverride) : Json :=
  .obj [("column", c.column.toJson), ("table", .ofOption Ident.toJson c.table),
    ("replacement", c.replacement.toJson)]

def OverridesSpec.toJson (s : OverridesSpec) : Json :=
  .obj [("columns", .arr (s.columns.map ColumnOverride.toJson)),
    ("field_names", .ofTextMap s.fieldNames)]

/-! ## Moves -/

def Moves.ofNode? (format : Format) (n : Node) : Option Moves := do
  let [cards, dashboards] ← n.fields? format ["cards", "dashboards"] | none
  return ⟨← Node.withDefault [] (Node.mapOf Node.id? Node.id?) cards,
    ← Node.withDefault [] (Node.mapOf Node.id? Node.id?) dashboards⟩

/-- A map of ids as an object. -/
def Json.ofIdMap {kind : IdentKind} (entries : List (Ident kind × Ident kind)) : Json :=
  .obj (entries.map fun p => (toString p.1, p.2.toJson))

def Moves.toJson (m : Moves) : Json :=
  .obj [("cards", .ofIdMap m.cards), ("dashboards", .ofIdMap m.dashboards)]

end Rehome
