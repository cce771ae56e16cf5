import Rehome.Json.Printer
import Rehome.Mapping.Basic

/-! # Sample documents

A small mapping, and documents it applies to: a question on a table, a question built on another card,
and a dashboard with one parameter that filters by column 100. -/

namespace Rehome.Sample

/-- Tables 10 and 20 with three columns, three cards and a dashboard; one column and one name are
overridden. -/
def tables : TablesSpec :=
  ⟨[⟨⟨10⟩, ⟨110⟩, [⟨⟨100⟩, ⟨1100⟩⟩, ⟨⟨101⟩, ⟨1101⟩⟩]⟩, ⟨⟨20⟩, ⟨120⟩, [⟨⟨200⟩, ⟨1200⟩⟩]⟩]⟩

def overrides : Overrides :=
  (Overrides.none.withColumn ⟨1101⟩ (some ⟨110⟩) ⟨1105⟩).withName "TOTAL" "TOTAL_EUR"

def moves : Moves :=
  (((Moves.none.withCard ⟨12⟩ ⟨112⟩).withCard ⟨13⟩ ⟨113⟩).withCard ⟨14⟩ ⟨114⟩).withDashboard ⟨4⟩ ⟨104⟩

def mapping : Except MappingError Mapping := do
  return ⟨⟨3⟩, ← EquivalenceTable.ofSpec tables, overrides, moves⟩

/-- A reference to a column by its id. -/
def fieldRef (column : ColumnId) : Json := .arr [.str "field", column.toJson, .null]

/-- A question over a table, grouped by a column. -/
def question (card : CardId) (name : String) (table : TableId) (column : ColumnId) : Json :=
  .obj [
    ("id", card.toJson),
    ("name", .str name),
    ("description", .null),
    ("database_id", .int 1),
    ("table_id", table.toJson),
    ("dataset_query", .obj [
      ("database", .int 1),
      ("type", .str "query"),
      ("query", .obj [
        ("source-table", table.toJson),
        ("aggregation", .arr [.arr [.str "count"]]),
        ("breakout", .arr [fieldRef column])])]),
    ("result_metadata", .arr [
      .obj [("name", .str "GROUP"), ("id", column.toJson), ("table_id", table.toJson),
        ("field_ref", fieldRef column)],
      .obj [("name", .str "count"), ("field_ref", .arr [.str "aggregation", .int 0])]]),
    ("visualization_settings", .obj [
      ("column_settings", .obj [
        ((Json.arr [.str "ref", fieldRef column]).compact,
          .obj [("column_title", .str "Group")])])])]

/-- A question built on another card. -/
def questionOnCard (card : CardId) (name : String) (source : CardId) : Json :=
  .obj [
    ("id", card.toJson),
    ("name", .str name),
    ("database_id", .int 1),
    ("table_id", .null),
    ("dataset_query", .obj [
      ("database", .int 1),
      ("type", .str "query"),
      ("query", .obj [("source-table", .str s!"card__{source}")])]),
    ("result_metadata", .arr []),
    ("visualization_settings", .obj [])]

/-- A dashcard that shows a card. -/
def dashcard (index : Nat) (card : CardId) : Json :=
  .obj [
    ("id", .int (index + 1)),
    ("card_id", card.toJson),
    ("card", .obj [("id", card.toJson), ("table_id", .int 10), ("database_id", .int 1)]),
    ("parameter_mappings", .arr [.obj [
      ("parameter_id", .str "country"),
      ("card_id", card.toJson),
      ("target", .arr [.str "dimension", fieldRef ⟨100⟩])]]),
    ("visualization_settings", .obj [])]

/-- A dashboard that shows cards. -/
def dashboard (id : DashboardId) (name : String) (cards : List CardId) : Json :=
  .obj [
    ("id", id.toJson),
    ("name", .str name),
    ("description", .str "Overview"),
    ("dashcards", .arr (cards.mapIdx dashcard)),
    ("tabs", .arr []),
    ("parameters", .arr [.obj [
      ("id", .str "country"), ("name", .str "Country"), ("type", .str "string/=")]]),
    ("param_values", .null),
    ("param_fields", .null)]

end Rehome.Sample
