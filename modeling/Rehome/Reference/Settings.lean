import Rehome.Json.Parser
import Rehome.Reference.Renaming

/-! # References of visualization settings

Settings refer to columns by name, by field reference, and by keys that hold the JSON text of
`["ref", field reference]`. A map that is keyed by such texts is keyed anew: when two entries come to
the same key, the place of the first and the value of the last are kept. -/

namespace Rehome.Renaming

variable (r : Renaming)

/-! ## Names of columns -/

mutual

/-- Renames a column name, or all names in nested lists. -/
def columnNames : Json → Json
  | .str name => .str ((r.mapping.replaceName? name).getD name)
  | .arr items => .arr (columnNamesItems items)
  | j => j

def columnNamesItems : List Json → List Json
  | [] => []
  | j :: rest => columnNames j :: columnNamesItems rest

end

/-- Settings that hold names of columns. -/
def nameSettings : List String := ["graph.dimensions", "graph.metrics", "pie.dimension"]

/-- Renames the names of columns that settings hold directly. -/
def visualizationSettings : Json → Json
  | .obj members => .obj (members.map fun p =>
      (p.1, if nameSettings.contains p.1 then r.columnNames p.2 else p.2))
  | j => j

/-! ## Serialized references -/

/-- Renames `["ref", field reference]`; none if the value is something else. -/
def refValue? (j : Json) : Except MigrationError (Option Json) :=
  match j.item? 0, j.item? 1 with
  | some (.str "ref"), some field => do
    return (← r.fieldRef? field).map (j.setItem 1)
  | _, _ => .ok none

/-- Renames the text of such a value. A text that holds no reference is left alone. -/
def refKey (key : String) : Except MigrationError String :=
  match Json.parse? key with
  | none => .ok key
  | some j => do return ((← r.refValue? j).map Json.compact).getD key

/-- Renames a column of a table: its reference and its key. -/
def tableColumn (column : Json) : Except MigrationError Json := do
  let column ← column.onMember "fieldRef" r.fieldRef
  column.onMember "key" (Json.onStr r.refKey)

/-- Renames the columns of a table. -/
def tableColumns (columns : Json) : Except MigrationError Json := columns.onItems r.tableColumn

/-- Keys the settings of columns anew; the settings stay. -/
def columnSettings : Json → Except MigrationError Json
  | .obj members => do
    return .obj (Assoc.ofList (← members.mapM fun p => do return (← r.refKey p.1, p.2)))
  | j => .ok j

/-! ## Click behaviour -/

/-- Renames the card or dashboard that a click leads to. -/
def clickTarget (toDashboard : Bool) (target : Json) : Except MigrationError Json :=
  if toDashboard then r.dashboardValue target else r.cardValue target

/-- Renames a dimension whose second item is a field reference; none if it is something else. -/
def dimension? (dimension : Json) : Except MigrationError (Option Json) :=
  match dimension.item? 1 with
  | none => .ok none
  | some field => do return (← r.fieldRef? field).map (dimension.setItem 1)

/-- The dimension that a click mapping leads to. -/
def mappedDimension? (mapping : Json) : Option Json :=
  match mapping.member? "target" with
  | none => none
  | some target =>
    if target.text? "type" = some "dimension" then target.member? "dimension" else none

/-- A click mapping with a new dimension, and with the text of it as its id and its target's id. -/
def withDimension (mapping dimension : Json) : Json :=
  let id := Json.str dimension.compact
  let target := (mapping.member? "target").getD .null
  (mapping.setMember "target" ((target.setMember "dimension" dimension).setMember "id" id)).setMember
    "id" id

/-- Renames a click mapping and its key. -/
def clickMapping (entry : String × Json) : Except MigrationError (String × Json) :=
  match mappedDimension? entry.2 with
  | none => .ok entry
  | some dimension => do
    match ← r.dimension? dimension with
    | none => return entry
    | some dimension => return (dimension.compact, withDimension entry.2 dimension)

/-- Keys the mappings of a click anew. -/
def clickMappings : Json → Except MigrationError Json
  | .obj members => do return .obj (Assoc.ofList (← members.mapM r.clickMapping))
  | j => .ok j

/-- Renames the target of a click and its mappings. -/
def clickBehavior (click : Json) : Except MigrationError Json := do
  let toDashboard := click.text? "linkType" == some "dashboard"
  let click ← click.onMember "targetId" (Json.unlessNull (r.clickTarget toDashboard))
  click.onMember "parameterMapping" r.clickMappings

end Rehome.Renaming
