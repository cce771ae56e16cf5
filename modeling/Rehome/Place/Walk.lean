import Rehome.Json.Basic
import Rehome.Migration.Entity
import Rehome.Place.Trail

/-! # Walking a document

A walk acts on every place of a card or dashboard once, and on a place only after all places inside it.
The action may change the place, have effects and fail; it is given the trail of the place.

The places of a query part are its nested query and its joins, which may hold nested queries in turn, to
any depth. All other places are at a fixed depth. -/

namespace Rehome.Walk

variable {m : Type → Type} [Monad m] (act : Trail → Json → m Json)

def titleOf (key : String) (members : List (String × Json)) : Option String :=
  (members.lookup key).bind Json.str?

/-- The title of a card, or of the card that is embedded in a dashcard. -/
def cardTitle (card : Json) : Option String :=
  (card.text? "name").or ((card.member? "card").bind (·.text? "name"))

/-- Puts a value under a key that has been walked. -/
def putBack (key : String) (value : Option Json) (members : List (String × Json)) :
    List (String × Json) :=
  match value with
  | some j => Assoc.put key j members
  | none => members

/-! ## Queries -/

mutual

/-- A query: its nested query, its joins, then the query itself. -/
def query (trail : Trail) : Json → m Json
  | .obj members => do
    let trail := trail.push .queryPart none
    let nested ← nestedQuery trail members
    let joins ← joinsOf trail members
    act trail (.obj (putBack "joins" joins (putBack "source-query" nested members)))
  | j => pure j

/-- Walks the nested query that members hold; none if there is no such query. -/
def nestedQuery (trail : Trail) : List (String × Json) → m (Option Json)
  | [] => pure none
  | (k, j) :: rest =>
    if k = "source-query" then (if j.isObj then some <$> query trail j else pure none)
    else nestedQuery trail rest

/-- Walks the joins that members hold; none if there is no list of joins. -/
def joinsOf (trail : Trail) : List (String × Json) → m (Option Json)
  | [] => pure none
  | (k, j) :: rest =>
    if k = "joins" then joinList trail j
    else joinsOf trail rest

/-- Walks a list of joins. -/
def joinList (trail : Trail) : Json → m (Option Json)
  | .arr items => (some ∘ Json.arr) <$> joins trail items
  | _ => pure none

def joins (trail : Trail) : List Json → m (List Json)
  | [] => pure []
  | j :: rest => do return (← join trail j) :: (← joins trail rest)

/-- A join: its nested query, then the join itself. -/
def join (trail : Trail) : Json → m Json
  | .obj members => do
    let trail := trail.push .join (titleOf "alias" members)
    let nested ← nestedQuery trail members
    act trail (.obj (putBack "source-query" nested members))
  | j => pure j

end

/-! ## Cards -/

/-- The click behaviour of one column. -/
def columnClick (trail : Trail) (key : String) (column : Json) : m Json :=
  column.onMember "click_behavior" (Json.onObj
    (act ((trail.push .columnSettings (some key)).push .clickBehavior none)))

/-- Settings: series, table columns, the clicks of columns, columns, the click, then the settings. -/
def settings (trail : Trail) (j : Json) : m Json := do
  let trail := trail.push .visualizationSettings none
  let j ← j.onMember "series_settings" (Json.onObj (act (trail.push .seriesSettings none)))
  let j ← j.onMember "table.columns" (Json.onArr (act (trail.push .tableColumns none)))
  let j ← j.onMember "column_settings" (Json.onMembers (columnClick act trail))
  let j ← j.onMember "column_settings" (Json.onObj (act (trail.push .columnSettings none)))
  let j ← j.onMember "click_behavior" (Json.onObj (act (trail.push .clickBehavior none)))
  act trail j

/-- A card or dashcard: its settings, its query, its parameter mappings, then the card itself. -/
def card (trail : Trail) (j : Json) : m Json := do
  let trail := trail.push .card (cardTitle j)
  let j ← j.onMember "visualization_settings" (Json.onObj (settings act trail))
  let j ← j.onMember "dataset_query" (Json.onMember "query" (Json.onObj (query act trail)))
  let j ← j.onMember "parameter_mappings"
    (Json.onItems (Json.onObj (act (trail.push .parameterMapping none))))
  act trail j

/-! ## Dashboards -/

def parameter (trail : Trail) (j : Json) : m Json :=
  act (trail.push .parameter (j.text? "name")) j

/-- A dashboard: its dashcards, tabs, parameters, their values and fields, then the dashboard. -/
def dashboard (trail : Trail) (j : Json) : m Json := do
  let trail := trail.push .dashboard (j.text? "name")
  let j ← j.onMember "dashcards" (Json.onItems (Json.onObj (card act trail)))
  let j ← j.onMember "tabs" (Json.onArr (act (trail.push .tabs none)))
  let j ← j.onMember "parameters" (Json.onItems (Json.onObj (parameter act trail)))
  let j ← j.onMember "param_values" (Json.unlessNull (act (trail.push .paramValues none)))
  let j ← j.onMember "param_fields" (Json.unlessNull (act (trail.push .paramFields none)))
  act trail j

/-- Walks the document of a card or dashboard. -/
def document (kind : EntityKind) (act : Trail → Json → m Json) (trail : Trail) (j : Json) : m Json :=
  match kind with
  | .card => card act trail j
  | .dashboard => dashboard act trail j

end Rehome.Walk
