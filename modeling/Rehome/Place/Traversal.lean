import Rehome.Place.Collect

/-! # Traversals

A traversal visits the places of a document with one stack, which lists the places it is inside of. A place is
pushed before what it holds is visited and popped afterwards, also when a visit fails. Each part of a document
has a result of its own, that the results of its parts are merged into one after the other. -/

namespace Rehome

/-- Computations with a stack of places, which is there also after a failure. -/
abbrev Stacked (ε : Type) (m : Type → Type) := ExceptT ε (StateT Trail m)

/-- Computations of a part of a document, with what has been collected of the part. -/
abbrev Gathering (α ε : Type) (m : Type → Type) := StateT α (Stacked ε m)

namespace Traversal

variable {α ε β : Type} {m : Type → Type} [Monad m]

/-! ## The stack -/

/-- Acts inside of a place: it is pushed before, and popped afterwards, whether the action fails or not. -/
def within (kind : PlaceKind) (title : Option String) (act : Stacked ε m β) : Stacked ε m β :=
  fun trail => do
    let (result, trail) ← act (trail.push kind title)
    return (result, trail.pop)

/-- Acts inside of a place on behalf of the part that it is in. -/
def inside (kind : PlaceKind) (title : Option String) (act : Gathering α ε m β) : Gathering α ε m β :=
  fun collected => within kind title (act collected)

variable (visit : Trail → Json → ExceptT ε m (α × Json))

/-- Visits a value; it is at the place on top of the stack. -/
def here (j : Json) : Stacked ε m (α × Json) := fun trail => do
  let result ← visit trail j
  return (result, trail)

/-! ## Results -/

variable [Mergeable α]

/-- A part of a document, with what is collected of it. -/
def collected (act : Gathering α ε m Json) : Stacked ε m (α × Json) := do
  let (j, a) ← act Mergeable.empty
  return (a, j)

/-- A part of a document, as one whose result is merged. -/
def merged (part : Stacked ε m (α × Json)) : Gathering α ε m Json := fun collected => do
  let (a, j) ← part
  return (j, Mergeable.merge collected a)

/-- Visits a place that holds no other. -/
def place (kind : PlaceKind) (title : Option String) (j : Json) : Gathering α ε m Json :=
  merged (within kind title (here visit j))

/-! ## Queries -/

mutual

/-- A query: its nested query, its joins, then the query itself. -/
def query : Json → Stacked ε m (α × Json)
  | .obj members => within .queryPart none <| collected do
    let nested ← nestedQuery members
    let joins ← joinsOf members
    merged (here visit (.obj (Walk.putBack "joins" joins (Walk.putBack "source-query" nested members))))
  | j => collected (pure j)

/-- The nested query that members hold; none if there is no such query. -/
def nestedQuery : List (String × Json) → Gathering α ε m (Option Json)
  | [] => pure none
  | (k, j) :: rest =>
    if k = "source-query" then (if j.isObj then some <$> merged (query j) else pure none)
    else nestedQuery rest

/-- The joins that members hold; none if there is no list of joins. -/
def joinsOf : List (String × Json) → Gathering α ε m (Option Json)
  | [] => pure none
  | (k, j) :: rest =>
    if k = "joins" then joinList j
    else joinsOf rest

/-- A list of joins. -/
def joinList : Json → Gathering α ε m (Option Json)
  | .arr items => (some ∘ Json.arr) <$> joins items
  | _ => pure none

def joins : List Json → Gathering α ε m (List Json)
  | [] => pure []
  | j :: rest => do return (← join j) :: (← joins rest)

/-- A join: its nested query, then the join itself. Both are parts of the query that joins. -/
def join : Json → Gathering α ε m Json
  | .obj members => inside .join (Walk.titleOf "alias" members) do
    let nested ← nestedQuery members
    merged (here visit (.obj (Walk.putBack "source-query" nested members)))
  | j => pure j

end

/-! ## Cards -/

/-- The click behaviour of one column, below the settings of the column. -/
def columnClick (key : String) (column : Json) : Gathering α ε m Json :=
  column.onMember "click_behavior" <| Json.onObj fun click =>
    merged (within .columnSettings (some key) (within .clickBehavior none (here visit click)))

/-- Settings: series, table columns, the clicks of columns, columns, the click, then the settings. -/
def settings (j : Json) : Stacked ε m (α × Json) :=
  within .visualizationSettings none <| collected do
    let j ← j.onMember "series_settings" (Json.onObj (place visit .seriesSettings none))
    let j ← j.onMember "table.columns" (Json.onArr (place visit .tableColumns none))
    let j ← j.onMember "column_settings" (Json.onMembers (columnClick visit))
    let j ← j.onMember "column_settings" (Json.onObj (place visit .columnSettings none))
    let j ← j.onMember "click_behavior" (Json.onObj (place visit .clickBehavior none))
    merged (here visit j)

/-- A card or dashcard: its settings, its query, its parameter mappings, then the card itself. -/
def card (j : Json) : Stacked ε m (α × Json) :=
  within .card (Walk.cardTitle j) <| collected do
    let j ← j.onMember "visualization_settings" (Json.onObj fun j => merged (settings visit j))
    let j ← j.onMember "dataset_query"
      (Json.onMember "query" (Json.onObj fun j => merged (query visit j)))
    let j ← j.onMember "parameter_mappings"
      (Json.onItems (Json.onObj (place visit .parameterMapping none)))
    merged (here visit j)

/-! ## Dashboards -/

/-- A dashboard: its dashcards, tabs, parameters, their values and fields, then the dashboard. -/
def dashboard (j : Json) : Stacked ε m (α × Json) :=
  within .dashboard (j.text? "name") <| collected do
    let j ← j.onMember "dashcards" (Json.onItems (Json.onObj fun j => merged (card visit j)))
    let j ← j.onMember "tabs" (Json.onArr (place visit .tabs none))
    let j ← j.onMember "parameters"
      (Json.onItems (Json.onObj fun j => place visit .parameter (j.text? "name") j))
    let j ← j.onMember "param_values" (Json.unlessNull (place visit .paramValues none))
    let j ← j.onMember "param_fields" (Json.unlessNull (place visit .paramFields none))
    merged (here visit j)

/-! ## Documents -/

/-- Traverses the document of a card or dashboard on top of a stack. -/
def document (kind : EntityKind) (visit : Trail → Json → ExceptT ε m (α × Json)) (j : Json) :
    Stacked ε m (α × Json) :=
  match kind with
  | .card => card visit j
  | .dashboard => dashboard visit j

/-- Traverses a document with a stack of its own. -/
def run (kind : EntityKind) (visit : Trail → Json → ExceptT ε m (α × Json)) (j : Json) :
    ExceptT ε m (α × Json) := ExceptT.mk do
  let (result, _) ← document kind visit j []
  return result

/-- Traverses a document with visits that cannot fail. -/
def runSurely (kind : EntityKind) (visit : Trail → Json → m (α × Json)) (j : Json) : m (α × Json) := do
  let result : Except Empty (α × Json) ← run kind (fun trail j => ExceptT.lift (visit trail j)) j
  match result with
  | .ok r => return r
  | .error e => nomatch e

end Traversal

end Rehome
