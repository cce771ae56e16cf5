import Rehome.Json.Basic
import Rehome.Place.Trail

/-! # Text slots

Which texts of a place are shown to the user. A slot is a string: a member of the place itself, or a
member of the objects that the place holds. `mapSlots` acts on the slots of a place in order, and
`slots` lists them. -/

namespace Rehome.Label

/-- Where the slots of a place are. -/
inductive Layout where
  /-- Members whose key is accepted. -/
  | members (accepts : String → Bool)
  /-- One member of every object that is a member. -/
  | ofMembers (key : String)
  /-- One member of every object that is an item. -/
  | ofItems (key : String)
  | none

/-- Does a setting hold text? -/
def isTextSetting (key : String) : Bool :=
  key == "text" || "title_text".toList.isSuffixOf key.toList || key == "card.title"
    || key == "card.description"

/-- The slots of each kind of place. -/
def layout : PlaceKind → Layout
  | .card => .members fun key => key == "name" || key == "description"
  | .parameter => .members fun key => key == "name"
  | .dashboard => .members fun key => key == "description"
  | .visualizationSettings => .members isTextSetting
  | .seriesSettings => .ofMembers "title"
  | .columnSettings => .ofMembers "column_title"
  | .tabs => .ofItems "name"
  | _ => .none

/-- The layout of the place that a trail leads to. -/
def layoutAt (trail : Trail) : Layout :=
  match trail.kind? with
  | some kind => layout kind
  | Option.none => .none

section Effects

variable {m : Type → Type} [Monad m]

/-- Acts on the slots of a layout, in order. -/
def Layout.mapSlots (act : String → m String) : Layout → Json → m Json
  | .members accepts, j =>
    j.onMembers fun key value => if accepts key then value.onStr act else pure value
  | .ofMembers key, j => j.onMembers fun _ value => value.onMember key (Json.onStr act)
  | .ofItems key, j => j.onItems (Json.onMember key (Json.onStr act))
  | .none, j => pure j

/-- Acts on the slots of a place. -/
def mapSlots (act : String → m String) (trail : Trail) (j : Json) : m Json :=
  (layoutAt trail).mapSlots act j

end Effects

/-- The texts in the slots of a layout. -/
def Layout.slots : Layout → Json → List String
  | .members accepts, .obj ms =>
    ms.filterMap fun p => if accepts p.1 then p.2.str? else Option.none
  | .ofMembers key, .obj ms => ms.filterMap fun p => p.2.text? key
  | .ofItems key, .arr items => items.filterMap (·.text? key)
  | _, _ => []

/-- The texts in the slots of a place. -/
def slots (trail : Trail) (j : Json) : List String := (layoutAt trail).slots j

end Rehome.Label
