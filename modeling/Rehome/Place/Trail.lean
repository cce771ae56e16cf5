/-! # Places of a document

A document is visited place by place. The trail of a visit lists the places it is inside of, the place
itself included; it tells a card from a dashcard, and is shown in logs. -/

namespace Rehome

/-- The kinds of places. -/
inductive PlaceKind where
  | dashboard
  /-- A card, or a dashcard below a dashboard. -/
  | card
  | queryPart
  | join
  | visualizationSettings
  /-- The settings of all columns, or of one when titled. -/
  | columnSettings
  | seriesSettings
  | tableColumns
  | clickBehavior
  | parameter
  | parameterMapping
  | tabs
  | paramValues
  | paramFields
deriving DecidableEq, Repr

namespace PlaceKind

def all : List PlaceKind :=
  [dashboard, card, queryPart, join, visualizationSettings, columnSettings, seriesSettings,
   tableColumns, clickBehavior, parameter, parameterMapping, tabs, paramValues, paramFields]

def name : PlaceKind → String
  | .dashboard => "DASHBOARD"
  | .card => "CARD"
  | .queryPart => "QUERY_PART"
  | .join => "JOIN"
  | .visualizationSettings => "VISUALIZATION_SETTINGS"
  | .columnSettings => "COLUMN_SETTINGS"
  | .seriesSettings => "SERIES_SETTINGS"
  | .tableColumns => "TABLE_COLUMNS"
  | .clickBehavior => "CLICK_BEHAVIOR"
  | .parameter => "PARAMETER"
  | .parameterMapping => "PARAMETER_MAPPING"
  | .tabs => "TABS"
  | .paramValues => "PARAM_VALUES"
  | .paramFields => "PARAM_FIELDS"

def ofName? (s : String) : Option PlaceKind := all.find? (·.name == s)

end PlaceKind

/-- A place, with the title it is known by if it has one. -/
structure Place where
  kind : PlaceKind
  title : Option String
deriving DecidableEq, Repr

instance : ToString Place where
  toString p := match p.title with
    | some title => s!"{p.kind.name} (title: {title})"
    | none => p.kind.name

/-- The places that a visit is inside of, the innermost first. -/
abbrev Trail := List Place

namespace Trail

def push (kind : PlaceKind) (title : Option String) (trail : Trail) : Trail := ⟨kind, title⟩ :: trail

/-- Leaves the innermost place. -/
def pop (trail : Trail) : Trail := trail.tail

@[simp] theorem pop_push (kind : PlaceKind) (title : Option String) (trail : Trail) :
    (trail.push kind title).pop = trail := rfl

/-- The kind of the innermost place. -/
def kind? (trail : Trail) : Option PlaceKind := trail.head?.map (·.kind)

/-- The kind of the place around the innermost one. -/
def outerKind? (trail : Trail) : Option PlaceKind := trail.tail.head?.map (·.kind)

def hasKind (kind : PlaceKind) (trail : Trail) : Bool := trail.any (·.kind == kind)

/-- The titles, outermost first. -/
def titles (trail : Trail) : List (Option String) := trail.reverse.map (·.title)

/-- The places, outermost first. -/
def text (trail : Trail) : String :=
  "--[bottom]--" ++ " | ".intercalate (trail.reverse.map toString) ++ "--[top]--"

end Trail

end Rehome
