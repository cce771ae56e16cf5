import Rehome.Proofs.Json.Frame
import Rehome.Proofs.Reference.Mentions
import Rehome.Proofs.Reference.Slots

/-! # Where a document may change

All the positions of a document at which renaming its references may make a difference, told from the document
before. Most are values; the keys of columns and of click mappings are replaced where they hold a reference; and
an entry may be added in three places: the database of a query, the id of a result column, and the ids of
a click mapping and of its target. -/

namespace Rehome

/-! ## Results and parameter mappings -/

/-- A result column: its table, and where it refers to a column by id, that id in the reference and beside it. -/
inductive ResultSite (column : Json) : Sites
  | reference {f : Json} {c : ColumnId} : column.member? "field_ref" = some f →
    Clause.ofJson f = .fieldRef (.id c) → ResultSite column .value [.member "field_ref", .item 1]
  | id {f : Json} {c : ColumnId} : column.member? "field_ref" = some f →
    Clause.ofJson f = .fieldRef (.id c) → ResultSite column .entry [.member "id"]
  | table : ResultSite column .value [.member "table_id"]

/-- No key changes in a column of a result. -/
theorem ResultSite.not_key {column : Json} {p : Position} : ¬ResultSite column .key p := by
  intro hsite
  cases hsite

/-- A parameter mapping: its card, and the field reference of its dimension. -/
inductive ParameterMappingSite (mapping : Json) : Sites
  | card : ParameterMappingSite mapping .value [.member "card_id"]
  | dimension {target f : Json} {p : Position} : mapping.member? "target" = some target →
    target.item? 0 = some (.str "dimension") → target.item? 1 = some f → ReferenceSlot f p →
    ParameterMappingSite mapping .value (.member "target" :: .item 1 :: p)

/-! ## Settings -/

/-- The names in nested lists. -/
inductive NameSlot : Json → Position → Prop
  | name (n : String) : NameSlot (.str n) []
  | item {items : List Json} {n : Nat} {i : Json} {p : Position} : items[n]? = some i → NameSlot i p →
    NameSlot (.arr items) (.item n :: p)

/-- A column of a table: its reference, and its key where that holds one. -/
inductive TableColumnSite (column : Json) : Sites
  | reference {f : Json} {p : Position} : column.member? "fieldRef" = some f → ReferenceSlot f p →
    TableColumnSite column .value (.member "fieldRef" :: p)
  | key {text : String} {f : Json} : column.member? "key" = some (.str text) → KeyHolds text f →
    (Clause.ofJson f).isFieldRef → TableColumnSite column .value [.member "key"]

/-- A click mapping leads to a dimension whose second item is a field reference `f`. -/
def MapsTo (mapping f : Json) : Prop :=
  ∃ dimension, Renaming.mappedDimension? mapping = some dimension ∧ dimension.item? 1 = some f ∧
    (Clause.ofJson f).isFieldRef

/-- A click mapping to a field reference: that reference, its own id and the id of its target. -/
inductive ClickMappingSite (mapping : Json) : Sites
  | dimension {f : Json} {p : Position} : MapsTo mapping f → ReferenceSlot f p →
    ClickMappingSite mapping .value (.member "target" :: .member "dimension" :: .item 1 :: p)
  | targetId {f : Json} : MapsTo mapping f → ClickMappingSite mapping .entry [.member "target", .member "id"]
  | id {f : Json} : MapsTo mapping f → ClickMappingSite mapping .entry [.member "id"]

/-- No key changes in a mapping of a click. -/
theorem ClickMappingSite.not_key {mapping : Json} {p : Position} : ¬ClickMappingSite mapping .key p := by
  intro hsite
  cases hsite

/-- A click: the card or dashboard that it leads to, and its mappings with their keys. -/
inductive ClickSite (click : Json) : Sites
  | target : ClickSite click .value [.member "targetId"]
  | key {members : List (String × Json)} {e : String × Json} {f : Json} :
    click.member? "parameterMapping" = some (.obj members) → e ∈ members → MapsTo e.2 f →
    ClickSite click .key [.member "parameterMapping", .member e.1]
  | mapping {members : List (String × Json)} {e : String × Json} {c : Change} {p : Position} :
    click.member? "parameterMapping" = some (.obj members) → e ∈ members → ClickMappingSite e.2 c p →
    ClickSite click c (.member "parameterMapping" :: .member e.1 :: p)

/-- Settings: names of columns, columns of tables, the keys of column settings that hold references, and clicks. -/
inductive SettingsSite (settings : Json) : Sites
  | name {key : String} {v : Json} {p : Position} : key ∈ Renaming.nameSettings →
    settings.member? key = some v → NameSlot v p → SettingsSite settings .value (.member key :: p)
  | tableColumn {items : List Json} {n : Nat} {column : Json} {c : Change} {p : Position} :
    settings.member? "table.columns" = some (.arr items) → items[n]? = some column → TableColumnSite column c p →
    SettingsSite settings c (.member "table.columns" :: .item n :: p)
  | columnKey {members : List (String × Json)} {e : String × Json} {f : Json} :
    settings.member? "column_settings" = some (.obj members) → e ∈ members → KeyHolds e.1 f →
    (Clause.ofJson f).isFieldRef → SettingsSite settings .key [.member "column_settings", .member e.1]
  | columnClick {members : List (String × Json)} {e : String × Json} {click : Json} {c : Change} {p : Position} :
    settings.member? "column_settings" = some (.obj members) → e ∈ members →
    e.2.member? "click_behavior" = some click → ClickSite click c p →
    SettingsSite settings c (.member "column_settings" :: .member e.1 :: .member "click_behavior" :: p)
  | click {click : Json} {c : Change} {p : Position} : settings.member? "click_behavior" = some click →
    ClickSite click c p → SettingsSite settings c (.member "click_behavior" :: p)

/-! ## Documents -/

/-- What cards and dashcards have in common: settings, a query, and parameter mappings. -/
inductive InnerSite (card : Json) : Sites
  | settings {s : Json} {c : Change} {p : Position} : card.member? "visualization_settings" = some s →
    SettingsSite s c p → InnerSite card c (.member "visualization_settings" :: p)
  | query {q : Json} {k : SlotKind} {p : Position} : card.query? = some q → QuerySlot .queryPart q k p →
    InnerSite card .value (.member "dataset_query" :: .member "query" :: p)
  | mapping {items : List Json} {n : Nat} {mapping : Json} {c : Change} {p : Position} :
    card.member? "parameter_mappings" = some (.arr items) → items[n]? = some mapping →
    ParameterMappingSite mapping c p → InnerSite card c (.member "parameter_mappings" :: .item n :: p)

/-- A card: its database and its table, the database of its query, and its results. -/
inductive CardSite (card : Json) : Sites
  | inner {c : Change} {p : Position} : InnerSite card c p → CardSite card c p
  | database : CardSite card .value [.member "database_id"]
  | queryDatabase : CardSite card .entry [.member "dataset_query", .member "database"]
  | table : CardSite card .value [.member "table_id"]
  | result {items : List Json} {n : Nat} {column : Json} {c : Change} {p : Position} :
    card.member? "result_metadata" = some (.arr items) → items[n]? = some column → ResultSite column c p →
    CardSite card c (.member "result_metadata" :: .item n :: p)

/-- No key changes in the query of a card. -/
theorem CardSite.not_key {card : Json} {p q : Position} (hq : q = .member "dataset_query" :: p) :
    ¬CardSite card .key q := by
  intro hsite
  cases hsite with
  | inner hsite =>
    cases hsite with
    | settings => simp at hq
    | mapping => simp at hq
  | result => simp at hq

/-- A dashcard: its card, and the table and the database in the summary of that. -/
inductive DashcardSite (dashcard : Json) : Sites
  | inner {c : Change} {p : Position} : InnerSite dashcard c p → DashcardSite dashcard c p
  | card : DashcardSite dashcard .value [.member "card_id"]
  | summaryTable : DashcardSite dashcard .value [.member "card", .member "table_id"]
  | summaryDatabase : DashcardSite dashcard .value [.member "card", .member "database_id"]

/-- A parameter: the card and the field that its values come from. -/
inductive ParameterSite (parameter : Json) : Sites
  | card : ParameterSite parameter .value [.member "values_source_config", .member "card_id"]
  | field {config f : Json} {p : Position} : parameter.member? "values_source_config" = some config →
    config.member? "value_field" = some f → ReferenceSlot f p →
    ParameterSite parameter .value (.member "values_source_config" :: .member "value_field" :: p)

/-- A dashboard: its dashcards and its parameters. -/
inductive DashboardSite (dashboard : Json) : Sites
  | dashcard {items : List Json} {n : Nat} {dashcard : Json} {c : Change} {p : Position} :
    dashboard.member? "dashcards" = some (.arr items) → items[n]? = some dashcard → DashcardSite dashcard c p →
    DashboardSite dashboard c (.member "dashcards" :: .item n :: p)
  | parameter {items : List Json} {n : Nat} {parameter : Json} {c : Change} {p : Position} :
    dashboard.member? "parameters" = some (.arr items) → items[n]? = some parameter →
    ParameterSite parameter c p → DashboardSite dashboard c (.member "parameters" :: .item n :: p)

/-- Where renaming the references of a document may make a difference. -/
def DocumentSite : EntityKind → Json → Sites
  | .card => CardSite
  | .dashboard => DashboardSite

/-! ## New keys -/

/-- No two columns of settings, and no two mappings of a click, are sent to the same key. -/
structure Renaming.KeepsApart (r : Renaming) (places : PlaceKind → Json → Prop) : Prop where
  columns {members : List (String × Json)} {keys : List String} : places .columnSettings (.obj members) →
    (members.mapM fun e => r.refKey e.1) = .ok keys → keys.Nodup
  mappings {click : Json} {members entries : List (String × Json)} : places .clickBehavior click →
    click.member? "parameterMapping" = some (.obj members) → members.mapM r.clickMapping = .ok entries →
    (entries.map Prod.fst).Nodup

theorem Renaming.KeepsApart.mono {r : Renaming} {places places' : PlaceKind → Json → Prop}
    (h : r.KeepsApart places) (hplaces : ∀ k p, places' k p → places k p) : r.KeepsApart places' where
  columns hp := h.columns (hplaces _ _ hp)
  mappings hp := h.mappings (hplaces _ _ hp)

end Rehome
