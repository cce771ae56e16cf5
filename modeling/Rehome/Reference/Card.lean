import Rehome.Reference.Renaming

/-! # References of cards, dashcards and parameters

What the node of a card or dashcard holds directly, and what maps a parameter to a card. The database is
always the target of the mapping; a null id stays null. -/

namespace Rehome.Renaming

variable (r : Renaming)

/-- The id of the target database. -/
def databaseValue : Json := r.mapping.database.toJson

/-! ## Cards -/

/-- Renames the reference of a result column, and the id beside it. A name is left alone. -/
def metadataReference (column : Json) : Except MigrationError Json :=
  match column.member? "field_ref" with
  | none => .ok column
  | some reference =>
    match Clause.ofJson reference with
    | .fieldRef (.id c) => do
      let id := (← r.column c).toJson
      return (column.setMember "field_ref" (reference.setItem 1 id)).setMember "id" id
    | _ => .ok column

/-- Renames the column of a result. -/
def metadataColumn (column : Json) : Except MigrationError Json := do
  let column ← r.metadataReference column
  column.onMember "table_id" (Json.unlessNull r.tableValue)

/-- Renames what a card node holds directly. -/
def cardNode (card : Json) : Except MigrationError Json := do
  let card ← card.onMember "database_id" (Json.unlessNull fun _ => pure r.databaseValue)
  let card ← card.onMember "dataset_query" fun query =>
    pure (query.setMember "database" r.databaseValue)
  let card ← card.onMember "table_id" (Json.unlessNull r.tableValue)
  card.onMember "result_metadata" (Json.onItems r.metadataColumn)

/-! ## Dashcards -/

/-- Renames the summary of the card that is embedded in a dashcard. -/
def cardSummary (card : Json) : Except MigrationError Json := do
  let card ← card.onMember "table_id" (Json.unlessNull r.tableValue)
  card.onMember "database_id" (Json.unlessNull fun _ => pure r.databaseValue)

/-- Renames what a dashcard holds directly; its card is needed first. -/
def dashcardNode (dashcard : Json) : Plan Json := do
  let dashcard ← dashcard.onMember "card_id" (Json.unlessNull r.neededCardValue)
  dashcard.onMember "card" fun card => r.cardSummary card

/-! ## Parameters -/

/-- Renames a target `["dimension", reference]`. -/
def dimensionTarget (target : Json) : Except MigrationError Json :=
  if target.item? 0 = some (.str "dimension") then target.onItem 1 r.fieldRef else .ok target

/-- Renames the mapping of a parameter to a card. -/
def parameterMapping (mapping : Json) : Except MigrationError Json := do
  let mapping ← mapping.onMember "card_id" (Json.unlessNull r.cardValue)
  mapping.onMember "target" r.dimensionTarget

/-- Renames the card and column that the values of a parameter come from; the card is needed first. -/
def valuesSource (config : Json) : Plan Json := do
  let config ← config.onMember "card_id" (Json.unlessNull r.neededCardValue)
  config.onMember "value_field" fun field => r.fieldRef field

/-- Renames a parameter of a dashboard. -/
def parameter (p : Json) : Plan Json := p.onMember "values_source_config" r.valuesSource

end Rehome.Renaming
