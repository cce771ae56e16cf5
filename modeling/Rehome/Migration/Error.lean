import Rehome.Migration.Entity
import Rehome.Translator.Error

/-! # Errors of migration

An error that ends the migration of an entity names the entity whose document it was found in. -/

namespace Rehome

/-- Why an installation did not answer. -/
inductive RemoteError where
  | http
  | status (entity : Entity) (status : Nat)
  | notFound (entity : Entity)
deriving DecidableEq, Repr

namespace RemoteError

def message : RemoteError → String
  | .http => "http error"
  | .status entity code => s!"fetching {entity} returned status {code}"
  | .notFound entity => s!"{entity} not found"

end RemoteError

inductive MigrationError where
  /-- A table or column of the document has no counterpart. -/
  | unresolvedReference (owner : Entity) (cause : MappingError)
  /-- A part of the document has a shape that is not known. -/
  | malformed (owner : Entity) (detail : String)
  /-- A card of the document moves nowhere. -/
  | unknownCard (owner : Entity) (card : CardId)
  /-- A dashboard of the document moves nowhere. -/
  | unknownDashboard (owner : Entity) (dashboard : DashboardId)
  /-- A card is needed for its own migration: the cards being migrated, outermost first, and again
  the one that is needed. -/
  | cyclicReference (chain : List CardId)
  /-- Cards are nested deeper than there are cards to move to. -/
  | nestedTooDeep (card : CardId)
  /-- The installation did not accept the document. -/
  | pushRefused (entity : Entity) (status : Nat)
  /-- The document is no object. -/
  | invalidDocument (entity : Entity) (found : String)
  | remote (cause : RemoteError)
  | label (cause : TranslateError)
deriving DecidableEq, Repr

namespace MigrationError

def chainText (chain : List CardId) : String :=
  " -> ".intercalate (chain.map fun c => s!"card {c}")

def message : MigrationError → String
  | .unresolvedReference owner cause => s!"[re-writing references on {owner}] {cause.message}"
  | .malformed owner detail => s!"[re-writing references on {owner}] malformed query: {detail}"
  | .unknownCard owner card =>
    s!"[re-writing references on {owner}] card {card} is referenced, but no replacement is specified"
  | .unknownDashboard owner dashboard =>
    s!"[re-writing references on {owner}] dashboard {dashboard} is referenced, "
      ++ "but no replacement is specified"
  | .cyclicReference chain => s!"cyclic card reference: {chainText chain}"
  | .nestedTooDeep card => s!"card {card} is nested too deep"
  | .pushRefused entity status => s!"problems updating {entity}; code {status}"
  | .invalidDocument entity found =>
    s!"invalid document for {entity}: expected a JSON object, got {found}"
  | .remote cause => s!"remote error: {cause.message}"
  | .label cause => s!"translation error: {cause.message}"

/-- Could the same migration succeed later? -/
def isRetryable : MigrationError → Bool
  | .pushRefused _ _ | .remote .http | .remote (.status _ _) => true
  | _ => false

/-- Is a table or column without counterpart the cause? -/
def isUnresolved : MigrationError → Bool
  | .unresolvedReference _ _ => true
  | _ => false

/-- The messages of the errors below this one. No more is known of what ends in the transport or in a
dictionary than is in the message itself. -/
def causes : MigrationError → List String
  | .unresolvedReference _ cause => cause.message :: cause.causes
  | .remote .http | .label .http | .label .terms => []
  | .remote cause => [cause.message]
  | .label cause => cause.message :: cause.causes
  | _ => []

end MigrationError

end Rehome
