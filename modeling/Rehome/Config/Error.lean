import Rehome.Migration.Error

/-! # Errors of configurations -/

namespace Rehome

inductive ConfigError where
  | mapping (cause : MappingError)
  | label (cause : TranslateError)
  | remote (cause : RemoteError)
  /-- There are no equivalent tables. -/
  | missingTables
  /-- The equivalent tables are given in place and in a file. -/
  | ambiguousTables
  /-- A provider is to be asked, but there is none. -/
  | missingProvider
deriving DecidableEq, Repr

namespace ConfigError

def message : ConfigError → String
  | .mapping cause => cause.message
  | .label cause => cause.message
  | .remote cause => cause.message
  | .missingTables => "no equivalence table: set 'schema' or 'schema_file'"
  | .ambiguousTables => "both 'schema' and 'schema_file' are set"
  | .missingProvider => "on_miss is 'machine-translate' but no 'provider_url' is set"

/-- The messages of the errors below this one. -/
def causes : ConfigError → List String
  | .mapping cause => cause.causes
  | .label cause => cause.causes
  | _ => []

end ConfigError

end Rehome
