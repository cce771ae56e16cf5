import Rehome.Document.Path
import Rehome.Translator.Language

/-! # Formats of documents -/

namespace Rehome

inductive Format where
  | json
  | yaml
deriving DecidableEq, Repr

namespace Format

/-- The format of a file: JSON if its name says so, else YAML. -/
def ofPath (path : String) : Format :=
  match Path.extension? path with
  | some extension => if Language.sameLetters extension "json" then .json else .yaml
  | none => .yaml

/-- The error of a document that cannot be read. -/
def error : Format → MappingError
  | .json => .json
  | .yaml => .yaml

/-- May the fields of a record be listed in their order? -/
def listsRecords : Format → Bool
  | .json => true
  | .yaml => false

/-- May a choice be written as a map from it to null? -/
def mapsChoices : Format → Bool
  | .json => true
  | .yaml => false

end Format

end Rehome
