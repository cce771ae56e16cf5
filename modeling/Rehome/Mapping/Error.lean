import Rehome.Ident

/-! # Errors of mapping documents and lookups -/

namespace Rehome

/-- Why a file could not be read. -/
inductive FileError where
  | notFound
  | isDirectory
  | notDirectory
  | other (text : String)
deriving DecidableEq, Repr

def FileError.message : FileError → String
  | .notFound => "No such file or directory (os error 2)"
  | .isDirectory => "Is a directory (os error 21)"
  | .notDirectory => "Not a directory (os error 20)"
  | .other text => text

/-- What can go wrong with a mapping: an id without counterpart, an id mapped twice, a document that
cannot be read. -/
inductive MappingError where
  | unresolvedTable (table : TableId)
  | unresolvedColumn (column : ColumnId)
  | duplicateTable (table : TableId)
  | duplicateColumn (column : ColumnId)
  | file (path : String) (cause : FileError)
  | yaml
  | json
deriving DecidableEq, Repr

namespace MappingError

def message : MappingError → String
  | .unresolvedTable t => s!"table {t} is referenced at source, but no replacement is specified"
  | .unresolvedColumn c => s!"column {c} is referenced at source, but no replacement is specified"
  | .duplicateTable t => s!"source table {t} is mapped more than once"
  | .duplicateColumn c => s!"source column {c} is mapped more than once"
  | .file path cause => s!"io error reading {path}: {cause.message}"
  | .yaml => "yaml error"
  | .json => "json error"

/-- Is an id without counterpart the cause? -/
def isUnresolved : MappingError → Bool
  | .unresolvedTable _ | .unresolvedColumn _ => true
  | _ => false

/-- The messages of the errors below this one. -/
def causes : MappingError → List String
  | .file _ cause => [cause.message]
  | _ => []

end MappingError

end Rehome
