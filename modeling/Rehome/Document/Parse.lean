import Rehome.Document.Json
import Rehome.Yaml.Parser

/-! # Reading documents -/

namespace Rehome.Format

def node? : Format → String → Option Node
  | .json => Node.parseJson?
  | .yaml => Yaml.parse?

/-- Reads what a text holds, if the text is a document and holds such a thing. -/
def parse {α : Type} (read? : Format → Node → Option α) (format : Format) (text : String) :
    Except MappingError α :=
  match (format.node? text).bind (read? format) with
  | some a => .ok a
  | none => .error format.error

/-- Reads a map of texts. -/
def parseTextMap (format : Format) (text : String) : Except MappingError (List (String × String)) :=
  format.parse (fun _ n => n.textMap) text

/-- Reads the document in a file. -/
def readFile {m : Type → Type} [Monad m] {α : Type} (read : String → m (Except FileError String))
    (read? : Format → Node → Option α) (path : String) : m (Except MappingError α) := do
  match ← read path with
  | .ok text => return (ofPath path).parse read? text
  | .error e => return .error (.file path e)

end Rehome.Format
