import Rehome.Document.Parse
import Rehome.Translator.Error
import Rehome.Translator.Terms

/-! # Term dictionaries in documents

A dictionary is a YAML map of terms to maps of language keys to texts. A blank text is an empty
dictionary. -/

namespace Rehome.TermDictionary

def ofNode? (n : Node) : Option TermDictionary := (n.mapOf Node.text? Node.textMap).map ofEntries

def parse (text : String) : Except TranslateError TermDictionary :=
  if Text.trim text = "" then .ok empty
  else match (Yaml.parse? text).bind ofNode? with
    | some d => .ok d
    | none => .error .terms

/-- Reads the dictionary in a file. -/
def readFile {m : Type → Type} [Monad m] (read : String → m (Except FileError String))
    (path : String) : m (Except TranslateError TermDictionary) := do
  match ← read path with
  | .ok text => return parse text
  | .error e => return .error (.file path e)

end Rehome.TermDictionary
