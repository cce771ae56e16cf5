import Rehome.Mapping.Error
import Rehome.Translator.Language

/-! # Errors of translating -/

namespace Rehome

inductive TranslateError where
  | miss (text : String)
  | unexpectedLanguage (text detected : String) (target : Language)
  | noProvider
  | provider (detail : String)
  | http
  | terms
  | file (path : String) (cause : FileError)
deriving DecidableEq, Repr

namespace TranslateError

def message : TranslateError → String
  | .miss text => s!"no translation found for '{text}'"
  | .unexpectedLanguage text detected target =>
    s!"sentence '{text}' does not seem to be in English nor the target language ({target.name}); "
      ++ s!"detected '{detected}'"
  | .noProvider => "machine translation requested but no provider is configured"
  | .provider detail => s!"translation provider error: {detail}"
  | .http => "http error"
  | .terms => "term dictionary error"
  | .file path cause => s!"io error reading {path}: {cause.message}"

/-- Could the same request succeed later? -/
def isTransient : TranslateError → Bool
  | .http | .provider _ => true
  | _ => false

/-- The messages of the errors below this one. -/
def causes : TranslateError → List String
  | .file _ cause => [cause.message]
  | _ => []

end TranslateError

end Rehome
