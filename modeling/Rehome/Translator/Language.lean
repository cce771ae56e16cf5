import Rehome.Text.Blank

/-! # Languages of labels -/

namespace Rehome

inductive Language where
  | en
  | fr
deriving DecidableEq, Repr

namespace Language

/-- The code that providers know the language by. -/
def code : Language → String
  | .en => "en"
  | .fr => "fr"

/-- The key of the language in a term dictionary. -/
def name : Language → String
  | .en => "EN"
  | .fr => "FR"

/-- Are the words after the first one written in lower case? -/
def usesSentenceCase : Language → Bool
  | .en => false
  | .fr => true

/-- The same text without regard to the case of the letters of ASCII. -/
def sameLetters (s t : String) : Bool := s.map Char.toLower == t.map Char.toLower

def matchesCode (l : Language) (s : String) : Bool := sameLetters (Text.trim s) l.code

/-- The language with a code; else the message that there is none. -/
def parse (s : String) : Except String Language :=
  let s := (Text.trim s).map Char.toLower
  if s = "en" then .ok .en
  else if s = "fr" then .ok .fr
  else .error s!"unsupported language: '{s}'"

end Language

/-- What becomes of a sentence that the dictionary does not know. -/
inductive OnMiss where
  | fail
  | keep
  | askProvider
deriving DecidableEq, Repr

namespace OnMiss

/-- How the policy is written in a configuration. -/
def key : OnMiss → String
  | .fail => "fail"
  | .keep => "mirror"
  | .askProvider => "machine-translate"

/-- How the policy is shown. -/
def name : OnMiss → String
  | .fail => "Fail"
  | .keep => "Mirror"
  | .askProvider => "MachineTranslate"

end OnMiss

end Rehome
