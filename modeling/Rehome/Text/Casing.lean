import Rehome.Text.Blank
import Rehome.Text.Casing.Mapping
import Rehome.Text.Casing.Context

/-! # Upper and lower case

Case mappings of characters, words and sentences. A capital sigma is lowered by its position only when
a whole text is lowered; `capitalize` lowers character by character. -/

namespace Rehome.Text

/-- The image of `c` under a case mapping: listed apart, moved by a run, or `c` itself. -/
def mapCase (long : List (Nat × List Nat)) (runs : List CaseRun) (c : Char) : List Char :=
  match long.lookup c.toNat with
  | some ns => ns.map Char.ofNat
  | none => match runs.findSome? (·.image? c.toNat) with
    | some n => [Char.ofNat n]
    | none => [c]

def lowerChar (c : Char) : List Char := mapCase lowerLong lowerRuns c

def upperChar (c : Char) : List Char := mapCase upperLong upperRuns c

/-- Does a letter with case come first, once the characters that do not separate it are passed over? -/
def meetsCased (cs : List Char) : Bool :=
  match cs.dropWhile isCaseIgnorable with
  | [] => false
  | c :: _ => isCased c

/-- A capital sigma takes its final form after a cased letter when none follows. -/
def lowerSigma (before after : List Char) : Char :=
  if meetsCased before && !meetsCased after then 'ς' else 'σ'

/-- Lower case of a text; `before` holds the characters in front of it, nearest first. -/
def lowerAfter (before : List Char) : List Char → List Char
  | [] => []
  | c :: cs =>
    (if c = 'Σ' then [lowerSigma before cs] else lowerChar c) ++ lowerAfter (c :: before) cs

def lowerChars (cs : List Char) : List Char := lowerAfter [] cs

def upperChars (cs : List Char) : List Char := cs.flatMap upperChar

/-- The first character in upper case, the others in lower case. -/
def capitalizeChars : List Char → List Char
  | [] => []
  | c :: cs => upperChar c ++ cs.flatMap lowerChar

def lower (s : String) : String := String.ofList (lowerChars s.toList)

def upper (s : String) : String := String.ofList (upperChars s.toList)

def capitalize (s : String) : String := String.ofList (capitalizeChars s.toList)

/-- The words of a sentence, the first capitalized and the others in lower case. -/
def sentenceCase (s : String) : String :=
  match words s with
  | [] => ""
  | w :: ws => joinWords (capitalize w :: ws.map lower)

/-- All words but the first in lower case; a text of at most one word is left as it is. -/
def lowercaseTail (s : String) : String :=
  match words s with
  | [] | [_] => s
  | w :: ws => joinWords (w :: ws.map lower)

/-- The parts of a text between single spaces, empty ones included. -/
def spaceFields : List Char → List (List Char)
  | [] => [[]]
  | c :: cs =>
    match c == ' ', spaceFields cs with
    | true, fields => [] :: fields
    | false, [] => [[c]]
    | false, field :: fields => (c :: field) :: fields

def titleCase (s : String) : String :=
  joinWords ((spaceFields s.toList).map fun field => String.ofList (capitalizeChars field))

/-- The spellings under which a term is also known, the given one first and none twice. -/
def caseVariants (term : String) : List String :=
  [term, lower term, upper term, capitalize term, titleCase term].eraseDups

end Rehome.Text
