import Rehome.Document.Node
import Rehome.Json.Parser

/-! # JSON documents

Keys of JSON objects are strings. A key that stands for a number is written in its shortest form, and
without escapes. What is not used of a document need not denote a value: a number may be too large and
a string may hold half of a pair of code units. -/

namespace Rehome.Node

/-- A scalar that nothing can be read from. -/
def meaningless : Node := .scalar ⟨none, none, none, false, false⟩

def ofNull : Node := .scalar ⟨none, none, none, true, false⟩

def ofBool (b : Bool) : Node := .scalar ⟨none, none, some b, false, false⟩

def ofText (s : String) : Node := .scalar ⟨some s, none, none, false, false⟩

/-- The number that a key is the shortest form of. -/
def keyNat? (key : String) : Option Nat :=
  match Ident.readNat key.toList with
  | .ok n => if toString n = key then some n else none
  | .error _ => none

def ofKey (key : String) : Node := .scalar ⟨some key, keyNat? key, none, false, false⟩

/-! ## Values -/

mutual

def ofJson : Json → Node
  | .null => ofNull
  | .bool b => ofBool b
  | .int (.ofNat n) => .scalar ⟨none, some n, none, false, false⟩
  | .int (.negSucc _) | .double _ => meaningless
  | .str s => ofText s
  | .arr items => .list (ofJsonItems items)
  | .obj members => .map (ofJsonMembers members)

def ofJsonItems : List Json → List Node
  | [] => []
  | j :: rest => ofJson j :: ofJsonItems rest

def ofJsonMembers : List (String × Json) → List (Node × Node)
  | [] => []
  | (key, j) :: rest => (ofKey key, ofJson j) :: ofJsonMembers rest

end

/-! ## Texts -/

def ofLiteral (l : Json.Literal) : Node := (l.value?.map ofJson).getD meaningless

def ofPieces (pieces : List Json.Piece) : Node := ((Json.Piece.text? pieces).map ofText).getD meaningless

/-- Is a string written without code units in hexadecimal? -/
def isPlain (pieces : List Json.Piece) : Bool :=
  pieces.all fun
    | .char _ => true
    | .codeUnit _ => false

def ofKeyPieces (pieces : List Json.Piece) : Node :=
  match Json.Piece.text? pieces with
  | some key => if isPlain pieces then ofKey key else ofText key
  | none => meaningless

/-- Builds the nodes of a text; repeated keys are kept. -/
def builder : Json.Builder Node Node where
  null := ofNull
  bool := ofBool
  number := some ∘ ofLiteral
  str := some ∘ ofPieces
  key := some ∘ ofKeyPieces
  arr := .list
  obj := .map

/-- The node of a JSON text, with containers nested to any depth. -/
def parseJson? (text : String) : Option Node := Json.readWith builder none text

end Rehome.Node
