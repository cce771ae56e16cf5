import Rehome.Yaml.Scalar

/-! # YAML tokens

A text is cut into tokens, among them the starts and ends of blocks, which follow from columns. That a
scalar or a collection in brackets is a key shows only at its colon: what may turn out to be a key is
remembered as a candidate, and the tokens of a key are put in front of it later. -/

namespace Rehome.Yaml

inductive Token where
  /-- Three dashes, at the start of a document. -/
  | documentStart
  /-- Three dots, at the end of a document. -/
  | documentEnd
  | blockList
  | blockMap
  | blockEnd
  | openList
  | closeList
  | openMap
  | closeMap
  | comma
  | dash
  | key
  | colon
  | scalar (node : Node)
deriving Inhabited

/-- What may turn out to be a key. -/
structure Candidate where
  /-- The number of tokens in front of it. -/
  index : Nat
  position : Position
  /-- Must it be a key, since it stands in the column of the keys of a block? -/
  isRequired : Bool

/-- A key ends on the line where it starts, and has at most so many bytes. -/
def maxKeyLength : Nat := 1024

/-- Is a place too far behind a candidate for its colon? -/
def Candidate.isPast (p : Position) (k : Candidate) : Bool :=
  k.position.line < p.line || k.position.offset + maxKeyLength < p.offset

/-- How far a text has been cut. -/
structure Lexer where
  cursor : Cursor
  /-- The tokens so far, in reverse. -/
  tokens : List Token
  count : Nat
  /-- The columns of the open blocks, innermost first. -/
  columns : List Nat
  candidate : Option Candidate
  /-- The candidates of the open brackets, innermost first, and of what they stand in. -/
  outer : List (Option Candidate)
  /-- May a key start here? -/
  keyAllowed : Bool

namespace Lexer

def start (cs : List Char) : Lexer := ⟨.start cs, [], 0, [], none, [], true⟩

variable (l : Lexer)

/-- Is the lexer inside of brackets? -/
def inFlow : Bool := !l.outer.isEmpty

def column : Nat := l.cursor.position.column

/-- The least column of the lines of a scalar in the innermost block. -/
def indent : Nat :=
  match l.columns with
  | [] => 0
  | column :: _ => column + 1

def push (token : Token) : Lexer := { l with tokens := token :: l.tokens, count := l.count + 1 }

/-- Adds a token of some characters. -/
def take (token : Token) (length : Nat) : Lexer :=
  { l.push token with cursor := l.cursor.advance length }

/-- Puts tokens in front of those from an index on. -/
def insert (index : Nat) (tokens : List Token) : Lexer :=
  { l with
    tokens := l.tokens.take (l.count - index) ++ tokens.reverse ++ l.tokens.drop (l.count - index)
    count := l.count + tokens.length }

/-! ## Candidates -/

/-- Forgets the candidate, which must not be one that has to be a key. -/
def dropCandidate : Option Lexer :=
  if l.candidate.any (·.isRequired) then none else some { l with candidate := none }

/-- Forgets the candidate if it is too far behind. Those outside of the brackets around it need no look:
each is looked at when its brackets have been closed. -/
def dropPast : Option Lexer :=
  if l.candidate.any (·.isPast l.cursor.position) then l.dropCandidate else some l

/-- Remembers that what starts here may be a key. -/
def addCandidate : Option Lexer :=
  if l.keyAllowed then do
    let l ← l.dropCandidate
    let isRequired := !l.inFlow && l.columns.head? == some l.column
    return { l with candidate := some ⟨l.count, l.cursor.position, isRequired⟩ }
  else some l

/-! ## Blocks -/

/-- The columns of the blocks that stay open at a column, and the number of the others. -/
def openAt (column : Nat) : List Nat → List Nat × Nat
  | [] => ([], 0)
  | c :: rest =>
    if column < c then
      let (kept, closed) := openAt column rest
      (kept, closed + 1)
    else (c :: rest, 0)

/-- Ends the blocks further to the right than a column. -/
def closeBlocks (column : Nat) : Lexer :=
  if l.inFlow then l
  else
    let (columns, closed) := openAt column l.columns
    { l.insert l.count (List.replicate closed .blockEnd) with columns := columns }

/-- Ends all blocks. -/
def closeAllBlocks : Lexer :=
  if l.inFlow then l
  else { l.insert l.count (List.replicate l.columns.length .blockEnd) with columns := [] }

/-- Does a block start at a column? -/
def startsBlock (column : Nat) : Bool := !l.inFlow && l.columns.head?.all (· < column)

/-- Starts a block here, unless it has been started. -/
def openBlock (token : Token) : Lexer :=
  if l.startsBlock l.column then { l.push token with columns := l.column :: l.columns } else l

/-! ## Tokens one by one -/

/-- A mark of the start or end of a document. -/
def takeMarker (token : Token) : Option Lexer := do
  let l ← l.closeAllBlocks.dropCandidate
  return { l.take token 3 with keyAllowed := false }

def openBracket (token : Token) : Option Lexer := do
  let l ← l.addCandidate
  return { l.take token 1 with
    candidate := none, outer := l.candidate :: l.outer, keyAllowed := true }

def closeBracket (token : Token) : Option Lexer := do
  let l ← l.dropCandidate
  let l := { l.take token 1 with keyAllowed := false }
  match l.outer with
  | [] => return l
  | candidate :: outer => return { l with candidate := candidate, outer := outer }

def takeComma : Option Lexer := do
  let l ← l.dropCandidate
  return { l.take .comma 1 with keyAllowed := true }

/-- The dash of an item of a block. -/
def takeDash : Option Lexer := do
  guard (l.inFlow || l.keyAllowed)
  let l ← (l.openBlock .blockList).dropCandidate
  return { l.take .dash 1 with keyAllowed := true }

/-- The mark of a key. -/
def takeKeyMark : Option Lexer := do
  guard (l.inFlow || l.keyAllowed)
  let l ← (l.openBlock .blockMap).dropCandidate
  return { l.take .key 1 with keyAllowed := !l.inFlow }

/-- The colon behind a key. -/
def takeColon : Option Lexer :=
  match l.candidate with
  | some k =>
    let column := k.position.column
    let l := if l.startsBlock column then
        { l.insert k.index [.blockMap, .key] with columns := column :: l.columns }
      else l.insert k.index [.key]
    some { l.take .colon 1 with candidate := none, keyAllowed := false }
  | none => do
    guard (l.inFlow || l.keyAllowed)
    return { (l.openBlock .blockMap).take .colon 1 with keyAllowed := !l.inFlow }

/-- A scalar; behind one that line breaks follow a key may start. -/
def takeScalar : Option Lexer := do
  let l ← l.addCandidate
  let (node, cursor, crossed) ← readScalar l.inFlow l.indent l.cursor
  return { l.push (.scalar node) with cursor := cursor, keyAllowed := crossed }

/-- Takes the token at the cursor, where there is one. -/
def takeNext : Option Lexer :=
  if l.cursor.atMarker then
    l.takeMarker (if l.cursor.rest.head? == some '-' then .documentStart else .documentEnd)
  else match l.cursor.rest with
  | '[' :: _ => l.openBracket .openList
  | '{' :: _ => l.openBracket .openMap
  | ']' :: _ => l.closeBracket .closeList
  | '}' :: _ => l.closeBracket .closeMap
  | ',' :: _ => l.takeComma
  | '-' :: rest => if endsWord rest then l.takeDash else l.takeScalar
  | '?' :: rest => if l.inFlow || endsWord rest then l.takeKeyMark else l.takeScalar
  | ':' :: rest => if l.inFlow || endsWord rest then l.takeColon else l.takeScalar
  | _ => l.takeScalar

/-- Moves to the next token, where blocks may end. -/
def skip : Option Lexer := do
  let (cursor, keyAllowed) := l.cursor.skip l.inFlow l.keyAllowed
  let l ← { l with cursor := cursor, keyAllowed := keyAllowed }.dropPast
  return l.closeBlocks l.column

/-- Cuts what is left of the text; each token takes at least one of the `n` characters that are
allowed. At the end, all blocks end. -/
def finish : Nat → Lexer → Option (List Token)
  | n, l => do
    let l ← l.skip
    if l.cursor.rest.isEmpty then
      let l ← l.closeAllBlocks.dropCandidate
      return l.tokens.reverse
    match n with
    | 0 => failure
    | n + 1 => finish n (← l.takeNext)

end Lexer

/-- The tokens of a text. -/
def tokens (cs : List Char) : Option (List Token) := Lexer.finish cs.length (.start cs)

end Rehome.Yaml
