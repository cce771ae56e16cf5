/-! # Places in a YAML text

A cursor is what is left of a text, with the place where that starts. -/

namespace Rehome.Yaml

def isBlank (c : Char) : Bool := c == ' ' || c == '\t'

/-- Line breaks; all but the two separators of Unicode have been made line feeds before. -/
def isBreak (c : Char) : Bool := c == '\n' || c == '\u2028' || c == '\u2029'

/-- The byte order mark, which may stand at the start of a line. -/
def isMark (c : Char) : Bool := c == '\ufeff'

/-- Does a text start with a blank or line break, or is it at its end? -/
def endsWord : List Char → Bool
  | [] => true
  | c :: _ => isBlank c || isBreak c

/-- Does a text start with the mark of the start or end of a document? -/
def isMarker : List Char → Bool
  | '-' :: '-' :: '-' :: rest | '.' :: '.' :: '.' :: rest => endsWord rest
  | _ => false

/-- A place in a text. Columns count characters and offsets count bytes. -/
structure Position where
  line : Nat
  column : Nat
  offset : Nat
deriving DecidableEq, Repr

/-- The place after a character. -/
def Position.after (c : Char) (p : Position) : Position :=
  if isBreak c then ⟨p.line + 1, 0, p.offset + c.utf8Size⟩
  else ⟨p.line, p.column + 1, p.offset + c.utf8Size⟩

structure Cursor where
  rest : List Char
  position : Position

namespace Cursor

def start (cs : List Char) : Cursor := ⟨cs, ⟨0, 0, 0⟩⟩

def atMarker (c : Cursor) : Bool := c.position.column == 0 && isMarker c.rest

/-- Moves past characters. -/
def advance : Nat → Cursor → Cursor
  | n + 1, ⟨c :: rest, p⟩ => advance n ⟨rest, p.after c⟩
  | _, cursor => cursor

/-- Moves to the next token, past spaces, comments and line breaks; tells too whether a key may start
there. Outside of brackets, one may start on every new line. Tabs are passed where none may start. -/
def skipFrom (flow keyAllowed comment : Bool) (p : Position) : List Char → Cursor × Bool
  | [] => (⟨[], p⟩, keyAllowed)
  | c :: rest =>
    if isBreak c then skipFrom flow (keyAllowed || !flow) false (p.after c) rest
    else if comment || c == ' ' || (c == '\t' && (flow || !keyAllowed))
        || (isMark c && p.column == 0) then
      skipFrom flow keyAllowed comment (p.after c) rest
    else if c == '#' then skipFrom flow keyAllowed true (p.after c) rest
    else (⟨c :: rest, p⟩, keyAllowed)

/-- Moves to the next token. -/
def skip (flow keyAllowed : Bool) (c : Cursor) : Cursor × Bool :=
  skipFrom flow keyAllowed false c.position c.rest

end Cursor

end Rehome.Yaml
