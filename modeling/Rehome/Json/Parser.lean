import Rehome.Json.Number

/-! # Reading JSON text

Text is cut into tokens, and the tokens are read one by one with the list of the containers that are
still open. That list may bound how deep containers are nested. What the parts of a text are read as is
up to a builder, so that a text need not denote a value in all of its parts. -/

namespace Rehome.Json

/-! ## Strings -/

/-- A part of a string: a character, or a code unit of 16 bits written in hexadecimal. -/
inductive Piece where
  | char (c : Char)
  | codeUnit (n : Nat)
deriving DecidableEq, Repr

namespace Piece

def isHigh (n : Nat) : Bool := 0xD800 ≤ n && n < 0xDC00

def isLow (n : Nat) : Bool := 0xDC00 ≤ n && n < 0xE000

/-- Joins pairs of code units; a half without the other is no character. -/
def join : List Piece → Option (List Char)
  | [] => some []
  | .char c :: rest => (join rest).map (c :: ·)
  | .codeUnit n :: rest =>
    if isHigh n then
      match rest with
      | .codeUnit m :: rest =>
        if isLow m then
          (join rest).map (Char.ofNat (0x10000 + (n - 0xD800) * 0x400 + (m - 0xDC00)) :: ·)
        else none
      | _ => none
    else if isLow n then none
    else (join rest).map (Char.ofNat n :: ·)

/-- The text that pieces denote. -/
def text? (pieces : List Piece) : Option String := (join pieces).map String.ofList

def hexValue? (c : Char) : Option Nat :=
  if c.isDigit then some (c.toNat - '0'.toNat)
  else if 'a' ≤ c ∧ c ≤ 'f' then some (c.toNat - 'a'.toNat + 10)
  else if 'A' ≤ c ∧ c ≤ 'F' then some (c.toNat - 'A'.toNat + 10)
  else none

/-- The code unit that four hexadecimal digits denote. -/
def codeUnit? (a b c d : Char) : Option Nat := do
  return (((← hexValue? a) * 16 + (← hexValue? b)) * 16 + (← hexValue? c)) * 16 + (← hexValue? d)

/-- The character that an escape of one letter stands for. -/
def escape? : Char → Option Char
  | '"' => some '"'
  | '\\' => some '\\'
  | '/' => some '/'
  | 'b' => some '\x08'
  | 'f' => some '\x0c'
  | 'n' => some '\n'
  | 'r' => some '\r'
  | 't' => some '\t'
  | _ => none

/-- Reads the parts of a string up to its closing quote, and answers what follows that. -/
def read : List Char → Option (List Piece × List Char)
  | [] => none
  | '"' :: rest => some ([], rest)
  | '\\' :: 'u' :: a :: b :: c :: d :: rest => do
    let n ← codeUnit? a b c d
    let (pieces, rest) ← read rest
    return (.codeUnit n :: pieces, rest)
  | '\\' :: c :: rest => do
    let e ← escape? c
    let (pieces, rest) ← read rest
    return (.char e :: pieces, rest)
  | c :: rest =>
    if c.toNat < 0x20 ∨ c = '\\' then none
    else do
      let (pieces, rest) ← read rest
      return (.char c :: pieces, rest)

end Piece

/-! ## Tokens -/

inductive Token where
  | openArr
  | closeArr
  | openObj
  | closeObj
  | comma
  | colon
  | null
  | bool (b : Bool)
  | number (l : Literal)
  | str (pieces : List Piece)
deriving Repr

def isSpace (c : Char) : Bool := c == ' ' || c == '\t' || c == '\n' || c == '\r'

/-- Reads one token from a text that does not start with a space. -/
def Token.read : List Char → Option (Token × List Char)
  | '[' :: rest => some (.openArr, rest)
  | ']' :: rest => some (.closeArr, rest)
  | '{' :: rest => some (.openObj, rest)
  | '}' :: rest => some (.closeObj, rest)
  | ',' :: rest => some (.comma, rest)
  | ':' :: rest => some (.colon, rest)
  | 'n' :: 'u' :: 'l' :: 'l' :: rest => some (.null, rest)
  | 't' :: 'r' :: 'u' :: 'e' :: rest => some (.bool true, rest)
  | 'f' :: 'a' :: 'l' :: 's' :: 'e' :: rest => some (.bool false, rest)
  | '"' :: rest => do
    let (pieces, rest) ← Piece.read rest
    return (.str pieces, rest)
  | cs => do
    let (l, rest) ← Literal.read cs
    return (.number l, rest)

/-- Cuts a text into tokens; each takes at least one of the `n` characters that are allowed. -/
def Token.readAll : Nat → List Char → Option (List Token)
  | 0, cs => if cs.all isSpace then some [] else none
  | n + 1, cs =>
    match cs.dropWhile isSpace with
    | [] => some []
    | cs => do
      let (token, rest) ← Token.read cs
      return token :: (← readAll n rest)

def tokens (cs : List Char) : Option (List Token) := Token.readAll cs.length cs

/-! ## Builders -/

/-- What the parts of a text are read as: values, and the keys of objects. -/
structure Builder (α κ : Type) where
  null : α
  bool : Bool → α
  number : Literal → Option α
  str : List Piece → Option α
  key : List Piece → Option κ
  arr : List α → α
  obj : List (κ × α) → α

/-- Builds values; every number and every string must denote one. Repeated keys are kept. -/
def Builder.value : Builder Json String where
  null := .null
  bool := .bool
  number := Literal.value?
  str := fun pieces => (Piece.text? pieces).map .str
  key := Piece.text?
  arr := .arr
  obj := .obj

/-! ## Reading -/

section Reading

variable {α κ : Type}

/-- A container whose end has not been read, its parts in reverse. -/
inductive Open (α κ : Type) where
  | arr (items : List α)
  | obj (members : List (κ × α))
  | member (members : List (κ × α)) (key : κ)

/-- What may come next. -/
inductive Reading (α κ : Type) where
  | start (inner : List (Open α κ))
  | item (first : Bool) (items : List α) (outer : List (Open α κ))
  | key (first : Bool) (members : List (κ × α)) (outer : List (Open α κ))
  | colon (members : List (κ × α)) (key : κ) (outer : List (Open α κ))
  | afterItem (items : List α) (outer : List (Open α κ))
  | afterMember (members : List (κ × α)) (outer : List (Open α κ))
  | done (a : α)

namespace Reading

/-- A value has been read inside these open containers. -/
def fill (a : α) : List (Open α κ) → Reading α κ
  | [] => .done a
  | .arr items :: outer => .afterItem (a :: items) outer
  | .member members k :: outer => .afterMember ((k, a) :: members) outer
  | .obj members :: outer => .key false members outer

/-- May another container be opened inside these? -/
def mayOpen (depth : Option Nat) (stack : List (Open α κ)) : Bool :=
  depth.all fun limit => stack.length < limit

variable (b : Builder α κ) (depth : Option Nat)

/-- The start of a value is read inside these open containers, of which there may be `depth`. -/
def value (stack : List (Open α κ)) : Token → Option (Reading α κ)
  | .openArr => if mayOpen depth stack then some (.item true [] stack) else none
  | .openObj => if mayOpen depth stack then some (.key true [] stack) else none
  | .null => some (fill b.null stack)
  | .bool x => some (fill (b.bool x) stack)
  | .number l => (b.number l).map (fill · stack)
  | .str pieces => (b.str pieces).map (fill · stack)
  | _ => none

def step : Reading α κ → Token → Option (Reading α κ)
  | .start stack, token => value b depth stack token
  | .item true _ outer, .closeArr => some (fill (b.arr []) outer)
  | .item _ items outer, token => value b depth (.arr items :: outer) token
  | .key true _ outer, .closeObj => some (fill (b.obj []) outer)
  | .key _ members outer, .str pieces => (b.key pieces).map (.colon members · outer)
  | .colon members k outer, .colon => some (.start (.member members k :: outer))
  | .afterItem items outer, .comma => some (.item false items outer)
  | .afterItem items outer, .closeArr => some (fill (b.arr items.reverse) outer)
  | .afterMember members outer, .comma => some (.key false members outer)
  | .afterMember members outer, .closeObj => some (fill (b.obj members.reverse) outer)
  | _, _ => none

def finish : Reading α κ → Option α
  | .done a => some a
  | _ => none

end Reading

/-- Reads a text, with containers nested at most `depth` deep if that is given. -/
def readWith (b : Builder α κ) (depth : Option Nat) (text : String) : Option α := do
  let reading ← (← tokens text.toList).foldlM (Reading.step b depth) (.start [])
  reading.finish

end Reading

/-- Reads one value with containers nested at most `depth` deep. Repeated keys are kept. -/
def read (depth : Nat) (text : String) : Option Json := readWith .value (some depth) text

/-- How deep containers may be nested in a text. -/
def maxDepth : Nat := 127

/-! ## Repeated keys -/

mutual

/-- Keeps of every key its first place and its last value. -/
def dedup : Json → Json
  | .arr items => .arr (dedupItems items)
  | .obj members => .obj (Assoc.ofList (dedupMembers members))
  | j => j

def dedupItems : List Json → List Json
  | [] => []
  | j :: rest => dedup j :: dedupItems rest

def dedupMembers : List (String × Json) → List (String × Json)
  | [] => []
  | (k, j) :: rest => (k, dedup j) :: dedupMembers rest

end

/-- The value of a JSON text. -/
def parse? (text : String) : Option Json := (read maxDepth text).map dedup

end Rehome.Json
