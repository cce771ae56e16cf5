import Rehome.Document.Node
import Rehome.Json.Parser
import Rehome.Yaml.Cursor

/-! # YAML scalars

A scalar may run over several lines. A single line break inside it is read as a space, and of several
the first is dropped; blanks around line breaks are dropped too. Quoted scalars are texts, plain ones may
also be read as numbers, as booleans or as missing. -/

namespace Rehome.Yaml

/-! ## Gaps between words -/

/-- What was passed since the last character of a scalar, in reverse. -/
structure Gap where
  blanks : List Char
  /-- Has a line break been passed? -/
  crossed : Bool
  /-- The first line break, unless it was escaped. -/
  first : Option Char
  /-- The other line breaks. -/
  others : List Char

namespace Gap

def none : Gap := ⟨[], false, Option.none, []⟩

/-- A line break that leaves no trace. -/
def escaped : Gap := ⟨[], true, Option.none, []⟩

def isNone (g : Gap) : Bool := g.blanks.isEmpty && !g.crossed

def withBlank (c : Char) (g : Gap) : Gap := if g.crossed then g else { g with blanks := c :: g.blanks }

def withBreak (c : Char) (g : Gap) : Gap :=
  if g.crossed then { g with others := c :: g.others } else ⟨[], true, some c, []⟩

/-- What a gap is read as. -/
def text (g : Gap) : List Char :=
  if !g.crossed then g.blanks.reverse
  else match g.first, g.others with
    | some '\n', [] => [' ']
    | some '\n', others => others.reverse
    | some c, others => c :: others.reverse
    | Option.none, others => others.reverse

end Gap

/-! ## Plain scalars -/

/-- Brackets, braces and the comma, which end a plain scalar inside of brackets. -/
def isFlowMark (c : Char) : Bool :=
  c == ',' || c == '[' || c == ']' || c == '{' || c == '}'

/-- Characters that a plain scalar does not start with, whatever follows them. -/
def isReserved (c : Char) : Bool := isFlowMark c || "#&*!|>'\"%@`".toList.contains c

/-- Can a plain scalar start here? -/
def startsPlain (flow : Bool) : List Char → Bool
  | [] => false
  | c :: rest =>
    if c == '-' then !endsWord rest
    else if c == '?' || c == ':' then !flow && !endsWord rest
    else !(isBlank c || isBreak c || isReserved c)

/-- Does a plain scalar end before a character? -/
def endsPlain (flow : Bool) (indent column : Nat) (gap : Gap) (c : Char) (rest : List Char) : Bool :=
  (c == ':' && endsWord rest) || (flow && isFlowMark c) ||
    (!gap.isNone && (c == '#' || (!flow && column < indent) || (column == 0 && isMarker (c :: rest))))

/-- Reads the rest of a plain scalar; its lines start at a column of at least `indent`. Also tells
whether there are line breaks behind it. -/
def plainFrom (flow : Bool) (indent : Nat) (gap : Gap) (p : Position) :
    List Char → Option (List Char × Cursor × Bool)
  | [] => some ([], ⟨[], p⟩, gap.crossed)
  | c :: rest =>
    if isBlank c then
      if gap.crossed && p.column < indent && c == '\t' then none
      else plainFrom flow indent (gap.withBlank c) (p.after c) rest
    else if isBreak c then plainFrom flow indent (gap.withBreak c) (p.after c) rest
    else if endsPlain flow indent p.column gap c rest then some ([], ⟨c :: rest, p⟩, gap.crossed)
    else if flow && c == ':' && rest.head?.any (fun d => isFlowMark d || d == '?') then none
    else do
      let (text, after) ← plainFrom flow indent Gap.none (p.after c) rest
      return (gap.text ++ c :: text, after)

/-! ## Quoted scalars -/

/-- Reads the rest of a scalar in single quotes; a quote inside is written twice. -/
def singleFrom (gap : Gap) (p : Position) : List Char → Option (List Char × Cursor)
  | [] => none
  | '\'' :: '\'' :: rest => do
    let (text, cursor) ← singleFrom Gap.none ((p.after '\'').after '\'') rest
    return (gap.text ++ '\'' :: text, cursor)
  | '\'' :: rest => some (gap.text, ⟨rest, p.after '\''⟩)
  | c :: rest =>
    if p.column == 0 && isMarker (c :: rest) then none
    else if isBlank c then singleFrom (gap.withBlank c) (p.after c) rest
    else if isBreak c then singleFrom (gap.withBreak c) (p.after c) rest
    else do
      let (text, cursor) ← singleFrom Gap.none (p.after c) rest
      return (gap.text ++ c :: text, cursor)

/-- What an escape of one letter stands for. -/
def escapes : List (Char × Char) :=
  [('0', '\x00'), ('a', '\x07'), ('b', '\x08'), ('t', '\t'), ('\t', '\t'), ('n', '\n'), ('v', '\x0b'),
   ('f', '\x0c'), ('r', '\r'), ('e', '\x1b'), (' ', ' '), ('"', '"'), ('/', '/'), ('\\', '\\'),
   ('N', '\u0085'), ('_', '\u00a0'), ('L', '\u2028'), ('P', '\u2029')]

/-- The number of hexadecimal digits after a letter. -/
def codeLengths : List (Char × Nat) := [('x', 2), ('u', 4), ('U', 8)]

/-- The character with a code point. -/
def charOf? (n : Nat) : Option Char := if n.isValidChar then some (Char.ofNat n) else none

/-- Where in an escape a reader is. -/
inductive Escape where
  | none
  | start
  | code (left value : Nat)

/-- Reads the rest of a scalar in double quotes. -/
def doubleFrom (gap : Gap) (escape : Escape) (p : Position) : List Char → Option (List Char × Cursor)
  | [] => Option.none
  | c :: rest =>
    let put (produced : List Char) (escape : Escape) := do
      let (text, cursor) ← doubleFrom Gap.none escape (p.after c) rest
      return (gap.text ++ produced ++ text, cursor)
    match escape with
    | .none =>
      if p.column == 0 && isMarker (c :: rest) then Option.none
      else if c == '"' then some (gap.text, ⟨rest, p.after c⟩)
      else if c == '\\' then put [] .start
      else if isBlank c then doubleFrom (gap.withBlank c) .none (p.after c) rest
      else if isBreak c then doubleFrom (gap.withBreak c) .none (p.after c) rest
      else put [c] .none
    | .start =>
      if isBreak c then doubleFrom Gap.escaped .none (p.after c) rest
      else match escapes.lookup c, codeLengths.lookup c with
        | some d, _ => put [d] .none
        | Option.none, some length => put [] (.code length 0)
        | Option.none, Option.none => Option.none
    | .code left value => do
      let value := value * 16 + (← Json.Piece.hexValue? c)
      if left ≤ 1 then put [← charOf? value] .none else put [] (.code (left - 1) value)

/-! ## What plain scalars may be read as -/

/-- The value of digits in a base, if there are only such and at least one. -/
def digitsIn? (base : Nat) (cs : List Char) : Option Nat := do
  guard !cs.isEmpty
  cs.foldlM (fun n c => do
    let d ← Json.Piece.hexValue? c
    if d < base then some (n * base + d) else none) 0

/-- The number that a plain scalar stands for: it may have a sign, and a mark for the base; a decimal
number has no zero in front. Only zero may have a minus sign. -/
def natOf? (cs : List Char) : Option Nat :=
  let (negative, cs) := match cs with
    | '+' :: rest => (false, rest)
    | '-' :: rest => (true, rest)
    | _ => (false, cs)
  let n? := match cs with
    | '0' :: 'x' :: rest => digitsIn? 16 rest
    | '0' :: 'o' :: rest => digitsIn? 8 rest
    | '0' :: 'b' :: rest => digitsIn? 2 rest
    | '0' :: _ :: _ => none
    | _ => digitsIn? 10 cs
  n?.filter fun n => !negative || n == 0

def boolOf? (s : String) : Option Bool :=
  if s = "true" ∨ s = "True" ∨ s = "TRUE" then some true
  else if s = "false" ∨ s = "False" ∨ s = "FALSE" then some false
  else none

/-- Plain scalars for a missing value. -/
def nulls : List String := ["", "~", "null", "Null", "NULL"]

def plainNode (cs : List Char) : Node :=
  let s := String.ofList cs
  .scalar ⟨some s, natOf? cs, boolOf? s, nulls.contains s, cs.isEmpty⟩

def quotedNode (cs : List Char) : Node := .scalar ⟨some (String.ofList cs), none, none, false, false⟩

/-- What stands where nothing is written. -/
def absentNode : Node := plainNode []

/-- Reads a scalar; also tells whether there are line breaks behind it that belong to no other token. -/
def readScalar (flow : Bool) (indent : Nat) (c : Cursor) : Option (Node × Cursor × Bool) :=
  match c.rest with
  | '\'' :: rest => do
    let (text, cursor) ← singleFrom .none (c.position.after '\'') rest
    return (quotedNode text, cursor, false)
  | '"' :: rest => do
    let (text, cursor) ← doubleFrom .none .none (c.position.after '"') rest
    return (quotedNode text, cursor, false)
  | rest => do
    guard (startsPlain flow rest)
    let (text, cursor, crossed) ← plainFrom flow indent .none c.position rest
    return (plainNode text, cursor, crossed)

end Rehome.Yaml
