import Rehome.Json.Basic
import Rehome.Decimal.Shortest

/-! # Number literals

A literal without fraction and exponent that fits 64 bits is an integer, save a negative zero. Every
other one is a double: of its digits the first ones that fit 64 bits count, and the rest only move the
decimal point. Doubles are written with the fewest digits that identify them. -/

namespace Rehome.Json

/-- A number as it is written. -/
structure Literal where
  negative : Bool
  whole : List Char
  fraction : List Char
  exponent : Option (Bool × List Char)
deriving DecidableEq, Repr

namespace Literal

def digitValue (c : Char) : Nat := c.toNat - '0'.toNat

/-- The natural number that a list of digits denotes. -/
def natOf (digits : List Char) : Nat := digits.foldl (fun n c => 10 * n + digitValue c) 0

/-- Reads digits into a significand while it fits 64 bits; also counts the digits left over. -/
def takeDigits (significand : Nat) : List Char → Nat × Nat
  | [] => (significand, 0)
  | c :: rest =>
    let next := 10 * significand + digitValue c
    if next < Nat.pow 2 64 then takeDigits next rest else (significand, rest.length + 1)

/-- The exponent that is written, zero if there is none. -/
def writtenExponent (l : Literal) : Int :=
  match l.exponent with
  | none => 0
  | some (true, digits) => -(natOf digits : Int)
  | some (false, digits) => natOf digits

def toDouble? (l : Literal) : Option Binary64 :=
  let (whole, dropped) := takeDigits 0 l.whole
  let (significand, ignored) := takeDigits whole l.fraction
  let places : Int := l.fraction.length - ignored
  Binary64.ofDecimal l.negative significand (dropped - places + l.writtenExponent)

/-- The number that a literal denotes; none if it is too large for a double. -/
def value? (l : Literal) : Option Json :=
  let n := natOf l.whole
  if l.fraction.isEmpty ∧ l.exponent.isNone then
    if l.negative then
      if 0 < n ∧ n ≤ Nat.pow 2 63 then some (.int (-n)) else l.toDouble?.map .double
    else if n < Nat.pow 2 64 then some (.int n)
    else l.toDouble?.map .double
  else l.toDouble?.map .double

/-- Splits off the digits at the start of a text. -/
def spanDigits (cs : List Char) : List Char × List Char :=
  (cs.takeWhile Char.isDigit, cs.dropWhile Char.isDigit)

/-- The digits before the point: a zero alone, or digits that do not start with one. -/
def readWhole : List Char → Option (List Char × List Char)
  | '0' :: rest => some (['0'], rest)
  | cs => if (spanDigits cs).1.isEmpty then none else some (spanDigits cs)

/-- A point and at least one digit, or nothing. -/
def readFraction : List Char → Option (List Char × List Char)
  | '.' :: rest => if (spanDigits rest).1.isEmpty then none else some (spanDigits rest)
  | cs => some ([], cs)

/-- The sign and the digits after an exponent mark. -/
def readExponentDigits (cs : List Char) : Option ((Bool × List Char) × List Char) :=
  let (negative, rest) := match cs with
    | '+' :: rest => (false, rest)
    | '-' :: rest => (true, rest)
    | rest => (false, rest)
  if (spanDigits rest).1.isEmpty then none
  else some ((negative, (spanDigits rest).1), (spanDigits rest).2)

/-- An exponent mark with an exponent, or nothing. -/
def readExponent : List Char → Option (Option (Bool × List Char) × List Char)
  | 'e' :: rest | 'E' :: rest => do
    let (e, rest) ← readExponentDigits rest
    return (some e, rest)
  | cs => some (none, cs)

/-- Reads a literal and answers what follows it. -/
def read (cs : List Char) : Option (Literal × List Char) := do
  let (negative, cs) := match cs with
    | '-' :: rest => (true, rest)
    | rest => (false, rest)
  let (whole, cs) ← readWhole cs
  let (fraction, cs) ← readFraction cs
  let (exponent, cs) ← readExponent cs
  return (⟨negative, whole, fraction, exponent⟩, cs)

end Literal

/-! ## Writing -/

def natChars (n : Nat) : List Char := Nat.toDigits 10 n

def intChars : Int → List Char
  | .ofNat n => natChars n
  | .negSucc n => '-' :: natChars (n + 1)

/-- Decimal exponents that are written without an exponent mark. -/
def isPositional (exponent : Int) : Bool := -5 ≤ exponent && exponent ≤ 15

/-- A decimal with a point or an exponent mark: `1.0`, `0.00001`, `1.5e+16`. -/
def decimalChars (d : Decimal) : List Char :=
  let digits := natChars d.digits
  let exponent := d.exponent + digits.length - 1
  if isPositional exponent then
    if 0 ≤ d.exponent then digits ++ List.replicate d.exponent.toNat '0' ++ ['.', '0']
    else if 0 ≤ exponent then
      digits.take (exponent.toNat + 1) ++ '.' :: digits.drop (exponent.toNat + 1)
    else '0' :: '.' :: List.replicate (-exponent - 1).toNat '0' ++ digits
  else
    let mantissa := match digits with
      | [] | [_] => digits
      | first :: rest => first :: '.' :: rest
    let sign := if exponent < 0 then '-' else '+'
    mantissa ++ 'e' :: sign :: natChars exponent.natAbs

def doubleChars (x : Binary64) : List Char :=
  (if x.negative then ['-'] else []) ++ decimalChars x.shortest

end Rehome.Json
