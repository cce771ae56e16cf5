import Rehome.Json.Basic
import Rehome.Text.Blank

/-! # Identifiers

Databases, tables, columns, cards and dashboards have ids of 64 bits, kept apart by their kind. A JSON
number is an id only if it is an integer in range: neither a double nor a string ever is. -/

namespace Rehome

inductive IdentKind where
  | database
  | table
  | column
  | card
  | dashboard
deriving DecidableEq, Repr

/-- An id of one kind. -/
structure Ident (kind : IdentKind) where
  val : UInt64
deriving DecidableEq, Repr

abbrev DatabaseId := Ident .database
abbrev TableId := Ident .table
abbrev ColumnId := Ident .column
abbrev CardId := Ident .card
abbrev DashboardId := Ident .dashboard

/-- Why a text is no id. -/
inductive IdentError where
  | empty
  | invalidDigit
  | tooLarge
deriving DecidableEq, Repr

def IdentError.message : IdentError → String
  | .empty => "cannot parse integer from empty string"
  | .invalidDigit => "invalid digit found in string"
  | .tooLarge => "number too large to fit in target type"

namespace Ident

variable {kind : IdentKind}

def toNat (id : Ident kind) : Nat := id.val.toNat

instance : LT (Ident kind) := ⟨fun a b => a.toNat < b.toNat⟩

instance : DecidableLT (Ident kind) := fun a b => inferInstanceAs (Decidable (a.toNat < b.toNat))

theorem toNat_inj {a b : Ident kind} : a.toNat = b.toNat ↔ a = b := by
  cases a
  cases b
  simp [toNat, UInt64.toNat_inj]

instance : Trans (α := Ident kind) (· < ·) (· < ·) (· < ·) := ⟨Nat.lt_trans⟩

instance : Std.Trichotomous (α := Ident kind) (· < ·) :=
  ⟨fun _ _ hab hba => toNat_inj.1 (Nat.le_antisymm (Nat.not_lt.1 hba) (Nat.not_lt.1 hab))⟩

def ofNat? (n : Nat) : Option (Ident kind) := if n < Nat.pow 2 64 then some ⟨UInt64.ofNat n⟩ else none

/-- The id that a JSON value holds, if that is an integer in range. -/
def ofJson? : Json → Option (Ident kind)
  | .int (.ofNat n) => ofNat? n
  | _ => none

def toJson (id : Ident kind) : Json := .int id.toNat

instance : ToString (Ident kind) := ⟨fun id => toString id.toNat⟩

/-- Reads digits after a number that has been read so far; the first bad digit or the first digit that
makes the number too large is the error. -/
def readDigits (n : Nat) : List Char → Except IdentError Nat
  | [] => .ok n
  | c :: rest =>
    if ¬c.isDigit then .error .invalidDigit
    else
      let next := 10 * n + (c.toNat - '0'.toNat)
      if next < Nat.pow 2 64 then readDigits next rest else .error .tooLarge

/-- The number that a text denotes: digits, after at most one plus sign. -/
def readNat : List Char → Except IdentError Nat
  | [] => .error .empty
  | '+' :: rest => if rest.isEmpty then .error .invalidDigit else readDigits 0 rest
  | cs => readDigits 0 cs

/-- The id that exactly the characters of a text denote. -/
def parseExact (s : String) : Except IdentError (Ident kind) :=
  (readNat s.toList).map fun n => ⟨UInt64.ofNat n⟩

/-- The id that a text denotes, blanks around it ignored. -/
def parse (s : String) : Except IdentError (Ident kind) := parseExact (Text.trim s)

/-- The id that a text denotes, if it denotes one. -/
def parse? (s : String) : Option (Ident kind) := (parse s).toOption

end Ident

end Rehome
