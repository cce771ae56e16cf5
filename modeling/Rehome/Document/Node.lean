import Rehome.Data.Assoc
import Rehome.Document.Format
import Rehome.Ident

/-! # Nodes of documents

What a document holds, whatever its format. A scalar lists what it may be read as, since that depends on
how it was written: a plain `12` in YAML is a text and a number, in JSON it is a number alone. -/

namespace Rehome

/-- What a scalar may be read as. -/
structure Scalar where
  text? : Option String
  nat? : Option Nat
  bool? : Option Bool
  /-- Does it stand for a missing value? -/
  isNull : Bool
  /-- Does it stand for an empty list or map? -/
  isEmpty : Bool
deriving DecidableEq, Repr

inductive Node where
  | scalar (s : Scalar)
  | list (items : List Node)
  | map (members : List (Node × Node))
deriving Inhabited

namespace Node

/-! ## Views -/

def scalar? : Node → Option Scalar
  | .scalar s => some s
  | _ => none

def text? (n : Node) : Option String := n.scalar?.bind (·.text?)

def nat? (n : Node) : Option Nat := n.scalar?.bind (·.nat?)

def bool? (n : Node) : Option Bool := n.scalar?.bind (·.bool?)

def isNull (n : Node) : Bool := n.scalar?.any (·.isNull)

def items? : Node → Option (List Node)
  | .list items => some items
  | .scalar s => if s.isEmpty then some [] else none
  | .map _ => none

def members? : Node → Option (List (Node × Node))
  | .map members => some members
  | .scalar s => if s.isEmpty then some [] else none
  | .list _ => none

def id? {kind : IdentKind} (n : Node) : Option (Ident kind) := n.nat?.bind Ident.ofNat?

/-! ## Collections -/

variable {α κ ν : Type}

/-- A list whose items are all read alike. -/
def listOf (item? : Node → Option α) (n : Node) : Option (List α) := do (← n.items?).mapM item?

/-- A map, sorted by key; the last value of a key counts. -/
def mapOf [LT κ] [DecidableLT κ] [DecidableEq κ] (key? : Node → Option κ) (value? : Node → Option ν)
    (n : Node) : Option (List (κ × ν)) := do
  return Assoc.sorted (← (← n.members?).mapM fun p => do return (← key? p.1, ← value? p.2))

def textMap (n : Node) : Option (List (String × String)) := n.mapOf text? text?

/-- A value that may be null. -/
def nullable (value? : Node → Option α) (n : Node) : Option (Option α) :=
  if n.isNull then some none else some <$> value? n

/-! ## Records and choices -/

/-- The value of a field, which must not be given twice. -/
def field? (members : List (String × Node)) (name : String) : Option (Option Node) :=
  match members.filter (·.1 == name) with
  | [] => some none
  | [(_, value)] => some (some value)
  | _ => none

/-- The values of the fields of a record, as far as they are given; other keys are passed over. -/
def fields? (format : Format) (names : List String) : Node → Option (List (Option Node))
  | .list items =>
    if format.listsRecords ∧ items.length ≤ names.length then
      some (items.map some ++ List.replicate (names.length - items.length) none)
    else none
  | n => do
    let members ← (← n.members?).mapM fun p => do return (← p.1.text?, p.2)
    names.mapM (field? members)

/-- A field that must be given. -/
def required (value? : Node → Option α) (field : Option Node) : Option α := field.bind value?

/-- A field that has a value also when it is not given. -/
def withDefault (default : α) (value? : Node → Option α) : Option Node → Option α
  | none => some default
  | some n => value? n

/-- A field that may be left out or be null. -/
def optional (value? : Node → Option α) (field : Option Node) : Option (Option α) :=
  withDefault none (nullable value?) field

/-- One of several choices, by its name. -/
def choice? (format : Format) (choices : List (String × α)) : Node → Option α
  | .map [(key, value)] =>
    if format.mapsChoices ∧ value.isNull then key.text?.bind (fun name => choices.lookup name) else none
  | n => n.text?.bind fun name => choices.lookup name

end Node

end Rehome
