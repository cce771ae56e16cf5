import Rehome.Ident

/-! # Clauses of a query

A clause is a list that starts with an operator: a reference to a field or an aggregation, a comparison,
a logical connective. Every other value is a constant. Operators are compared without the blanks
around them. -/

namespace Rehome

/-- What a field reference points at. -/
inductive FieldTarget where
  | id (column : ColumnId)
  | name (name : String)
  | unknown
deriving DecidableEq, Repr

inductive Clause where
  | fieldRef (target : FieldTarget)
  | aggregationRef (index : UInt64)
  | comparison (operator : String) (arity : Nat)
  | logical (operator : String) (arity : Nat)
  | constant
  | other (operator : String)
deriving DecidableEq, Repr

/-- Operators with two operands. -/
def comparisonOperators : List String :=
  ["=", "!=", "<", ">", "<=", ">=", "<=>", "starts-with", "ends-with", "contains", "does-not-contain"]

/-- Operators with any number of operands from two on. -/
def logicalOperators : List String := ["and", "or"]

namespace FieldTarget

/-- What the second item of a field reference points at. -/
def ofItem : Option Json → FieldTarget
  | some (.str s) => .name s
  | some j => match Ident.ofJson? j with
    | some column => .id column
    | none => .unknown
  | none => .unknown

end FieldTarget

namespace Clause

/-- The clause with a given operator and operands. -/
def ofOperator (operator : String) (operands : List Json) : Clause :=
  if operator = "field" then .fieldRef (.ofItem operands.head?)
  else if operator = "aggregation" then
    match (operands.head?.bind Ident.ofJson? : Option (Ident .column)) with
    | some index => .aggregationRef index.val
    | none => .other operator
  else if comparisonOperators.contains operator then .comparison operator operands.length
  else if logicalOperators.contains operator then .logical operator operands.length
  else .other operator

def ofJson : Json → Clause
  | .arr (.str operator :: operands) => ofOperator (Text.trim operator) operands
  | _ => .constant

def isFieldRef : Clause → Bool
  | .fieldRef _ => true
  | _ => false

def isAggregationRef : Clause → Bool
  | .aggregationRef _ => true
  | _ => false

end Clause

end Rehome
