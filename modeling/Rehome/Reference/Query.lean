import Rehome.Query.Source
import Rehome.Reference.Renaming

/-! # References of query parts and joins

The parts of a query that hold references, each with the shape it must have. Nested queries and joins
are places of their own and are left alone here. -/

namespace Rehome.Renaming

variable (r : Renaming)

/-- Renames the source of a query; a card is needed first. -/
def source (j : Json) : Plan Json :=
  match Source.ofJson j with
  | .table t => do return (← r.table t).toJson
  | .card c => do
    let destination ← r.card c
    Plan.need destination
    return (Source.card destination).toJson
  | .unknown text => r.malformed (α := Json) s!"unknown source-table reference {text}"

/-! ## Filters -/

mutual

/-- Renames a filter: a tree of comparisons and connectives over field references and constants. -/
def filter : Json → Except MigrationError Json
  | .arr (operator :: operands) =>
    match Clause.ofJson (.arr (operator :: operands)) with
    | .constant => .ok (.arr (operator :: operands))
    | .fieldRef target => r.retarget target (.arr (operator :: operands))
    | .comparison name arity =>
      if arity ≠ 2 then r.malformed s!"'{name}' expects 2 operands, got {arity}"
      else do return .arr (operator :: (← filters operands))
    | .logical name arity =>
      if arity < 2 then r.malformed s!"'{name}' expects at least 2 operands, got {arity}"
      else do return .arr (operator :: (← filters operands))
    | .aggregationRef _ => r.malformed "aggregation reference in filter"
    | .other name => r.malformed s!"unsupported filter operator '{name}'"
  | j => .ok j

def filters : List Json → Except MigrationError (List Json)
  | [] => .ok []
  | j :: rest => do return (← filter j) :: (← filters rest)

end

/-! ## Other parts -/

/-- Renames the expressions that a map holds. -/
def expressions : Json → Except MigrationError Json
  | .obj members => do
    return .obj (← members.mapM fun p => do return (p.1, ← r.nested p.2))
  | j => r.malformed s!"expressions must be a map, got {j.compact}"

/-- Renames the field references in a list. -/
def breakout : Json → Except MigrationError Json
  | .arr items => do return .arr (← items.mapM r.fieldRef)
  | j => r.malformed s!"breakout must be a list, got {j.compact}"

/-- Renames an ordering, a list of a direction and a reference. -/
def ordering (j : Json) : Except MigrationError Json :=
  match j.item? 1 with
  | none => r.malformed s!"order-by entry {j.compact}"
  | some reference => do return j.setItem 1 (← r.fieldRef reference)

def orderings : Json → Except MigrationError Json
  | .arr items => do return .arr (← items.mapM r.ordering)
  | j => r.malformed s!"order-by must be a list, got {j.compact}"

/-- Renames what a query part has under one of its keys. -/
def queryMember (key : String) (j : Json) : Plan Json :=
  if key = "source-table" then r.source j
  else if key = "filter" then r.filter j
  else if key = "aggregation" ∨ key = "fields" then r.nested j
  else if key = "expressions" then r.expressions j
  else if key = "breakout" then r.breakout j
  else if key = "order-by" then r.orderings j
  else return j

/-- Renames a query part, key by key. -/
def queryPart (j : Json) : Plan Json := j.onMembers r.queryMember

/-- Renames what a join has under one of its keys. -/
def joinMember (key : String) (j : Json) : Plan Json :=
  if key = "source-table" then r.source j
  else if key = "condition" ∨ key = "fields" then r.nested j
  else return j

/-- Renames a join, key by key. -/
def join (j : Json) : Plan Json := j.onMembers r.joinMember

end Rehome.Renaming
