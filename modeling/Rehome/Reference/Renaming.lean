import Rehome.Json.Printer
import Rehome.Mapping.Basic
import Rehome.Query.Clause
import Rehome.Reference.Plan

/-! # Renaming references

A renaming applies a mapping to the fragments of one document and blames the owner of the document for
what it cannot resolve. Field references are lists `["field", id-or-name, options]`: the id is resolved,
a name is replaced only if it is overridden, and everything else about them stays. -/

namespace Rehome

structure Renaming where
  mapping : Mapping
  owner : Entity
deriving DecidableEq, Repr

namespace Renaming

variable (r : Renaming)

def malformed {α : Type} (detail : String) : Except MigrationError α :=
  .error (.malformed r.owner detail)

/-! ## Ids -/

def table (t : TableId) : Except MigrationError TableId :=
  (r.mapping.resolveTable t).mapError (.unresolvedReference r.owner)

def column (c : ColumnId) : Except MigrationError ColumnId :=
  (r.mapping.replaceColumn c).mapError (.unresolvedReference r.owner)

def card (c : CardId) : Except MigrationError CardId :=
  match r.mapping.moves.card? c with
  | some destination => .ok destination
  | none => .error (.unknownCard r.owner c)

def dashboard (d : DashboardId) : Except MigrationError DashboardId :=
  match r.mapping.moves.dashboard? d with
  | some destination => .ok destination
  | none => .error (.unknownDashboard r.owner d)

/-- The id that a value holds; `noun` names what was expected. -/
def readId {kind : IdentKind} (noun : String) (j : Json) : Except MigrationError (Ident kind) :=
  match Ident.ofJson? j with
  | some id => .ok id
  | none => r.malformed s!"{noun} id {j.compact}"

/-- Renames a value that holds the id of a table. -/
def tableValue (j : Json) : Except MigrationError Json := do
  return (← r.table (← r.readId "table" j)).toJson

/-- Renames a value that holds the id of a card. -/
def cardValue (j : Json) : Except MigrationError Json := do
  return (← r.card (← r.readId "card" j)).toJson

/-- Renames a value that holds the id of a dashboard. -/
def dashboardValue (j : Json) : Except MigrationError Json := do
  return (← r.dashboard (← r.readId "dashboard" j)).toJson

/-- Renames a value that holds the id of a card which is needed first. -/
def neededCardValue (j : Json) : Plan Json := do
  let destination ← (do r.card (← r.readId "card" j) : Except MigrationError CardId)
  Plan.need destination
  return destination.toJson

/-! ## Field references -/

/-- Renames what a field reference points at. -/
def retarget (target : FieldTarget) (j : Json) : Except MigrationError Json :=
  match target with
  | .id c => do return j.setItem 1 (← r.column c).toJson
  | .name n => .ok (match r.mapping.replaceName? n with
      | some n' => j.setItem 1 (.str n')
      | none => j)
  | .unknown => .ok j

/-- Renames a field reference; none if the value is something else. -/
def fieldRef? (j : Json) : Except MigrationError (Option Json) :=
  match Clause.ofJson j with
  | .fieldRef target => some <$> r.retarget target j
  | _ => .ok none

/-- Renames a value if it is a field reference. -/
def fieldRef (j : Json) : Except MigrationError Json := do
  return (← r.fieldRef? j).getD j

mutual

/-- Renames the field references in nested lists. -/
def nested : Json → Except MigrationError Json
  | .arr items => do
    match ← r.fieldRef? (.arr items) with
    | some j => return j
    | none => return .arr (← nestedItems items)
  | j => .ok j

def nestedItems : List Json → Except MigrationError (List Json)
  | [] => .ok []
  | j :: rest => do return (← nested j) :: (← nestedItems rest)

end

end Renaming

end Rehome
