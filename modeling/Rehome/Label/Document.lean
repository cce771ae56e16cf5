import Rehome.Label.Slots
import Rehome.Migration.Error
import Rehome.Place.Traversal
import Rehome.Text.Blank

/-! # Labels of a document

The labels of a document are the texts in the slots of all its places, trimmed, without the blank ones.
They can be replaced by a table; the blanks around a label stay. -/

namespace Rehome

/-- The fetched document of an entity: it must be an object. -/
def Entity.checkDocument (entity : Entity) (j : Json) : Except MigrationError Json :=
  if j.isObj then .ok j else .error (.invalidDocument entity j.kind)

namespace Label

/-- The labels of one place. -/
def ofPlace (trail : Trail) (j : Json) : List String :=
  ((slots trail j).map Text.trim).filter (· ≠ "")

/-- A visit that collects the labels of each place. -/
def visit (trail : Trail) (j : Json) : Id (TextSet × Json) := (.ofList (ofPlace trail j), j)

/-- The labels of a document, sorted. -/
def ofDocument (kind : EntityKind) (j : Json) : TextSet :=
  (Id.run (Traversal.runSurely kind visit j)).1

/-- Replaces one text, and counts the replacement. -/
def replaceText (replacements : List (String × String)) (text : String) : StateM Nat String :=
  match replacements.lookup (Text.trim text) with
  | some replacement => do
    modify (· + 1)
    return Text.withMargins text replacement
  | none => return text

/-- A visit that replaces the labels of each place. -/
def replaceVisit (replacements : List (String × String)) (trail : Trail) (j : Json) :
    Id (Nat × Json) :=
  let (j, count) := Id.run ((mapSlots (replaceText replacements) trail j).run 0)
  (count, j)

/-- Replaces the labels of a document; also answers how many were replaced. -/
def replace (replacements : List (String × String)) (kind : EntityKind) (j : Json) : Nat × Json :=
  Id.run (Traversal.runSurely kind (replaceVisit replacements) j)

end Label

end Rehome
