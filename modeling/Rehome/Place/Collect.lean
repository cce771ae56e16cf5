import Rehome.Place.Walk

/-! # Collecting while walking

The results of the visits of a walk are merged from left to right: lists are appended, numbers added,
sets united. -/

namespace Rehome

/-- Results that can be merged, with one that adds nothing. -/
class Mergeable (α : Type) where
  empty : α
  merge : α → α → α

instance : Mergeable Unit := ⟨(), fun _ _ => ()⟩

instance : Mergeable Nat := ⟨0, (· + ·)⟩

instance {α : Type} : Mergeable (List α) := ⟨[], (· ++ ·)⟩

/-- It does not matter how results are bracketed when they are merged. -/
class LawfulMergeable (α : Type) [Mergeable α] : Prop where
  empty_merge (a : α) : Mergeable.merge Mergeable.empty a = a
  merge_empty (a : α) : Mergeable.merge a Mergeable.empty = a
  merge_assoc (a b c : α) :
    Mergeable.merge (Mergeable.merge a b) c = Mergeable.merge a (Mergeable.merge b c)

instance : LawfulMergeable Unit := ⟨fun _ => rfl, fun _ => rfl, fun _ _ _ => rfl⟩

instance : LawfulMergeable Nat := ⟨Nat.zero_add, Nat.add_zero, Nat.add_assoc⟩

instance {α : Type} : LawfulMergeable (List α) := ⟨List.nil_append, List.append_nil, List.append_assoc⟩

/-- A set of texts, listed in their order. -/
structure TextSet where
  elements : List String
  sorted : elements.Pairwise (· < ·)
deriving DecidableEq, Repr

namespace TextSet

/-- The texts of a list added to a set. -/
def add (set : TextSet) (texts : List String) : TextSet :=
  ⟨unionSorted set.elements texts, pairwise_unionSorted set.sorted texts⟩

instance : Mergeable TextSet := ⟨⟨[], .nil⟩, fun a b => a.add b.elements⟩

def ofList (texts : List String) : TextSet := add Mergeable.empty texts

end TextSet

namespace Walk

variable {m : Type → Type} [Monad m] {α : Type} [Mergeable α]

/-- An action that also has a result, as one that merges it into what has been collected. -/
def collecting (visit : Trail → Json → m (α × Json)) (trail : Trail) (j : Json) : StateT α m Json :=
  fun collected => do
    let (a, j) ← visit trail j
    return (j, Mergeable.merge collected a)

/-- Walks with an action that has results, and answers them merged, with the document. -/
def collect (walk : (Trail → Json → StateT α m Json) → Trail → Json → StateT α m Json)
    (visit : Trail → Json → m (α × Json)) (trail : Trail) (j : Json) : m (α × Json) := do
  let (j, collected) ← (walk (collecting visit) trail j).run Mergeable.empty
  return (collected, j)

end Walk

end Rehome
