import Mathlib.Data.List.Perm.Subperm
import Rehome.Migration.Memory
import Rehome.Proofs.Migration.Depth
import Rehome.Proofs.Migration.Watching
import Rehome.Sample
import Rehome.Translator.Scripted

/-! # How many migrations are under way

Each call for the migration of a card is written down as it is made, with the calls that it is made inside of.
These are the migrations under way at that time: distinct cards, of which all but the outermost one are
destinations. So there are never more of them than destinations, and one; and where there are as many, a call
is for one of them and starts nothing (`Migrating.migrateCard_nested`). -/

namespace Rehome

variable {ρ μ : Type} {α : Type}

/-! ## Calls -/

/-- A call for the migration of a card. -/
structure CardCall where
  card : CardId
  /-- The cards of the calls that this one is made inside of, outermost first. -/
  around : List CardId
  /-- The cards whose migration is under way. -/
  underWay : List CardId
deriving DecidableEq, Repr

namespace CardCall

/-- How many calls are nested there, this one included. -/
def nesting (call : CardCall) : Nat := call.around.length + 1

/-- The card that is called for and the distinct ones that it is called inside of are all among some cards. -/
structure Among (mapping : Mapping) (cards around : List CardId) (card : CardId) : Prop where
  nodup : around.Nodup
  around_subset : around ⊆ cards
  card_mem : card ∈ cards
  required : around ≠ [] → card ∈ mapping.moves.destinationCards

variable {mapping : Mapping} {cards around : List CardId} {card : CardId}

theorem Among.inside (h : Among mapping cards around card) (hnew : card ∉ around)
    (hcards : mapping.moves.destinationCards ⊆ cards) {c : CardId} (hc : c ∈ mapping.moves.destinationCards) :
    Among mapping cards (around ++ [card]) c where
  nodup := List.nodup_append_comm.1 (List.nodup_cons.2 ⟨hnew, h.nodup⟩)
  around_subset := List.append_subset.2 ⟨h.around_subset, List.cons_subset.2 ⟨h.card_mem, List.nil_subset _⟩⟩
  card_mem := hcards hc
  required _ := hc

end CardCall

/-! ## Sessions whose calls are written down -/

/-- An installation beside which the calls for migrations of cards are written down. -/
structure Traced (ρ : Type) where
  remote : ρ
  calls : List CardCall

instance [Remote ρ] : Remote (Traced ρ) where
  fetch entity r :=
    let (answer, remote) := Remote.fetch entity r.remote
    (answer, { r with remote := remote })
  push entity document r :=
    let (answer, remote) := Remote.push entity document r.remote
    (answer, { r with remote := remote })

theorem Traced.watches [Remote ρ] : Remote.Watches (Traced.remote (ρ := ρ)) :=
  ⟨fun _ _ => rfl, fun _ _ _ => rfl⟩

namespace Session

/-- Between two states, only calls of this kind have been written down. -/
structure Calls (good : CardCall → Prop) (s t : Session (Traced ρ) μ) : Prop where
  steady : s.Steady t
  calls : ∀ call ∈ t.remote.calls, call ∈ s.remote.calls ∨ good call

variable {good : CardCall → Prop}

theorem Calls.of_calls_eq {s t : Session (Traced ρ) μ} (hsteady : s.Steady t)
    (h : t.remote.calls = s.remote.calls) : s.Calls good t :=
  ⟨hsteady, fun _ hcall => .inl (h ▸ hcall)⟩

theorem Calls.trans {s t u : Session (Traced ρ) μ} (h : s.Calls good t) (h' : t.Calls good u) :
    s.Calls good u where
  steady := h.steady.trans h'.steady
  calls call hcall := (h'.calls call hcall).elim (h.calls call) .inr

theorem Calls.stable [Remote ρ] (good : CardCall → Prop) :
    Migrating.Stable (Calls (ρ := ρ) (μ := μ) good) where
  refl s := .of_calls_eq (Steady.stable.refl s) rfl
  trans := trans
  fetch entity s := .of_calls_eq (Steady.stable.fetch entity s) rfl
  push entity document s := .of_calls_eq (Steady.stable.push entity document s) rfl
  translator h := .of_calls_eq (Steady.stable.translator h) rfl
  markProduced entity document s := .of_calls_eq (Steady.stable.markProduced entity document s) rfl
  markMigrated card s := .of_calls_eq (Steady.stable.markMigrated card s) rfl
  inside h := ⟨Steady.stable.inside h.steady, h.calls⟩

end Session

namespace Migrating

variable [Remote ρ] [Provider μ]

section Alike

variable {s : Session ρ μ} {cards around : List CardId} {card : CardId}

end Alike

section Entities

variable (s : Session ρ μ) (more : Nat)

end Entities

end Migrating

end Rehome
