import Rehome.Migration.Memory
import Rehome.Migration.Session
import Rehome.Proofs.Data.Assoc

/-! # Requests to an installation in memory

What a fetch answers, and what requests about one entity leave as it is for all others. -/

namespace Rehome.Memory

/-- A fetch writes itself down, and may use up a failure. -/
def fetched (entity : Entity) (m : Memory) : Memory :=
  match m.fetchFailures.lookup entity with
  | some _ => { m with fetchFailures := m.fetchFailures.eraseP (·.1 == entity) }.write (.fetch entity false)
  | none => m.write (.fetch entity true)

/-- What a fetch answers depends on the failures that are set, and on the document of the entity. -/
def answer (entity : Entity) (failures : List (Entity × Nat)) (document? : Option Json) :
    Except RemoteError Json :=
  match failures.lookup entity with
  | some status => .error (.status entity status)
  | none =>
    match document? with
    | some document => .ok document
    | none => .error (.notFound entity)

variable {entity : Entity} {failures : List (Entity × Nat)}

theorem answer_of_some {status : Nat} (h : failures.lookup entity = some status) (document? : Option Json) :
    answer entity failures document? = .error (.status entity status) := by
  cases document? <;> rw [answer, h]

theorem answer_of_none (h : failures.lookup entity = none)
    (document? : Option Json) :
    answer entity failures document? = document?.elim (.error (.notFound entity)) .ok := by
  cases document? <;> rw [answer, h] <;> rfl

theorem document?_of_answer {document? : Option Json} {d : Json}
    (h : answer entity failures document? = .ok d) : document? = some d := by
  unfold answer at h
  split at h
  · cases h
  · split at h
    · rw [Except.ok.inj h]
    · cases h

theorem fetch_eq (entity : Entity) (m : Memory) :
    m.fetch entity = (answer entity m.fetchFailures (m.document? entity), m.fetched entity) := by
  have hwrite : (m.write (.fetch entity true)).document? entity = m.document? entity := rfl
  cases hfailure : m.fetchFailures.lookup entity with
  | some status => simp only [fetch, takeNext, answer, fetched, hfailure]
  | none =>
    cases hdocument : m.document? entity with
    | some document => simp only [fetch, takeNext, answer, fetched, hfailure, hwrite, hdocument]
    | none => simp only [fetch, takeNext, answer, fetched, hfailure, hwrite, hdocument]

/-! ## Other entities -/

/-- What can be fetched for others than an entity is the same. -/
structure Beside (entity : Entity) (m m' : Memory) : Prop where
  document? : ∀ e ≠ entity, m'.document? e = m.document? e
  fetchFailures : ∀ e ≠ entity, m'.fetchFailures.lookup e = m.fetchFailures.lookup e

variable {m m' m'' : Memory}

theorem Beside.refl (entity : Entity) (m : Memory) : Beside entity m m := ⟨fun _ _ => rfl, fun _ _ => rfl⟩

theorem Beside.trans (h : Beside entity m m') (h' : Beside entity m' m'') : Beside entity m m'' where
  document? e he := (h'.document? e he).trans (h.document? e he)
  fetchFailures e he := (h'.fetchFailures e he).trans (h.fetchFailures e he)

theorem beside_fetch (entity : Entity) (m : Memory) : Beside entity m (m.fetch entity).2 := by
  rw [fetch_eq, fetched]
  split
  · exact ⟨fun _ _ => rfl, fun e he => Assoc.lookup_eraseP_of_ne he m.fetchFailures⟩
  · exact ⟨fun _ _ => rfl, fun _ _ => rfl⟩

theorem beside_push (entity : Entity) (document : Json) (m : Memory) : Beside entity m (m.push entity document).2 := by
  rw [push, takeNext]
  cases m.pushFailures.lookup entity with
  | some status => exact ⟨fun _ _ => rfl, fun _ _ => rfl⟩
  | none =>
    dsimp only
    rw [store]
    split
    · exact ⟨fun e he => Assoc.lookup_put_of_ne he document m.documents, fun _ _ => rfl⟩
    · exact ⟨fun _ _ => rfl, fun _ _ => rfl⟩

end Rehome.Memory

namespace Rehome.Migrating

/-- A fetch in a session with an installation in memory. -/
theorem fetch_memory {μ : Type} (entity : Entity) (s : Session Memory μ) : fetch entity s =
    ((Memory.answer entity s.remote.fetchFailures (s.remote.document? entity)).mapError .remote,
      { s with remote := s.remote.fetched entity }) := by
  show ((Memory.fetch entity s.remote).1.mapError _, { s with remote := (Memory.fetch entity s.remote).2 }) = _
  rw [Memory.fetch_eq]

end Rehome.Migrating
