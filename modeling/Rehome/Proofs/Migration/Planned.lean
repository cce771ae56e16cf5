import Rehome.Proofs.Migration.Carried
import Rehome.Proofs.Migration.Memory
import Rehome.Proofs.Reference.Needs

/-! # Migrations that follow a plan

With a translator that never asks its provider, or with none, the document of an entity settles which cards
its migration needs, in which order, and what comes of it once they have been migrated. So the migration
fetches, carries out this plan, and pushes, and does nothing else (`migrateEntity_planned`). -/

namespace Rehome

variable {ρ μ : Type} {α β : Type}

/-! ## Plans of entities -/

/-- What a new session on an installation in memory is given. Nothing is left to a provider. -/
structure Outset (μ : Type) where
  mapping : Mapping
  translator : Option (Translator μ)
  memory : Memory
  unaided : ∀ t ∈ translator, t.onMiss ≠ .askProvider

namespace Outset

/-- A new session. -/
def start (o : Outset μ) : Session Memory μ :=
  { (Session.new o.mapping o.memory : Session Memory μ) with translator := o.translator }

/-- The session has what it was given, but for what its installation may hold by now. -/
structure Governs (o : Outset μ) (s : Session Memory μ) : Prop where
  mapping : s.mapping = o.mapping
  translator : s.translator = o.translator

variable [Provider μ] (o : Outset μ)

/-- What a text becomes. -/
def translated (text : String) : Except MigrationError String :=
  match o.translator with
  | none => .ok text
  | some t => (Translator.translate text t).1.mapError .label

/-- Renames the references of one place of a document, then translates its labels. -/
def visit (owner : Entity) (trail : Trail) (j : Json) : Plan Json := do
  if trail.isEmpty then return j
  let j ← Renaming.place ⟨o.mapping, owner⟩ trail j
  Label.mapSlots (fun text => Plan.ofExcept (o.translated text)) trail j

/-- What the migration of an entity needs, and what comes of the document that the installation held at
first. -/
def plan (entity : Entity) : Plan Json :=
  match o.memory.document? entity with
  | none => Plan.ofExcept (.error (.remote (.notFound entity)))
  | some document => do
    let document ← (entity.checkDocument document : Except MigrationError Json)
    Walk.document entity.kind (o.visit entity) [] document

/-- The cards that a plan needs are ones that cards are moved to. -/
theorem needsIn_plan (entity : Entity) :
    Plan.NeedsIn {c | c ∈ o.mapping.moves.destinationCards} Json (o.plan entity) := by
  have hclosed := Plan.closed_needsIn {c | c ∈ o.mapping.moves.destinationCards}
  have hvisit (trail : Trail) (j : Json) :
      Plan.NeedsIn {c | c ∈ o.mapping.moves.destinationCards} Json (o.visit entity trail j) := by
    rw [visit]
    split
    · exact hclosed.pure j
    · refine hclosed.bind ?_ fun j => hclosed.mapSlots (fun _ => Plan.needsIn_ofExcept _) trail j
      exact Renaming.needsIn_place (r := ⟨o.mapping, entity⟩) trail j
  rw [plan]
  split
  · exact Plan.needsIn_ofExcept _
  · exact hclosed.bind (Plan.needsIn_ofExcept _) (hclosed.document hvisit entity.kind [])

theorem translated_eq : o.translated = Translator.rendering o.translator := by
  funext text
  unfold translated Translator.rendering
  cases o.translator <;> rfl

theorem visit_eq (owner : Entity) :
    o.visit owner = (⟨o.mapping, owner⟩ : Renaming).translated (Translator.rendering o.translator) := by
  funext trail j
  rw [visit, o.translated_eq]
  cases trail <;> rfl

end Outset

namespace Migrating

variable [Provider μ] {o : Outset μ}

/-! ## Migrations by plan -/

/-- An installation that still holds the document of an entity that it held at first, and that answers the
fetch of it: the migration of the entity carries out its plan, and pushes what has come of it. -/
theorem migrateEntity_planned {entity : Entity} {s : Session Memory μ} (hs : o.Governs s)
    (hdocument : s.remote.document? entity = o.memory.document? entity)
    (hanswers : s.remote.fetchFailures.lookup entity = none) :
    migrateEntity migrateCard entity s = (carryOut migrateCard (o.plan entity) >>= push entity)
      { s with remote := s.remote.write (.fetch entity true) } := by
  have hfetch : fetch entity s =
      ((s.remote.document? entity).elim (.error (.remote (.notFound entity))) .ok,
        { s with remote := s.remote.write (.fetch entity true) }) := by
    rw [fetch_memory, Memory.answer_of_none hanswers, Memory.fetched, hanswers]
    cases s.remote.document? entity <;> rfl
  rw [migrateEntity, fetchDocument, bind_assoc, bind_apply, hfetch, hdocument, Outset.plan]
  cases o.memory.document? entity with
  | none => rfl
  | some document =>
    dsimp only [Option.elim_some]
    cases hchecked : entity.checkDocument document with
    | error e => rfl
    | ok document' =>
      have hplan : (do
          let document ← (Except.ok document' : Except MigrationError Json)
          Walk.document entity.kind (o.visit entity) [] document : Plan Json) =
          Walk.document entity.kind (o.visit entity) [] document' := by
        exact Plan.bind_of_pure document' _
      rw [pure_bind, bind_apply, bind_apply, hplan]
      have hwalk := walkDocument_performs (migrateCard_keepsSetUp o.unaided) o.unaided entity document'
        { s with remote := s.remote.write (.fetch entity true) } ⟨hs.mapping, hs.translator⟩
      rw [← o.visit_eq] at hwalk
      rw [hwalk]

end Migrating

end Rehome
