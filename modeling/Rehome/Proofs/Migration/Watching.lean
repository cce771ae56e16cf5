import Rehome.Proofs.Migration.Steps

/-! # Installations that are watched

An installation may write things down beside what it holds. As long as it answers like the one it contains
(`Remote.Watches`), a session on it does what a session on that one does: `Migrating.Forgets` is kept by every
way to compose computations, so by a whole migration (`Migrating.migrateCard_forgets`). -/

namespace Rehome

variable {ρ ρ' μ : Type} {α : Type}

/-- Every request is answered as it is by the installation inside, whatever else is done about it. -/
structure Remote.Watches [Remote ρ'] [Remote ρ] (inner : ρ' → ρ) : Prop where
  fetch (entity : Entity) (r : ρ') :
    Remote.fetch entity (inner r) = ((Remote.fetch entity r).1, inner (Remote.fetch entity r).2)
  push (entity : Entity) (document : Json) (r : ρ') :
    Remote.push entity document (inner r) =
      ((Remote.push entity document r).1, inner (Remote.push entity document r).2)

/-- The state with the installation inside in the place of the one that watches it. -/
def Session.through (inner : ρ' → ρ) (s : Session ρ' μ) : Session ρ μ :=
  ⟨s.mapping, inner s.remote, s.translator, s.dryRun, s.migrated, s.inProgress, s.produced⟩

namespace Migrating

/-- The first computation does on an installation that watches what the second does on the one inside. -/
def Forgets (inner : ρ' → ρ) (α : Type) (x : Migrating ρ' μ α) (y : Migrating ρ μ α) : Prop :=
  ∀ s, y (s.through inner) = ((x s).1, (x s).2.through inner)

variable {inner : ρ' → ρ}

theorem compatible_forgets : Compatible (Forgets (μ := μ) inner) where
  pure a s := rfl
  bind {α β x y f g} hxy hfg s := by
    have hs := hxy s
    rcases h : x s with ⟨e | a, t⟩ <;> rw [h] at hs
    · rw [bind_of_error h, bind_of_error hs]
    · rw [bind_of_ok h, bind_of_ok hs]
      exact hfg a t

theorem throw_forgets (e : MigrationError) : Forgets (μ := μ) inner α (throw e) (throw e) :=
  fun _ => rfl

theorem once_forgets (card : CardId) {x : Migrating ρ' μ Unit} {y : Migrating ρ μ Unit}
    (h : Forgets inner _ x y) : Forgets inner _ (once card x) (once card y) := by
  have hduring : Forgets inner _ (during card x) (during card y) := by
    intro s
    exact congrArg (fun r => (r.1, Session.leave r.2)) (h (s.enter card))
  intro s
  rw [once_apply, once_apply]
  show (if s.isMigrated card then _ else if s.inProgress.contains card then _ else _) = _
  split
  · rfl
  · split
    · rfl
    · exact compatible_forgets.bind hduring (fun _ s => rfl) s

section Visits

variable [Provider μ]

theorem translateText_forgets (text : String) :
    Forgets (μ := μ) inner _ (translateText text) (translateText text) := by
  intro s
  have htranslator : (s.through inner).translator = s.translator := rfl
  rw [translateText, translateText, htranslator]
  cases s.translator <;> rfl

theorem visit_forgets {f : CardId → Migrating ρ' μ Unit} {g : CardId → Migrating ρ μ Unit}
    (h : ∀ c, Forgets inner _ (f c) (g c)) (owner : Entity) (trail : Trail) (j : Json) :
    Forgets inner _ (visit f owner trail j) (visit g owner trail j) := by
  intro s
  rw [visit_apply, visit_apply]
  split
  · rfl
  · exact compatible_forgets.bind (carryOut_related compatible_forgets throw_forgets h _)
      (compatible_forgets.mapSlots translateText_forgets trail) s

end Visits

section Requests

variable [Remote ρ'] [Remote ρ] (hinner : Remote.Watches inner)

include hinner

theorem fetchDocument_forgets (entity : Entity) :
    Forgets (μ := μ) inner _ (fetchDocument entity) (fetchDocument entity) := by
  have hfetch : Forgets (μ := μ) inner _ (fetch entity) (fetch entity) := by
    intro s
    rw [fetch, show (s.through inner).remote = inner s.remote from rfl, hinner.fetch]
    rfl
  refine compatible_forgets.bind hfetch fun document => ?_
  cases entity.checkDocument document with
  | ok document => exact compatible_forgets.pure document
  | error e => exact throw_forgets e

theorem push_forgets (entity : Entity) (document : Json) :
    Forgets (μ := μ) inner _ (push entity document) (push entity document) := by
  have hoffer : Forgets (μ := μ) inner _ (offer entity document) (offer entity document) := by
    intro s
    rw [offer, show (s.through inner).remote = inner s.remote from rfl, hinner.push]
    rfl
  have hsend : Forgets (μ := μ) inner _ (send entity document) (send entity document) := by
    refine compatible_forgets.bind hoffer fun status => ?_
    split
    · exact throw_forgets _
    · exact compatible_forgets.pure ()
  intro s
  rw [push_apply, push_apply]
  by_cases hdry : s.dryRun
  · rw [if_pos hdry, if_pos (show (s.through inner).dryRun from hdry)]
    rfl
  · rw [if_neg hdry, if_neg (show ¬(s.through inner).dryRun from hdry)]
    exact compatible_forgets.bind hsend (fun _ s => rfl) s

variable [Provider μ]

theorem migrateEntity_forgets {f : CardId → Migrating ρ' μ Unit} {g : CardId → Migrating ρ μ Unit}
    (h : ∀ c, Forgets inner _ (f c) (g c)) (entity : Entity) :
    Forgets inner _ (migrateEntity f entity) (migrateEntity g entity) :=
  compatible_forgets.bind (fetchDocument_forgets hinner entity) fun document =>
    compatible_forgets.bind (walkDocument_related compatible_forgets (visit_forgets h entity) document)
      fun document => push_forgets hinner entity document

theorem migrateCardWithin_forgets (depth : Nat) (card : CardId) :
    Forgets (μ := μ) inner _ (migrateCardWithin depth card) (migrateCardWithin depth card) := by
  induction depth generalizing card with
  | zero => exact once_forgets card (throw_forgets _)
  | succ depth ih => exact once_forgets card (migrateEntity_forgets hinner ih _)

theorem migrateCard_forgets (card : CardId) :
    Forgets (μ := μ) inner _ (migrateCard card) (migrateCard card) := by
  intro s
  rw [migrateCard_apply, migrateCard_apply]
  exact migrateCardWithin_forgets hinner s.depthLimit card s

end Requests

end Migrating

end Rehome
