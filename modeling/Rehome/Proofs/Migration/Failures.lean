import Rehome.Proofs.Migration.Steps

/-! # What computations of a session fail with

Whatever is not a failure of a renaming or of the nesting of cards is one of a request: an installation that
does not answer or refuses a document, or a text that is not translated. All that is asked for between the
visits of a walk fails with these alone. -/

namespace Rehome

/-- Is the error about a request, to the installation or for a translation? -/
def MigrationError.isOfRequest : MigrationError → Bool
  | .pushRefused _ _ | .invalidDocument _ _ | .remote _ | .label _ => true
  | _ => false

namespace Migrating

variable {ρ μ : Type} {α : Type} {errors : Set MigrationError}

/-- Every failure of the computation is among some errors. -/
def FailsIn (errors : Set MigrationError) (α : Type) (x : Migrating ρ μ α) : Prop :=
  ∀ s e, (x s).1 = .error e → e ∈ errors

/-- Every failure of the computation is about a request. -/
abbrev FailsAsking (α : Type) (x : Migrating ρ μ α) : Prop := FailsIn {e | e.isOfRequest = true} α x

theorem closed_failsIn : Closed (FailsIn (ρ := ρ) (μ := μ) errors) where
  pure a s e h := by cases h
  bind {α β x f} hx hf s e h := by
    rcases hs : x s with ⟨e' | a, t⟩
    · rw [bind_of_error hs] at h
      obtain rfl := Except.error.inj h
      exact hx s e' (congrArg Prod.fst hs)
    · rw [bind_of_ok hs] at h
      exact hf a t e h

theorem failsIn_throw {e : MigrationError} (h : e ∈ errors) : FailsIn (ρ := ρ) (μ := μ) errors α (throw e) := by
  rintro s e' h'
  obtain rfl := Except.error.inj h'
  exact h

theorem FailsIn.discard {x : Migrating ρ μ α} (h : FailsIn errors α x) :
    FailsIn errors Unit (discard x : Migrating ρ μ Unit) := by
  intro s e he
  rw [discard_apply] at he
  cases hresult : (x s).1 with
  | ok a =>
    rw [hresult] at he
    cases he
  | error e' =>
    rw [hresult] at he
    obtain rfl := Except.error.inj he
    exact h s e' hresult

theorem mem_of_mapError {ε : Type} (f : ε → MigrationError) (hf : ∀ e, f e ∈ errors) {x : Except ε α}
    {e : MigrationError} (h : x.mapError f = .error e) : e ∈ errors := by
  cases x with
  | ok a => cases h
  | error e' =>
    obtain rfl := Except.error.inj h
    exact hf e'

theorem translateText_failsAsking [Provider μ] (text : String) :
    FailsAsking (ρ := ρ) (μ := μ) _ (translateText text) := by
  intro s e h
  rw [translateText] at h
  split at h
  · cases h
  · exact mem_of_mapError .label (fun _ => rfl) h

section Requests

variable [Remote ρ]

theorem fetchDocument_failsIn (entity : Entity) (hremote : ∀ e, .remote e ∈ errors)
    (hinvalid : ∀ found, .invalidDocument entity found ∈ errors) :
    FailsIn (ρ := ρ) (μ := μ) errors _ (fetchDocument entity) := by
  refine closed_failsIn.bind (fun s e h => mem_of_mapError .remote hremote h) fun document => ?_
  rw [Entity.checkDocument]
  split
  · exact closed_failsIn.pure _
  · next hchecked =>
    refine failsIn_throw ?_
    split at hchecked
    · cases hchecked
    · obtain rfl := Except.error.inj hchecked
      exact hinvalid _

theorem push_failsIn (entity : Entity) (document : Json) (hremote : ∀ e, .remote e ∈ errors)
    (hrefused : ∀ status, .pushRefused entity status ∈ errors) :
    FailsIn (ρ := ρ) (μ := μ) errors _ (push entity document) := by
  have hsend : FailsIn (ρ := ρ) (μ := μ) errors _ (send entity document) := by
    refine closed_failsIn.bind (fun s e h => mem_of_mapError .remote hremote h) fun status => ?_
    split
    · exact failsIn_throw (hrefused status)
    · exact closed_failsIn.pure ()
  intro s e h
  rw [push_apply] at h
  split at h
  · cases h
  · exact closed_failsIn.bind hsend (fun _ t e h => by cases h) s e h

theorem fetchDocument_failsAsking (entity : Entity) :
    FailsAsking (ρ := ρ) (μ := μ) _ (fetchDocument entity) :=
  fetchDocument_failsIn entity (fun _ => rfl) fun _ => rfl

theorem push_failsAsking (entity : Entity) (document : Json) :
    FailsAsking (ρ := ρ) (μ := μ) _ (push entity document) :=
  push_failsIn entity document (fun _ => rfl) fun _ => rfl

theorem relabel_failsAsking (entity : Entity) (replacements : List (String × String)) :
    FailsAsking (ρ := ρ) (μ := μ) _ (relabel entity replacements) := by
  refine closed_failsIn.bind (fetchDocument_failsAsking entity) fun document => ?_
  rcases Label.replace replacements entity.kind document with ⟨count, document⟩
  dsimp only
  split
  · exact closed_failsIn.pure 0
  · exact closed_failsIn.bind (push_failsAsking entity document) fun _ => closed_failsIn.pure count

theorem collectLabels_failsAsking (entity : Entity) :
    FailsAsking (ρ := ρ) (μ := μ) _ (collectLabels entity) :=
  closed_failsIn.bind (fetchDocument_failsAsking entity) fun _ => closed_failsIn.pure _

end Requests

end Migrating

end Rehome
