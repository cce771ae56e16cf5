import Rehome.Proofs.Migration.Steps
import Rehome.Proofs.Reference.Translated
import Rehome.Proofs.Translator.Unaided

/-! # Walks that carry out plans

In a session whose translator never asks its provider, if it has one, each text becomes the same whenever it is
translated. So the walk of a migration carries out the plan of renaming and translating the document, and does
nothing else (`walkDocument_performs`). -/

namespace Rehome

variable {ρ μ α β : Type}

/-- The session moves by this mapping, and translates by this translator, if by any. -/
structure Session.SetUp (mapping : Mapping) (translator : Option (Translator μ)) (s : Session ρ μ) : Prop where
  mapping : s.mapping = mapping
  translator : s.translator = translator

/-- What a text becomes. -/
def Translator.rendering [Provider μ] (translator : Option (Translator μ)) (text : String) :
    Except MigrationError String :=
  match translator with
  | none => .ok text
  | some t => (translate text t).1.mapError .label

namespace Migrating

/-! ## Carrying out plans -/

section Plans

variable (require : CardId → Migrating ρ μ Unit)

theorem carryOut_bind (p : Plan α) (f : α → Plan β) :
    carryOut require (p >>= f) = carryOut require p >>= fun a => carryOut require (f a) := by
  cases h : p.outcome with
  | error e =>
    rw [Plan.bind_of_error h, carryOut, carryOut, h, bind_assoc]
    rfl
  | ok a =>
    rw [Plan.bind_of_ok h, carryOut, carryOut, h, bind_assoc]
    show (forM (p.needs ++ (f a).needs) require >>= _) = (forM p.needs require >>= _)
    rw [List.forM_append, bind_assoc]
    rfl

variable {require}

theorem carryOut_eq_ok_iff {p : Plan α} {a : α} {s t : Session ρ μ} :
    carryOut require p s = (.ok a, t) ↔ p.needs.forM require s = (.ok (), t) ∧ p.outcome = .ok a := by
  rw [carryOut, bind_apply]
  rcases p.needs.forM require s with ⟨e | u, t'⟩
  · exact ⟨fun h => (by cases h), fun h => (by cases h.1)⟩
  · cases p.outcome with
    | error e => exact ⟨fun h => (by cases h), fun h => (by cases h.2)⟩
    | ok b =>
      constructor
      · intro h
        cases h
        exact ⟨rfl, rfl⟩
      · rintro ⟨ht, hb⟩
        cases ht
        cases hb
        rfl

end Plans

/-! ## Sessions that stay set up -/

variable {mapping : Mapping} {translator : Option (Translator μ)}

/-- A session with this mapping and translator keeps both. -/
def KeepsSetUp (mapping : Mapping) (translator : Option (Translator μ)) (α : Type) (x : Migrating ρ μ α) : Prop :=
  Leads (fun s t => s.SetUp mapping translator → t.SetUp mapping translator) α x

theorem respected_setUp [Remote ρ] : Respected fun s t : Session ρ μ =>
    s.SetUp mapping translator → t.SetUp mapping translator where
  refl _ := id
  trans h h' hs := h' (h hs)
  fetch _ _ hs := ⟨hs.mapping, hs.translator⟩
  push _ _ _ hs := ⟨hs.mapping, hs.translator⟩
  markProduced _ _ _ hs := ⟨hs.mapping, hs.translator⟩
  markMigrated _ _ hs := ⟨hs.mapping, hs.translator⟩
  inside h hs := by
    obtain ⟨hmapping, htranslator⟩ := h ⟨hs.mapping, hs.translator⟩
    exact ⟨hmapping, htranslator⟩

section Unaided

variable [Provider μ] (hunaided : ∀ t ∈ translator, t.onMiss ≠ .askProvider)

include hunaided

theorem translateText_eq {s : Session ρ μ} (hs : s.SetUp mapping translator) (text : String) :
    translateText text s = (Translator.rendering translator text, s) := by
  obtain ⟨-, htranslator⟩ := hs
  rw [translateText, htranslator]
  cases translator with
  | none => rfl
  | some t =>
    have hstate : (Translator.translate text t).2 = t := Translator.translate_state (hunaided t rfl) text
    have hsame : { s with translator := some t } = s := by rw [← htranslator]
    show ((Translator.translate text t).1.mapError _,
      { s with translator := some (Translator.translate text t).2 }) = _
    rw [hstate, hsame]
    rfl

theorem migrateCard_keepsSetUp [Remote ρ] (card : CardId) :
    KeepsSetUp mapping translator Unit (migrateCard (ρ := ρ) (μ := μ) card) := by
  refine respected_setUp.migrateCard (fun text s hs => ?_) card
  rw [translateText_eq hunaided hs]
  exact hs

end Unaided

/-! ## Walks -/

/-- In every session with this mapping and translator, the computation carries out the plan, and does nothing
else. -/
def Performs (mapping : Mapping) (translator : Option (Translator μ)) (require : CardId → Migrating ρ μ Unit)
    (α : Type) (x : Migrating ρ μ α) (p : Plan α) : Prop :=
  ∀ s, s.SetUp mapping translator → x s = carryOut require p s

section Walks

variable {require : CardId → Migrating ρ μ Unit} (hrequire : ∀ c, KeepsSetUp mapping translator Unit (require c))

include hrequire

theorem carryOut_keepsSetUp (p : Plan α) : KeepsSetUp mapping translator α (carryOut require p) := by
  have hclosed : Closed (KeepsSetUp (ρ := ρ) mapping translator) :=
    closed_leads (P := fun s t => s.SetUp mapping translator → t.SetUp mapping translator) (fun _ => id)
      fun h h' hs => h' (h hs)
  exact carryOut_related hclosed.compatible (g := require) (fun _ _ => id) hrequire p

theorem compatible_performs : Compatible (Performs mapping translator require) where
  pure a s _ := rfl
  bind {α β x p f g} hx hf s hs := by
    have hkeeps := carryOut_keepsSetUp hrequire p s hs
    rw [carryOut_bind, bind_apply, bind_apply, hx s hs]
    rcases hp : carryOut require p s with ⟨e | a, t⟩
    · rfl
    · rw [hp] at hkeeps
      exact hf a t hkeeps

variable [Provider μ] (hunaided : ∀ t ∈ translator, t.onMiss ≠ .askProvider)

include hunaided

theorem visit_performs (owner : Entity) (trail : Trail) (j : Json) :
    Performs mapping translator require Json (visit require owner trail j)
      ((⟨mapping, owner⟩ : Renaming).translated (Translator.rendering translator) trail j) := by
  have htranslate (text : String) : Performs mapping translator require String (translateText text)
      (Plan.ofExcept (Translator.rendering translator text)) := by
    intro s hs
    rw [translateText_eq hunaided hs, carryOut]
    cases Translator.rendering translator text <;> rfl
  intro s hs
  rw [visit_apply]
  split
  · next hempty =>
    obtain rfl : trail = [] := List.isEmpty_iff.1 hempty
    rfl
  · rw [hs.mapping]
    exact (compatible_performs hrequire).bind (fun _ _ => rfl)
      ((compatible_performs hrequire).mapSlots htranslate trail) s hs

/-- The walk of a migration carries out the plan of renaming and translating the document, and does nothing
else. -/
theorem walkDocument_performs (entity : Entity) (d : Json) :
    Performs mapping translator require Json (walkDocument require entity d) (Walk.document entity.kind
      ((⟨mapping, entity⟩ : Renaming).translated (Translator.rendering translator)) [] d) :=
  walkDocument_compatible (compatible_performs hrequire) (visit_performs hrequire hunaided entity) d

end Walks

end Migrating

end Rehome
