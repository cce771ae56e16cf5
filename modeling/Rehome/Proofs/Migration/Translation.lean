import Rehome.Proofs.Migration.Again

/-! # Migrating with a translator

A translator that never asks its provider does not interfere with the renaming of references: a document that is
walked with it comes out as it does without one, but for its texts, each of which has been translated
(`walkDocument_translates`). -/

namespace Rehome

open Label

variable {ρ ρ' μ μ' : Type}

theorem Translator.rendering_eq_ok [Provider μ] {translator : Translator μ} {t t' : String}
    (h : rendering (some translator) t = .ok t') : (translate t translator).1 = .ok t' :=
  Except.mapError_eq_ok_iff.1 h

/-- At the positions of some texts the second value has the translations of these, and elsewhere it is like the
first one. -/
theorem Label.Scheme.Translates.substitutes {s : Scheme} {tr : String → Except MigrationError String} {j j' : Json}
    (h : s.Translates tr j j') (hs : s.Apart) :
    Substitutes (fun (_ : Unit) p => s.hasText p ∧ ∃ t, j.at? p = some (.str t))
      (fun _ v v' => ∃ t t', tr t = .ok t' ∧ v = .str t ∧ v' = .str t') j j' := by
  have hreword := substitutes_reword (f := rendered tr) hs (P := fun _ => True) (fun _ hnot => absurd trivial hnot) j
  rw [← h.eq] at hreword
  simp only [and_true, true_and] at hreword
  refine hreword.imp fun _ p v v' hslot hv hvv' => ?_
  obtain ⟨t, rfl, rfl⟩ := hvv'
  have ht : t ∈ s.texts j := List.mem_map.2 ⟨(p, t), mem_spots_of_at? hslot.1 hv, rfl⟩
  exact ⟨t, rendered tr t, h.texts t ht, rfl, rfl⟩

namespace Migrating

variable [Remote ρ] [Provider μ] [Remote ρ'] [Provider μ']

/-- Translating and renaming do not interfere. A document is walked in two sessions with the same mapping, in one
without a translator and in the other with one that never asks its provider, whatever else there is to these
sessions. If both walks succeed, what comes out differs by the translation of each text, once, and in nothing
else. -/
theorem walkDocument_translates {entity : Entity} {d d₀ d₁ : Json} {s₀ t₀ : Session ρ μ} {s₁ t₁ : Session ρ' μ'}
    {translator : Translator μ'} (hmapping : s₁.mapping = s₀.mapping) (hnone : s₀.translator = none)
    (htranslator : s₁.translator = some translator) (hunaided : translator.onMiss ≠ .askProvider)
    (h₀ : walkDocument migrateCard entity d s₀ = (.ok d₀, t₀))
    (h₁ : walkDocument migrateCard entity d s₁ = (.ok d₁, t₁)) :
    Substitutes (fun (_ : Unit) p => TextAt entity.kind p ∧ ∃ t, d₀.at? p = some (.str t))
      (fun _ v v' => ∃ t t', (Translator.translate t translator).1 = .ok t' ∧ v = .str t ∧ v' = .str t') d₀ d₁ := by
  have hunaided' : ∀ t ∈ some translator, t.onMiss ≠ .askProvider := by simpa using hunaided
  rw [walkDocument_carriesOut migrateCard_untranslated entity d s₀ rfl hnone] at h₀
  rw [walkDocument_performs (migrateCard_keepsSetUp hunaided') hunaided' entity d s₁ ⟨hmapping, htranslator⟩] at h₁
  have houtcome₀ : (Walk.document entity.kind (Renaming.place ⟨s₀.mapping, entity⟩) [] d).outcome = .ok d₀ :=
    (carryOut_eq_ok_iff.1 h₀).2
  obtain ⟨-, d₀', houtcome, htranslates⟩ :=
    (Renaming.document_follows entity.kind ⟨s₀.mapping, entity⟩ _ d).ok (carryOut_eq_ok_iff.1 h₁).2
  obtain rfl := Except.ok.inj (houtcome.symm.trans houtcome₀)
  have hsubstitutes := htranslates.substitutes (apart_documentScheme entity.kind)
  refine (hsubstitutes.congr fun _ p => and_congr_left' hasText_documentScheme_iff).imp ?_
  rintro _ p _ _ - - ⟨t, t', htr, rfl, rfl⟩
  exact ⟨t, t', Translator.rendering_eq_ok htr, rfl, rfl⟩

/-- A question built on a card, with titles for some of its columns. -/
def titled (source : CardId) (columns : List ColumnId) (label : String) : Json :=
  .obj [
    ("name", .str label),
    ("description", .str (" " ++ label ++ " ")),
    ("dataset_query", .obj [("database", .int 3), ("query", .obj [("source-table", (Source.card source).toJson)])]),
    ("visualization_settings", .obj [
      ("column_settings", .obj (columns.map fun column =>
        ((Json.arr [.str "ref", Sample.fieldRef column]).compact, .obj [("column_title", .str label)])))])]

/-- A translator that keeps what it does not know. -/
def summing : Translator TableProvider := (Translator.new .fr .keep).withSentence "Sum" "Somme"

/-- Two columns that become one, whose title is translated once. -/
theorem titled_translates : resumed.translator = none ∧ summing.onMiss ≠ .askProvider ∧
    walkDocument migrateCard (.card ⟨113⟩) (titled ⟨12⟩ [⟨101⟩, ⟨1105⟩] "Sum") resumed =
      (.ok (titled ⟨112⟩ [⟨1105⟩] "Sum"), resumed) ∧
    walkDocument migrateCard (.card ⟨113⟩) (titled ⟨12⟩ [⟨101⟩, ⟨1105⟩] "Sum") (resumed.withTranslator summing) =
      (.ok (titled ⟨112⟩ [⟨1105⟩] "Somme"), resumed.withTranslator summing) ∧
    Substitutes (fun (_ : Unit) p => TextAt .card p ∧ ∃ t, (titled ⟨112⟩ [⟨1105⟩] "Sum").at? p = some (.str t))
      (fun _ v v' => ∃ t t', (Translator.translate t summing).1 = .ok t' ∧ v = .str t ∧ v' = .str t')
      (titled ⟨112⟩ [⟨1105⟩] "Sum") (titled ⟨112⟩ [⟨1105⟩] "Somme") := by
  have hpolicy : summing.onMiss ≠ .askProvider := by decide
  have hunaided : ∀ t ∈ some summing, t.onMiss ≠ .askProvider := by simpa using hpolicy
  have hmigrated {s : Session Memory TableProvider} (hs : s.migrated = [⟨112⟩]) {plan : Plan Json} {d : Json}
      (hneeds : plan.needs = [⟨112⟩]) (houtcome : plan.outcome = .ok d) :
      carryOut migrateCard plan s = (.ok d, s) := by
    refine carryOut_eq_ok_iff.2 ⟨forM_migrateCard_of_mem fun c hc => ?_, houtcome⟩
    rw [hs, ← hneeds]
    exact hc
  have h₀ : walkDocument migrateCard (.card ⟨113⟩) (titled ⟨12⟩ [⟨101⟩, ⟨1105⟩] "Sum") resumed =
      (.ok (titled ⟨112⟩ [⟨1105⟩] "Sum"), resumed) := by
    rw [walkDocument_carriesOut migrateCard_untranslated _ _ resumed rfl rfl]
    exact hmigrated rfl (by decide +kernel) (by decide +kernel)
  have h₁ : walkDocument migrateCard (.card ⟨113⟩) (titled ⟨12⟩ [⟨101⟩, ⟨1105⟩] "Sum")
      (resumed.withTranslator summing) =
      (.ok (titled ⟨112⟩ [⟨1105⟩] "Somme"), resumed.withTranslator summing) := by
    have hs : (resumed.withTranslator summing).SetUp sampled (some summing) := ⟨rfl, rfl⟩
    rw [walkDocument_performs (migrateCard_keepsSetUp hunaided) hunaided _ _ _ hs]
    exact hmigrated rfl (by decide +kernel) (by decide +kernel)
  have hmapping : (resumed.withTranslator summing).mapping = resumed.mapping := rfl
  have htranslator : (resumed.withTranslator summing).translator = some summing := rfl
  exact ⟨rfl, hpolicy, h₀, h₁, walkDocument_translates hmapping rfl htranslator hpolicy h₀ h₁⟩

end Migrating

end Rehome
