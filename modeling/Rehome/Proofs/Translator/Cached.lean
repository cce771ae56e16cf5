import Rehome.Proofs.Translator.Consultation

/-! # Translations that are cached

What a provider makes of a sentence is put in sentence case and cached (`Caches`, `caches_iff`). Each time it is
returned later, its tail is lowered again. That changes nothing, since the case of a text is settled after one pass: so
a cached translation is returned as it was at first, whatever texts have been translated in between (`casing_settled`).
A sentence that has itself become the translation of another one in the meantime (`CachesAmong`) is such a cached
translation, and is returned as that. -/

namespace Rehome

theorem Language.ne_en_iff {l : Language} : l ≠ .en ↔ l = .fr := by
  cases l <;> decide

namespace Translator

variable {μ : Type} {t s u : Translator μ} {core text result v : String} {texts : List String}

/-! ## What has been found stays -/

/-- The second translator has all that the first one has. -/
structure Retains (t s : Translator μ) : Prop where
  language : s.language = t.language
  known {v : String} (h : v ∈ t.known) : v ∈ s.known
  entry {core result : String} (h : t.dictionary.lookup core = some result) :
    s.dictionary.lookup core = some result

namespace Retains

theorem refl (t : Translator μ) : Retains t t := ⟨rfl, id, id⟩

theorem trans (h : Retains t s) (h' : Retains s u) : Retains t u :=
  ⟨h'.language.trans h.language, fun hv => h'.known (h.known hv), fun hcore => h'.entry (h.entry hcore)⟩

theorem withProvider (t : Translator μ) (provider : Option μ) : Retains t { t with provider } := ⟨rfl, id, id⟩

/-- A new sentence overwrites nothing. -/
theorem withSentence (hnew : t.dictionary.lookup core = none) (result : String) :
    Retains t (t.withSentence core result) where
  language := rfl
  known hv := mem_insertSorted.2 (.inr hv)
  entry h := Assoc.lookup_put_of_lookup hnew h result

end Retains

variable [Provider μ]

/-! ## One text -/

/-- The sentence of the text is new, and is in the dictionary once the text has been translated. -/
structure Caches (t : Translator μ) (text result : String) : Prop where
  new : t.dictionary.lookup (Text.trim text) = none
  entry : (translate text t).2.dictionary.lookup (Text.trim text) = some result

theorem Caches.unique {result' : String} (h : t.Caches text result) (h' : t.Caches text result') : result = result' :=
  Option.some.inj (h.entry.symm.trans h'.entry)

/-- A translator that asks about a text is told something, and concludes from it. -/
theorem Asks.concludes (ht : t.Asks) (h : t.Unheard (Text.trim text)) : ∃ outcome,
    Consultation .fr (Text.trim text) (inquiries text t) outcome ∧
      Concludes (finish .fr text) (Text.trim text) t outcome (translate text t) := by
  obtain ⟨consulted, outcome, hnotes, hconsulted, hconcludes⟩ := ht.consultation h
  obtain rfl := hnotes.inquiries_eq (hconcludes.extends.asks ht)
  exact ⟨outcome, hconsulted, hconcludes⟩

/-- A translator that does not ask about a text stays as it is. -/
theorem translate_state_of_not (h : ¬(t.Asks ∧ t.Unheard (Text.trim text))) : (translate text t).2 = t := by
  by_cases hunheard : t.Unheard (Text.trim text)
  · by_cases hlanguage : t.language = .en
    · rw [translate_apply, if_pos (.inl hlanguage)]
    by_cases hpolicy : t.onMiss = .askProvider
    · cases hp : t.provider with
      | none =>
        have hasked : askProvider (Text.trim text) t = (.error .noProvider, t) := by
          rw [askProvider_apply, ask_apply, hp]
        rw [translate_of_unheard hlanguage hpolicy hunheard, hasked]
      | some p => exact absurd ⟨⟨Language.ne_en_iff.1 hlanguage, hpolicy, p, hp⟩, hunheard⟩ h
    · exact translate_state hpolicy text
  · obtain ⟨-, out, hout⟩ := translate_of_not_unheard hunheard
    rw [hout]

/-- Nor is its provider asked anything. -/
theorem inquiries_of_not (h : ¬(t.Asks ∧ t.Unheard (Text.trim text))) : inquiries text t = [] := by
  have hnoting : ¬((t.noting []).Asks ∧ (t.noting []).Unheard (Text.trim text)) := by
    rintro ⟨ht, hunheard⟩
    obtain ⟨_, hp⟩ := ht.provider
    obtain ⟨p, hp, -⟩ := Option.map_eq_some_iff.1 hp
    exact h ⟨⟨ht.language, ht.onMiss, p, hp⟩, hunheard.ne_empty, hunheard.not_mem, hunheard.lookup⟩
  rw [inquiries, translate_state_of_not hnoting, noting]
  cases t.provider <;> rfl

/-- Only a translator that asks about a text caches something for it. -/
theorem Caches.consulted (h : t.Caches text result) : t.Asks ∧ t.Unheard (Text.trim text) := by
  by_contra hnot
  have hentry := h.entry
  rw [translate_state_of_not hnot, h.new] at hentry
  cases hentry

/-- A translation that is used is cached. -/
theorem Concludes.caches {finished : String → String} {raw : String} (hunheard : t.Unheard (Text.trim text))
    (h : Concludes finished (Text.trim text) t (.translated raw) (translate text t)) :
    t.Caches text (recorded t.language raw) := by
  refine ⟨hunheard.lookup, ?_⟩
  rcases htranslate : translate text t with ⟨answer, t'⟩
  rw [htranslate] at h
  cases h with
  | translated raw p => exact Assoc.lookup_put_self _ _ _

/-- What is cached is what the provider answered, in sentence case. It is returned, and becomes known. -/
theorem Caches.translated (h : t.Caches text result) : ∃ raw p, result = Text.sentenceCase raw ∧
    Consultation .fr (Text.trim text) (inquiries text t) (.translated raw) ∧
    translate text t = (.ok (Text.withMargins text result),
      { t with provider := some p }.withSentence (Text.trim text) result) := by
  obtain ⟨ht, hunheard⟩ := h.consulted
  obtain ⟨outcome, hconsulted, hconcludes⟩ := ht.concludes hunheard
  have hentry := h.entry
  rcases htranslate : translate text t with ⟨answer, t'⟩
  rw [htranslate] at hconcludes hentry
  cases hconcludes with
  | failed e p => cases h.new.symm.trans hentry
  | kept p => cases h.new.symm.trans hentry
  | translated raw p =>
    have hrecorded : recorded t.language raw = Text.sentenceCase raw := by
      rw [ht.language]
      rfl
    rw [hrecorded] at hentry ⊢
    obtain rfl : Text.sentenceCase raw = result :=
      Option.some.inj ((Assoc.lookup_put_self _ _ _).symm.trans hentry)
    refine ⟨raw, p, rfl, hconsulted, ?_⟩
    rw [finish, if_pos (by rfl), Text.lowercaseTail_sentenceCase]

/-- A translation is cached just if the last inquiry about the text has led to it. -/
theorem caches_iff : t.Caches text result ↔ ∃ raw, result = Text.sentenceCase raw ∧
    (inquiries text t).getLast? = some (.translation (Text.trim text) .en .fr (.ok raw)) := by
  constructor
  · intro h
    obtain ⟨raw, _, hresult, hconsulted, -⟩ := h.translated
    exact ⟨raw, hresult, hconsulted.eq_translated_iff.1 rfl⟩
  · rintro ⟨raw, rfl, hlast⟩
    have hasked : t.Asks ∧ t.Unheard (Text.trim text) := by
      by_contra hnot
      rw [inquiries_of_not hnot] at hlast
      cases hlast
    obtain ⟨ht, hunheard⟩ := hasked
    obtain ⟨outcome, hconsulted, hconcludes⟩ := ht.concludes hunheard
    obtain rfl := hconsulted.eq_translated_iff.2 hlast
    have hcaches := hconcludes.caches hunheard
    rwa [ht.language] at hcaches

theorem Caches.settledIn (h : t.Caches text result) : SettledIn .fr result := by
  obtain ⟨raw, -, rfl, -⟩ := h.translated
  exact settledIn_recorded Language.noConfusion raw

/-- Translating a text changes nothing but the provider, or caches a translation. -/
theorem translate_cases (text : String) (t : Translator μ) :
    (∃ provider, (translate text t).2 = { t with provider } ∧ ∀ result, ¬t.Caches text result) ∨
    ∃ result provider, t.Caches text result ∧
      (translate text t).2 = { t with provider }.withSentence (Text.trim text) result := by
  by_cases hcaches : ∃ result, t.Caches text result
  · obtain ⟨result, h⟩ := hcaches
    obtain ⟨-, p, -, -, htranslate⟩ := h.translated
    exact .inr ⟨result, some p, h, by rw [htranslate]⟩
  refine .inl ?_
  have hnone : ∀ result, ¬t.Caches text result := fun result h => hcaches ⟨result, h⟩
  by_cases hasked : t.Asks ∧ t.Unheard (Text.trim text)
  · obtain ⟨ht, hunheard⟩ := hasked
    obtain ⟨outcome, -, hconcludes⟩ := ht.concludes hunheard
    have hunused : ∀ raw, outcome ≠ .translated raw := by
      rintro raw rfl
      exact hnone _ (hconcludes.caches hunheard)
    rcases htranslate : translate text t with ⟨answer, t'⟩
    rw [htranslate] at hconcludes
    cases hconcludes with
    | failed e p => exact ⟨some p, rfl, hnone⟩
    | kept p => exact ⟨some p, rfl, hnone⟩
    | translated raw p => exact absurd rfl (hunused raw)
  · exact ⟨t.provider, translate_state_of_not hasked, hnone⟩

theorem retains_translate (text : String) (t : Translator μ) : Retains t (translate text t).2 := by
  rcases translate_cases text t with ⟨provider, hstate, -⟩ | ⟨result, provider, hcaches, hstate⟩
  · rw [hstate]
    exact Retains.withProvider t provider
  · rw [hstate]
    exact (Retains.withProvider t provider).trans (Retains.withSentence (t := { t with provider }) hcaches.new result)

/-- A result becomes known as it is cached, and in no other way. -/
theorem mem_known_translate_iff : v ∈ (translate text t).2.known ↔ t.Caches text v ∨ v ∈ t.known := by
  rcases translate_cases text t with ⟨provider, hstate, hnone⟩ | ⟨result, provider, hcaches, hstate⟩
  · rw [hstate, or_iff_right (hnone v)]
  · have hcached : t.Caches text v ↔ v = result := by
      constructor
      · exact fun h => h.unique hcaches
      · rintro rfl
        exact hcaches
    rw [hstate, hcached]
    exact mem_insertSorted

/-! ## Any number of texts -/

/-- While these texts are translated one after the other, a translation is cached. -/
inductive CachesAmong (result : String) : Translator μ → List String → Prop where
  | first {t : Translator μ} {text : String} {texts : List String} (h : t.Caches text result) :
      CachesAmong result t (text :: texts)
  | later {t : Translator μ} {text : String} {texts : List String}
      (h : CachesAmong result (translate text t).2 texts) : CachesAmong result t (text :: texts)

theorem CachesAmong.settledIn (h : CachesAmong result t texts) : SettledIn .fr result := by
  induction h with
  | first h => exact h.settledIn
  | later _ ih => exact ih

theorem retains_after (texts : List String) (t : Translator μ) : Retains t (after texts t) := by
  induction texts generalizing t with
  | nil => exact Retains.refl t
  | cons text texts ih => exact (retains_translate text t).trans (ih (translate text t).2)

theorem mem_known_of_after (h : v ∈ (after texts t).known) : v ∈ t.known ∨ CachesAmong v t texts := by
  induction texts generalizing t with
  | nil => exact .inl h
  | cons text texts ih =>
    rcases ih h with hknown | hcached
    · rcases mem_known_translate_iff.1 hknown with hcaches | hknown
      · exact .inr (.first hcaches)
      · exact .inl hknown
    · exact .inr (.later hcached)

/-! ## What is cached is returned -/

/-- A settled sentence that is known is recognized. -/
theorem translate_of_mem (h : Text.trim text ∈ t.known) (hsettled : SettledIn t.language (Text.trim text)) :
    translate text t = (.ok text, t) := by
  obtain ⟨-, out, hout⟩ := translate_of_not_unheard fun hunheard => hunheard.not_mem h
  have hpasses := translate_of_passes (.inl h) hsettled
  rw [hout] at hpasses ⊢
  exact Prod.ext hpasses rfl

/-- A sentence that is not known comes out as the dictionary says, if that is settled. -/
theorem translate_of_entry (hlanguage : t.language ≠ .en) (hne : Text.trim text ≠ "")
    (hnot : Text.trim text ∉ t.known) (hentry : t.dictionary.lookup (Text.trim text) = some result)
    (hsettled : SettledIn t.language result) :
    translate text t = (.ok (Text.withMargins text result), t) := by
  have hlookup : lookup (Text.trim text) t = (.ok result, t) := by
    rw [lookup_apply, if_neg (by simpa using hnot), hentry]
  have hcase := Language.usesSentenceCase_of_ne hlanguage
  rw [translate_apply, if_neg (not_or.2 ⟨hlanguage, hne⟩), hlookup]
  dsimp only
  rw [finish, if_pos hcase, hsettled.lowercaseTail hcase]

namespace Caches

theorem language_after (h : t.Caches text result) (texts : List String) :
    (after texts (translate text t).2).language = .fr := by
  rw [(retains_after texts _).language, (retains_translate text t).language, h.consulted.1.language]

/-- What has been cached is recognized from then on. -/
theorem recognized (h : t.Caches text result) (texts : List String) {later : String}
    (hlater : Text.trim later = result) :
    translate later (after texts (translate text t).2) = (.ok later, after texts (translate text t).2) := by
  have hknown := (retains_after texts _).known (mem_known_translate_iff.2 (.inl h))
  subst hlater
  exact translate_of_mem hknown ((h.language_after texts).symm ▸ h.settledIn)

/-- The sentence becomes from then on what has been cached for it. If it is known itself by then, it stays, since it
has been cached: for itself, or for another sentence. -/
theorem repeated (h : t.Caches text result) (texts : List String) {later : String}
    (hlater : Text.trim later = Text.trim text) :
    ∃ cached, translate later (after texts (translate text t).2) =
        (.ok (Text.withMargins later cached), after texts (translate text t).2) ∧
      (cached = result ∨ cached = Text.trim text ∧ CachesAmong cached (translate text t).2 texts) := by
  obtain ⟨-, hunheard⟩ := h.consulted
  have hlanguage := h.language_after texts
  have hentry := (retains_after texts _).entry h.entry
  by_cases hmem : Text.trim text ∈ (after texts (translate text t).2).known
  · have hstays : SettledIn .fr (Text.trim text) → translate later (after texts (translate text t).2) =
        (.ok (Text.withMargins later (Text.trim text)), after texts (translate text t).2) := by
      intro hsettled
      rw [← hlater] at hmem hsettled ⊢
      rw [Text.withMargins_trim]
      exact translate_of_mem hmem (hlanguage.symm ▸ hsettled)
    rcases mem_known_of_after hmem with hbefore | hamong
    · have hself := (mem_known_translate_iff.1 hbefore).resolve_right hunheard.not_mem
      exact ⟨_, hstays hself.settledIn, .inl (hself.unique h)⟩
    · exact ⟨_, hstays hamong.settledIn, .inr ⟨rfl, hamong⟩⟩
  · have hne := hunheard.ne_empty
    rw [← hlater] at hmem hentry hne
    refine ⟨result, translate_of_entry ?_ hne hmem hentry (hlanguage.symm ▸ h.settledIn), .inl rfl⟩
    exact Language.ne_en_iff.2 hlanguage

end Caches

/-- The case of a text is settled after one pass. So what a provider has made of a sentence is cached, and is returned
later as it was the first time: for itself, and for its sentence, unless that has been cached as the translation of
another sentence in the meantime and is returned as such. -/
theorem casing_settled : (∀ s, Text.lowercaseTail (Text.sentenceCase s) = Text.sentenceCase s) ∧
    (∀ s, Text.lowercaseTail (Text.lowercaseTail s) = Text.lowercaseTail s) ∧
    ∀ {μ : Type} [Provider μ] {t t' : Translator μ} {text raw : String} {answer : Except TranslateError String},
      (inquiries text t).getLast? = some (.translation (Text.trim text) .en .fr (.ok raw)) →
      translate text t = (answer, t') →
        answer = .ok (Text.withMargins text (Text.sentenceCase raw)) ∧
        t'.dictionary.lookup (Text.trim text) = some (Text.sentenceCase raw) ∧
        ∀ (texts : List String) (later : String),
          (Text.trim later = Text.sentenceCase raw →
            translate later (after texts t') = (.ok later, after texts t')) ∧
          (Text.trim later = Text.trim text → ∃ cached,
            translate later (after texts t') = (.ok (Text.withMargins later cached), after texts t') ∧
              (cached = Text.sentenceCase raw ∨ cached = Text.trim text ∧ CachesAmong cached t' texts)) := by
  refine ⟨Text.lowercaseTail_sentenceCase, Text.lowercaseTail_lowercaseTail, ?_⟩
  intro μ _ t t' text raw answer hlast htranslate
  have h : t.Caches text (Text.sentenceCase raw) := caches_iff.2 ⟨raw, rfl, hlast⟩
  obtain ⟨_, _, -, -, hfirst⟩ := h.translated
  rw [htranslate] at hfirst
  obtain rfl : (translate text t).2 = t' := by rw [htranslate]
  exact ⟨(Prod.mk.inj hfirst).1, h.entry, fun texts later => ⟨h.recognized texts, h.repeated texts⟩⟩

/-- A translator into French whose provider answers in capitals, and with blanks of several kinds. -/
def shouted : Translator TableProvider := (new .fr .askProvider).withProvider
  ⟨"en", [("Summer figures", "éTÉ\u00a0\u0130NDICES  ΤΟΥΣ "), ("Turnover", "CHIFFRE d'Affaires")], 0, []⟩

theorem casing_settled_shouted :
    (inquiries "\tSummer figures" shouted).getLast? =
      some (.translation "Summer figures" .en .fr (.ok "éTÉ\u00a0\u0130NDICES  ΤΟΥΣ ")) ∧
    (translate "\tSummer figures" shouted).1 = .ok "\tÉté i\u0307ndices τους" ∧
    (translate "Summer figures\n" (after ["\tSummer figures", "Turnover"] shouted)).1 =
      .ok "Été i\u0307ndices τους\n" ∧
    (translate "Été i\u0307ndices τους" (after ["\tSummer figures", "Turnover"] shouted)).1 =
      .ok "Été i\u0307ndices τους" := by
  have hlast : (inquiries "\tSummer figures" shouted).getLast? =
      some (.translation (Text.trim "\tSummer figures") .en .fr (.ok "éTÉ\u00a0\u0130NDICES  ΤΟΥΣ ")) := by
    decide +kernel
  have htrim : Text.trim "\tSummer figures" = "Summer figures" := by decide +kernel
  obtain ⟨hfirst, -, hlater⟩ := casing_settled.2.2 hlast rfl
  obtain ⟨-, hrepeated⟩ := hlater ["Turnover"] "Summer figures\n"
  obtain ⟨hrecognized, -⟩ := hlater ["Turnover"] "Été i\u0307ndices τους"
  obtain ⟨cached, hreturned, hcached⟩ := hrepeated (by decide +kernel)
  have hrecognized := congrArg Prod.fst (hrecognized (by decide +kernel))
  have hreturned := congrArg Prod.fst hreturned
  rw [htrim] at hlast
  refine ⟨hlast, hfirst.trans (by decide +kernel), ?_, hrecognized⟩
  rcases hcached with rfl | ⟨rfl, -⟩
  · exact hreturned.trans (by decide +kernel)
  · exact absurd hreturned (by decide +kernel)

/-- A translator into French whose provider translates one sentence by another one, which it translates too. -/
def overlapping : Translator TableProvider := (new .fr .askProvider).withProvider
  ⟨"en", [("Revenue", "Revenus"), ("Income", "Revenue")], 0, []⟩

/-- A sentence that is cached is still in the dictionary when it is returned as the translation of the other. -/
theorem cached_revenue : (inquiries "Revenue" overlapping).getLast? =
      some (.translation "Revenue" .en .fr (.ok "Revenus")) ∧
    (translate "Revenue" overlapping).1 = .ok "Revenus" ∧
    (after ["Revenue", "Income"] overlapping).dictionary.lookup "Revenue" = some "Revenus" ∧
    (translate "Revenue" (after ["Revenue", "Income"] overlapping)).1 = .ok "Revenue" := by
  decide +kernel

end Translator

end Rehome
