import Rehome.Proofs.Translator.Again
import Rehome.Proofs.Translator.Inquiries

/-! # Consulting a provider

When a translator asks its provider, and what comes of it. It asks about sentences of which nothing is known
(`Unheard`) and about no others. It has the language detected and, if that is English, the sentence translated,
each at most twice (`Consultation`). Only a translation is remembered, and then neither its sentence nor itself
is asked about again (`consultation_after`). -/

namespace Rehome.Translator

variable {μ : Type} {t s u : Translator μ} {core text : String}

/-- Nothing is known of the sentence. -/
structure Unheard (t : Translator μ) (core : String) : Prop where
  ne_empty : core ≠ ""
  not_mem : core ∉ t.known
  lookup : t.dictionary.lookup core = none

/-- A translator into French that has a provider and asks it. -/
structure Asks (t : Translator μ) : Prop where
  language : t.language = .fr
  onMiss : t.onMiss = .askProvider
  provider : ∃ p, t.provider = some p

/-- What asking a provider comes to. -/
inductive Outcome where
  | failed (e : TranslateError)
  /-- The sentence is in the target language already. -/
  | kept
  | translated (raw : String)

/-- The inquiries about a sentence, and what they come to. -/
inductive Consultation (language : Language) (core : String) : List Inquiry → Outcome → Prop where
  | undetected {detections : List Inquiry} {e : TranslateError}
      (detected : Insisted (.detection core) detections (.error e)) :
      Consultation language core detections (.failed e)
  | kept {detections : List Inquiry} {code : String} (detected : Insisted (.detection core) detections (.ok code))
      (matchesTarget : language.matchesCode code) : Consultation language core detections .kept
  | unexpected {detections : List Inquiry} {code : String}
      (detected : Insisted (.detection core) detections (.ok code)) (notTarget : ¬language.matchesCode code)
      (notEnglish : ¬Language.en.matchesCode code) :
      Consultation language core detections (.failed (.unexpectedLanguage core code language))
  | untranslated {detections translations : List Inquiry} {code : String} {e : TranslateError}
      (detected : Insisted (.detection core) detections (.ok code)) (notTarget : ¬language.matchesCode code)
      (english : Language.en.matchesCode code)
      (translated : Insisted (.translation core .en language) translations (.error e)) :
      Consultation language core (detections ++ translations) (.failed e)
  | translated {detections translations : List Inquiry} {code raw : String}
      (detected : Insisted (.detection core) detections (.ok code)) (notTarget : ¬language.matchesCode code)
      (english : Language.en.matchesCode code)
      (translated : Insisted (.translation core .en language) translations (.ok raw)) :
      Consultation language core (detections ++ translations) (.translated raw)

theorem Consultation.ne_nil {language : Language} {inquiries : List Inquiry} {outcome : Outcome}
    (h : Consultation language core inquiries outcome) : inquiries ≠ [] := by
  cases h with
  | undetected detected => exact detected.ne_nil
  | kept detected _ => exact detected.ne_nil
  | unexpected detected _ _ => exact detected.ne_nil
  | untranslated detected _ _ _ => exact List.append_ne_nil_of_left_ne_nil detected.ne_nil _
  | translated detected _ _ _ => exact List.append_ne_nil_of_left_ne_nil detected.ne_nil _

/-- The last inquiry tells whether the sentence has been translated. -/
theorem Consultation.eq_translated_iff {language : Language} {inquiries : List Inquiry} {outcome : Outcome}
    {raw : String} (h : Consultation language core inquiries outcome) :
    outcome = .translated raw ↔ inquiries.getLast? = some (.translation core .en language (.ok raw)) := by
  cases h with
  | undetected detected => simp [detected.getLast?]
  | kept detected _ => simp [detected.getLast?]
  | unexpected detected _ _ => simp [detected.getLast?]
  | untranslated _ _ _ translated => simp [translated.getLast?]
  | translated _ _ _ translated => simp [translated.getLast?]

/-- What comes out of a translator that has asked about a sentence, and the state that it is left in. What is made
of the sentence that comes out is a parameter. -/
inductive Concludes (finished : String → String) (core : String) (t : Translator μ) :
    Outcome → Except TranslateError String × Translator μ → Prop where
  | failed (e : TranslateError) (p : μ) :
      Concludes finished core t (.failed e) (.error e, { t with provider := some p })
  | kept (p : μ) : Concludes finished core t .kept (.ok (finished core), { t with provider := some p })
  | translated (raw : String) (p : μ) : Concludes finished core t (.translated raw)
      (.ok (finished (recorded t.language raw)),
        { t with provider := some p }.withSentence core (recorded t.language raw))

theorem Concludes.map {finished : String → String} {outcome : Outcome}
    {result : Except TranslateError String × Translator μ} (h : Concludes id core t outcome result) :
    Concludes finished core t outcome (result.1.map finished, result.2) := by
  cases h with
  | failed e p => exact .failed e p
  | kept p => exact .kept p
  | translated raw p => exact .translated raw p

/-! ## What is known stays known -/

/-- The second translator is a later state of the first one. -/
structure Extends (t s : Translator μ) : Prop where
  asks : t.Asks → s.Asks
  unheard {core : String} : s.Unheard core → t.Unheard core

namespace Extends

theorem refl (t : Translator μ) : Extends t t := ⟨id, id⟩

theorem trans (h : Extends t s) (h' : Extends s u) : Extends t u :=
  ⟨fun ht => h'.asks (h.asks ht), fun hu => h.unheard (h'.unheard hu)⟩

theorem withProvider (t : Translator μ) (p : μ) : Extends t { t with provider := some p } where
  asks ht := ⟨ht.language, ht.onMiss, p, rfl⟩
  unheard h := ⟨h.ne_empty, h.not_mem, h.lookup⟩

theorem withSentence (t : Translator μ) (sentence result : String) : Extends t (t.withSentence sentence result) where
  asks ht := ⟨ht.language, ht.onMiss, ht.provider⟩
  unheard {core} h := by
    refine ⟨h.ne_empty, fun hcore => h.not_mem (mem_insertSorted.2 (.inr hcore)), ?_⟩
    have hlater : (t.dictionary.lookup core).isSome →
        ((t.withSentence sentence result).dictionary.lookup core).isSome :=
      fun hcore => isSome_lookup_withSentence (.inr hcore)
    rw [h.lookup] at hlater
    exact Option.not_isSome_iff_eq_none.1 fun hcore => Bool.false_ne_true (hlater hcore)

end Extends

theorem Concludes.extends {finished : String → String} {outcome : Outcome}
    {result : Except TranslateError String × Translator μ} (h : Concludes finished core t outcome result) :
    Extends t result.2 := by
  cases h with
  | failed e p => exact Extends.withProvider t p
  | kept p => exact Extends.withProvider t p
  | translated raw p => exact (Extends.withProvider t p).trans (Extends.withSentence _ core _)

/-- A sentence that has been translated is known, and so is what it is translated by. -/
theorem not_unheard_withSentence {result : String} (h : core = text ∨ core = result) :
    ¬(t.withSentence text result).Unheard core := by
  intro hcore
  rcases h with rfl | rfl
  · have hlookup : ((t.withSentence core result).dictionary.lookup core).isSome :=
      isSome_lookup_withSentence (.inl rfl)
    rw [hcore.lookup] at hlookup
    cases hlookup
  · exact hcore.not_mem (mem_insertSorted.2 (.inl rfl))

variable [Provider μ]

/-! ## Asking about a sentence -/

section Equations

variable {t₁ t₂ : Translator μ} {code raw : String} {e : TranslateError}

theorem askProvider_of_undetected (h : ask (Provider.detect core) t = (.error e, t₁)) :
    askProvider core t = (.error e, t₁) := by
  rw [askProvider_apply, h]

theorem askProvider_of_target (h : ask (Provider.detect core) t = (.ok code, t₁))
    (htarget : t.language.matchesCode code) : askProvider core t = (.ok core, t₁) := by
  rw [askProvider_apply, h]
  exact if_pos htarget

theorem askProvider_of_unexpected (h : ask (Provider.detect core) t = (.ok code, t₁))
    (htarget : ¬t.language.matchesCode code) (henglish : ¬Language.en.matchesCode code) :
    askProvider core t = (.error (.unexpectedLanguage core code t.language), t₁) := by
  rw [askProvider_apply, h]
  exact (if_neg htarget).trans (if_neg henglish)

theorem askProvider_of_untranslated (h : ask (Provider.detect core) t = (.ok code, t₁))
    (htarget : ¬t.language.matchesCode code) (henglish : Language.en.matchesCode code)
    (h' : ask (Provider.translate core .en t.language) t₁ = (.error e, t₂)) :
    askProvider core t = (.error e, t₂) := by
  rw [askProvider_apply, h]
  refine (if_neg htarget).trans ((if_pos henglish).trans ?_)
  rw [h']

theorem askProvider_of_translated (h : ask (Provider.detect core) t = (.ok code, t₁))
    (htarget : ¬t.language.matchesCode code) (henglish : Language.en.matchesCode code)
    (h' : ask (Provider.translate core .en t.language) t₁ = (.ok raw, t₂)) :
    askProvider core t = (.ok (recorded t.language raw), t₂.withSentence core (recorded t.language raw)) := by
  rw [askProvider_apply, h]
  refine (if_neg htarget).trans ((if_pos henglish).trans ?_)
  rw [h']

end Equations

/-- Asking about a sentence is a consultation, and the same with a provider that is noted. -/
theorem askProvider_noting {p : μ} (hp : t.provider = some p) (core : String) :
    ∃ inquiries outcome, Consultation t.language core inquiries outcome ∧
      Concludes id core t outcome (askProvider core t) ∧
      ∀ before, askProvider core (t.noting before) =
        ((askProvider core t).1, (askProvider core t).2.noting (before ++ inquiries)) := by
  obtain ⟨detections, detected, p₁, hdetected, hdetect, hdetect'⟩ :=
    ask_noting hp (.detection core) (Provider.detect core)
  rcases detected with e | code
  · rw [askProvider_of_undetected hdetect]
    exact ⟨detections, _, .undetected hdetected, .failed e p₁,
      fun before => askProvider_of_undetected (hdetect' before)⟩
  by_cases htarget : t.language.matchesCode code
  · rw [askProvider_of_target hdetect htarget]
    exact ⟨detections, _, .kept hdetected htarget, .kept p₁,
      fun before => askProvider_of_target (hdetect' before) htarget⟩
  by_cases henglish : Language.en.matchesCode code
  · obtain ⟨translations, answer, p₂, hanswer, htranslate, htranslate'⟩ :=
      ask_noting (t := { t with provider := some p₁ }) rfl (.translation core .en t.language)
        (Provider.translate core .en t.language)
    cases answer with
    | error e =>
      rw [askProvider_of_untranslated hdetect htarget henglish htranslate]
      refine ⟨_, _, .untranslated hdetected htarget henglish hanswer, .failed e p₂, fun before => ?_⟩
      rw [← List.append_assoc]
      exact askProvider_of_untranslated (hdetect' before) htarget henglish (htranslate' (before ++ detections))
    | ok raw =>
      rw [askProvider_of_translated hdetect htarget henglish htranslate]
      refine ⟨_, _, .translated hdetected htarget henglish hanswer, .translated raw p₂, fun before => ?_⟩
      rw [← List.append_assoc]
      exact askProvider_of_translated (hdetect' before) htarget henglish (htranslate' (before ++ detections))
  · rw [askProvider_of_unexpected hdetect htarget henglish]
    exact ⟨detections, _, .unexpected hdetected htarget henglish, .failed _ p₁,
      fun before => askProvider_of_unexpected (hdetect' before) htarget henglish⟩

/-! ## Translating a text -/

/-- A sentence of which something is known is not asked about. -/
theorem lookup_of_not_unheard (hne : core ≠ "") (h : ¬t.Unheard core) :
    ∃ result, lookup core t = (.ok result, t) ∧
      ∀ before, lookup core (t.noting before) = (.ok result, t.noting before) := by
  by_cases hknown : t.known.contains core
  · refine ⟨core, ?_, fun before => ?_⟩ <;> rw [lookup_apply] <;> exact if_pos hknown
  · cases hdictionary : t.dictionary.lookup core with
    | none => exact absurd ⟨hne, by simpa using hknown, hdictionary⟩ h
    | some result =>
      have hnoting : ∀ before, (t.noting before).dictionary.lookup core = some result := fun before => hdictionary
      refine ⟨result, ?_, fun before => ?_⟩
      · rw [lookup_apply, if_neg hknown, hdictionary]
      · rw [lookup_apply, hnoting before]
        exact if_neg hknown

/-- A sentence of which nothing is known is asked about. -/
theorem translate_of_unheard (hlanguage : t.language ≠ .en) (honMiss : t.onMiss = .askProvider)
    (h : t.Unheard (Text.trim text)) : translate text t =
      ((askProvider (Text.trim text) t).1.map (finish t.language text), (askProvider (Text.trim text) t).2) := by
  have hlookup : lookup (Text.trim text) t = askProvider (Text.trim text) t := by
    rw [lookup_apply, if_neg (by simpa using h.not_mem), h.lookup]
    dsimp only
    rw [miss_apply, honMiss]
  rw [translate_apply, if_neg (not_or.2 ⟨hlanguage, h.ne_empty⟩), hlookup]
  rcases askProvider (Text.trim text) t with ⟨e | result, t'⟩ <;> rfl

/-- The text is translated the same with a provider that is noted, and these inquiries are noted. -/
def Notes (text : String) (t : Translator μ) (consulted : List Inquiry) : Prop :=
  ∀ before, translate text (t.noting before) =
    ((translate text t).1, (translate text t).2.noting (before ++ consulted))

theorem Notes.inquiries_eq {consulted : List Inquiry} (h : Notes text t consulted)
    (ht : (translate text t).2.Asks) : inquiries text t = consulted := by
  obtain ⟨p, hp⟩ := ht.provider
  rw [inquiries, h [], noting, hp]
  rfl

/-- A text of whose sentence something is known is translated without the provider. -/
theorem translate_of_not_unheard (h : ¬t.Unheard (Text.trim text)) :
    Notes text t [] ∧ ∃ out, translate text t = (.ok out, t) := by
  have htranslate : ∃ out, translate text t = (.ok out, t) ∧
      ∀ before, translate text (t.noting before) = (.ok out, t.noting before) := by
    by_cases hplain : t.language = .en ∨ Text.trim text = ""
    · refine ⟨text, ?_, fun before => ?_⟩ <;> rw [translate_apply] <;> exact if_pos hplain
    · obtain ⟨result, hlookup, hlookup'⟩ := lookup_of_not_unheard (not_or.1 hplain).2 h
      refine ⟨finish t.language text result, ?_, fun before => ?_⟩
      · rw [translate_apply, if_neg hplain, hlookup]
      · rw [translate_apply, hlookup' before]
        exact if_neg hplain
  obtain ⟨out, hout, hnoted⟩ := htranslate
  refine ⟨fun before => ?_, out, hout⟩
  rw [hnoted before, hout, List.append_nil]

/-- A text of whose sentence nothing is known is translated as the provider is consulted. -/
theorem Asks.consultation (ht : t.Asks) (h : t.Unheard (Text.trim text)) :
    ∃ consulted outcome, Notes text t consulted ∧ Consultation .fr (Text.trim text) consulted outcome ∧
      Concludes (finish .fr text) (Text.trim text) t outcome (translate text t) := by
  obtain ⟨p, hp⟩ := ht.provider
  obtain ⟨consulted, outcome, hconsulted, hconcludes, hnoted⟩ := askProvider_noting hp (Text.trim text)
  have hlanguage : t.language ≠ .en := by
    rw [ht.language]
    exact Language.noConfusion
  have hconcludes' : Concludes (finish t.language text) _ t outcome _ := hconcludes.map
  rw [← translate_of_unheard hlanguage ht.onMiss h] at hconcludes'
  rw [ht.language] at hconsulted hconcludes'
  refine ⟨consulted, outcome, fun before => ?_, hconsulted, hconcludes'⟩
  have hunheard : (t.noting before).Unheard (Text.trim text) := ⟨h.ne_empty, h.not_mem, h.lookup⟩
  rw [translate_of_unheard hlanguage ht.onMiss h]
  rw [translate_of_unheard (t := t.noting before) hlanguage ht.onMiss hunheard, hnoted before]
  rfl

/-! ## Any number of texts -/

theorem Asks.extends_translate (ht : t.Asks) (text : String) : Extends t (translate text t).2 := by
  by_cases h : t.Unheard (Text.trim text)
  · obtain ⟨_, _, -, -, hconcludes⟩ := ht.consultation h
    exact hconcludes.extends
  · obtain ⟨-, out, hout⟩ := translate_of_not_unheard h
    rw [hout]
    exact Extends.refl t

theorem Asks.extends_after (ht : t.Asks) (texts : List String) : Extends t (after texts t) := by
  induction texts generalizing t with
  | nil => exact Extends.refl t
  | cons text texts ih =>
    have hstep := ht.extends_translate text
    exact hstep.trans (ih (hstep.asks ht))

/-- A text is translated without the provider at any later time. -/
def SilentFrom (t : Translator μ) (text : String) : Prop := ∀ texts, inquiries text (after texts t) = []

theorem Asks.silentFrom (ht : t.Asks) (h : ¬t.Unheard (Text.trim text)) : t.SilentFrom text := by
  intro texts
  have hextends := ht.extends_after texts
  generalize after texts t = u at hextends
  obtain ⟨hnotes, -⟩ := translate_of_not_unheard fun hu => h (hextends.unheard hu)
  have hu := hextends.asks ht
  exact hnotes.inquiries_eq ((hu.extends_translate text).asks hu)

/-- What the outcome of a consultation is to the text and to the translator. Only a translation is remembered, and
then neither its sentence nor itself is asked about again. -/
def Follows (text : String) (t : Translator μ) : Outcome → Prop
  | .failed e => (translate text t).1 = .error e ∧
      (translate text t).2.dictionary = t.dictionary ∧ (translate text t).2.known = t.known
  | .kept => (translate text t).1 = .ok (finish .fr text (Text.trim text)) ∧
      (translate text t).2.dictionary = t.dictionary ∧ (translate text t).2.known = t.known
  | .translated raw => ∃ out, out = Text.withMargins text (Text.sentenceCase raw) ∧
      (translate text t).1 = .ok out ∧
      (translate text t).2.dictionary = t.dictionary ++ [(Text.trim text, Text.sentenceCase raw)] ∧
      (∀ v, v ∈ (translate text t).2.known ↔ v = Text.sentenceCase raw ∨ v ∈ t.known) ∧
      ∀ later, Text.trim later = Text.trim text ∨ Text.trim later = Text.trim out →
        (translate text t).2.SilentFrom later

theorem Asks.follows (ht : t.Asks) (h : t.Unheard (Text.trim text)) {outcome : Outcome}
    (hconcludes : Concludes (finish .fr text) (Text.trim text) t outcome (translate text t)) :
    Follows text t outcome := by
  have ht' := hconcludes.extends.asks ht
  rcases hresult : translate text t with ⟨answer, t'⟩
  rw [hresult] at hconcludes ht'
  simp only [Follows, hresult]
  cases hconcludes with
  | failed e p => exact ⟨rfl, rfl, rfl⟩
  | kept p => exact ⟨rfl, rfl, rfl⟩
  | translated raw p =>
    have hrecorded : recorded t.language raw = Text.sentenceCase raw := by
      rw [ht.language]
      rfl
    have hnew : Text.trim text ∉ t.dictionary.map Prod.fst := by
      rw [← Assoc.isSome_lookup_iff, h.lookup]
      exact Bool.false_ne_true
    rw [hrecorded] at ht' ⊢
    refine ⟨_, rfl, ?_, Assoc.put_of_not_mem hnew, fun v => mem_insertSorted, fun later hlater => ?_⟩
    · exact congrArg Except.ok (congrArg (Text.withMargins text) (Text.lowercaseTail_sentenceCase raw))
    · rw [Text.trim_withMargins, Text.trim_sentenceCase] at hlater
      exact ht'.silentFrom (not_unheard_withSentence hlater)

/-- After any texts, a translator that asks its provider asks about the sentences of which nothing is known, and
only about them. Every time that is a consultation, which is followed. -/
theorem consultation_after (ht : t.Asks) (texts : List String) (text : String) :
    Notes text (after texts t) (inquiries text (after texts t)) ∧
    (inquiries text (after texts t) ≠ [] ↔ (after texts t).Unheard (Text.trim text)) ∧
    (inquiries text (after texts t) = [] → ∃ out, translate text (after texts t) = (.ok out, after texts t)) ∧
    (inquiries text (after texts t) ≠ [] → ∃ outcome,
      Consultation .fr (Text.trim text) (inquiries text (after texts t)) outcome ∧
        Follows text (after texts t) outcome) := by
  have hu := (ht.extends_after texts).asks ht
  generalize after texts t = u at hu ⊢
  have hu' := (hu.extends_translate text).asks hu
  by_cases h : u.Unheard (Text.trim text)
  · obtain ⟨consulted, outcome, hnotes, hconsulted, hconcludes⟩ := hu.consultation h
    obtain rfl := hnotes.inquiries_eq hu'
    have hne := hconsulted.ne_nil
    exact ⟨hnotes, iff_of_true hne h, fun hnil => absurd hnil hne,
      fun _ => ⟨outcome, hconsulted, hu.follows h hconcludes⟩⟩
  · obtain ⟨hnotes, hout⟩ := translate_of_not_unheard h
    have hnil := hnotes.inquiries_eq hu'
    rw [hnil]
    exact ⟨hnotes, iff_of_false (fun hne => hne rfl) h, fun _ => hout, fun hne => absurd rfl hne⟩

/-- A translator into French with a provider that fails before it answers. -/
def faltering : Translator ScriptProvider := (new .fr .askProvider).withProvider
  ⟨[.error "busy", .ok "en"], [.error "busy", .ok "ventes  Totales"], []⟩

theorem consultation_total_sales : faltering.Asks ∧
    inquiries " Total Sales" (after ["\t"] faltering) =
      [.detection "Total Sales" (.error (.provider "busy")), .detection "Total Sales" (.ok "en"),
        .translation "Total Sales" .en .fr (.error (.provider "busy")),
        .translation "Total Sales" .en .fr (.ok "ventes  Totales")] ∧
    (translate " Total Sales" (after ["\t"] faltering)).1 = .ok " Ventes totales" ∧
    (translate " Total Sales" (after ["\t"] faltering)).2.dictionary = [("Total Sales", "Ventes totales")] ∧
    (translate " Total Sales" (after ["\t"] faltering)).2.SilentFrom " Ventes totales" := by
  have hasks : faltering.Asks := ⟨rfl, rfl, _, rfl⟩
  have hinquiries : inquiries " Total Sales" (after ["\t"] faltering) =
      [.detection "Total Sales" (.error (.provider "busy")), .detection "Total Sales" (.ok "en"),
        .translation "Total Sales" .en .fr (.error (.provider "busy")),
        .translation "Total Sales" .en .fr (.ok "ventes  Totales")] := by
    decide +kernel
  have hout : (translate " Total Sales" (after ["\t"] faltering)).1 = .ok " Ventes totales" := by decide +kernel
  have hdictionary : (translate " Total Sales" (after ["\t"] faltering)).2.dictionary =
      [("Total Sales", "Ventes totales")] := by
    decide +kernel
  obtain ⟨-, -, -, hfollows⟩ := consultation_after hasks ["\t"] " Total Sales"
  have hasked : inquiries " Total Sales" (after ["\t"] faltering) ≠ [] := by
    rw [hinquiries]
    exact List.cons_ne_nil _ _
  obtain ⟨outcome, -, hfollows⟩ := hfollows hasked
  refine ⟨hasks, hinquiries, hout, hdictionary, ?_⟩
  cases outcome with
  | failed e => cases hfollows.1.symm.trans hout
  | kept =>
    have hkept := Except.ok.inj (hfollows.1.symm.trans hout)
    exact absurd hkept (by decide +kernel)
  | translated raw =>
    obtain ⟨out, -, hout', -, -, hsilent⟩ := hfollows
    obtain rfl := Except.ok.inj (hout'.symm.trans hout)
    exact hsilent _ (.inr rfl)

end Rehome.Translator
