import Rehome.Proofs.Translator.Unaided

/-! # Translators that ask

Equations for what a translator asks its provider. Whatever the provider answers, either nothing is remembered
and no other sentence comes out, or the answer is remembered and comes out (`askProvider_cases`). -/

namespace Rehome

/-- Every language but English has sentence case. -/
theorem Language.usesSentenceCase_of_ne {l : Language} (h : l ≠ .en) : l.usesSentenceCase = true := by
  cases l with
  | en => exact absurd rfl h
  | fr => rfl

namespace Translator

variable {μ α : Type}

theorem ask_apply (question : μ → Except TranslateError α × μ) (t : Translator μ) :
    ask question t = match t.provider with
      | none => (.error .noProvider, t)
      | some p => ((Provider.retrying question p).1,
          { t with provider := some (Provider.retrying question p).2 }) := by
  unfold ask
  cases t.provider <;> rfl

/-- Asking may change the provider, and nothing else. -/
theorem exists_ask (question : μ → Except TranslateError α × μ) (t : Translator μ) :
    ∃ answer provider, ask question t = (answer, { t with provider }) := by
  rw [ask_apply]
  cases t.provider with
  | none => exact ⟨.error .noProvider, t.provider, rfl⟩
  | some p => exact ⟨_, _, rfl⟩

/-- The sentence that is remembered for what a provider made of another. -/
def recorded (language : Language) (raw : String) : String :=
  if language.usesSentenceCase then Text.sentenceCase raw else raw

variable [Provider μ]

theorem askProvider_apply (core : String) (t : Translator μ) : askProvider core t =
    match ask (Provider.detect core) t with
    | (.error e, t₁) => (.error e, t₁)
    | (.ok detected, t₁) =>
      if t.language.matchesCode detected then (.ok core, t₁)
      else if Language.en.matchesCode detected then
        match ask (Provider.translate core .en t.language) t₁ with
        | (.error e, t₂) => (.error e, t₂)
        | (.ok raw, t₂) => (.ok (recorded t.language raw), t₂.withSentence core (recorded t.language raw))
      else (.error (.unexpectedLanguage core detected t.language), t₁) := by
  show ((ask (Provider.detect core) >>= fun detected => _ : Translating μ String) t) = _
  rw [bind_apply]
  rcases ask (Provider.detect core) t with ⟨e | detected, t₁⟩
  · rfl
  show ((if t.language.matchesCode detected = true then pure core else _ : Translating μ String) t₁) = _
  dsimp only
  split
  · rfl
  cases Language.en.matchesCode detected with
  | false => rfl
  | true =>
    show ((ask (Provider.translate core .en t.language) >>= fun raw => _ : Translating μ String) t₁) = _
    rw [bind_apply, if_pos rfl]
    rcases ask (Provider.translate core .en t.language) t₁ with ⟨e | raw, t₂⟩ <;> rfl

/-- Either nothing is remembered, and no other sentence comes out, or what comes out is remembered. -/
theorem askProvider_cases (core : String) (t : Translator μ) :
    (∃ result provider, askProvider core t = (result, { t with provider }) ∧
      ∀ out, result = .ok out → out = core) ∨
    ∃ raw provider, askProvider core t = (.ok (recorded t.language raw),
      { t with provider }.withSentence core (recorded t.language raw)) := by
  rw [askProvider_apply]
  obtain ⟨detection, provider, h⟩ := exists_ask (Provider.detect core) t
  rw [h]
  cases detection with
  | error e => exact .inl ⟨_, provider, rfl, fun out hout => by cases hout⟩
  | ok detected =>
    dsimp only
    split
    · exact .inl ⟨_, provider, rfl, fun out hout => (Except.ok.inj hout).symm⟩
    split
    · obtain ⟨answer, provider', h'⟩ :=
        exists_ask (Provider.translate core .en t.language) { t with provider }
      rw [h']
      cases answer with
      | error e => exact .inl ⟨_, provider', rfl, fun out hout => by cases hout⟩
      | ok raw => exact .inr ⟨raw, provider', rfl⟩
    · exact .inl ⟨_, provider, rfl, fun out hout => by cases hout⟩

/-- The translator after some texts, whether they have been translated or not. -/
def after (texts : List String) (t : Translator μ) : Translator μ :=
  texts.foldl (fun t text => (translate text t).2) t

end Translator

end Rehome
