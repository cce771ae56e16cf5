import Rehome.Translator.Basic

/-! # Translators that never ask

Equations for what a translator does to a text, and what they say about a translator that does not leave what it
does not know to its provider: it is the same after every text (`translate_state`), so each text becomes the same
whenever it is translated. -/

namespace Rehome.Translator

variable {μ α β : Type} [Provider μ] {t : Translator μ}

/-! ## Equations -/

omit [Provider μ] in
theorem bind_apply (x : Translating μ α) (f : α → Translating μ β) (t : Translator μ) :
    (x >>= f) t = match x t with
      | (.ok a, t') => f a t'
      | (.error e, t') => (.error e, t') := by
  show ExceptT.bindCont f (x t).1 (x t).2 = _
  obtain ⟨result, t'⟩ := x t
  cases result <;> rfl

theorem miss_apply (core : String) (t : Translator μ) : miss core t = match t.onMiss with
    | .fail => (.error (.miss core), t)
    | .keep => (.ok core, t)
    | .askProvider => askProvider core t := by
  show (match t.onMiss with
    | .fail => throw (.miss core)
    | .keep => pure core
    | .askProvider => askProvider core : Translating μ String) t = _
  cases t.onMiss <;> rfl

theorem lookup_apply (core : String) (t : Translator μ) : lookup core t =
    if t.known.contains core then (.ok core, t)
    else match t.dictionary.lookup core with
      | some result => (.ok result, t)
      | none => miss core t := by
  show (if t.known.contains core then pure core
    else match t.dictionary.lookup core with
      | some result => pure result
      | none => miss core : Translating μ String) t = _
  split
  · rfl
  · cases t.dictionary.lookup core <;> rfl

/-- What is made of the translation of a sentence. -/
def finish (language : Language) (text result : String) : String :=
  Text.withMargins text (if language.usesSentenceCase then Text.lowercaseTail result else result)

theorem translate_apply (text : String) (t : Translator μ) : translate text t =
    if t.language = .en ∨ Text.trim text = "" then (.ok text, t)
    else match lookup (Text.trim text) t with
      | (.ok result, t') => (.ok (finish t.language text result), t')
      | (.error e, t') => (.error e, t') := by
  show (if t.language = .en ∨ Text.trim text = "" then return text else do
    let result ← lookup (Text.trim text)
    let result := if t.language.usesSentenceCase then Text.lowercaseTail result else result
    return Text.withMargins text result : Translating μ String) t = _
  split
  · rfl
  · rw [bind_apply]
    rcases lookup (Text.trim text) t with ⟨e | result, t'⟩ <;> rfl

/-- The text that comes out, without what becomes of the translator. -/
theorem fst_translate (text : String) (t : Translator μ) : (translate text t).1 =
    if t.language = .en ∨ Text.trim text = "" then .ok text
    else (lookup (Text.trim text) t).1.map (finish t.language text) := by
  rw [translate_apply]
  split
  · rfl
  · rcases lookup (Text.trim text) t with ⟨e | result, t'⟩ <;> rfl

/-! ## Translators that stay the same -/

theorem lookup_state (h : t.onMiss ≠ .askProvider) (core : String) : (lookup core t).2 = t := by
  have hmiss : (miss core t).2 = t := by
    rw [miss_apply]
    cases honMiss : t.onMiss with
    | fail => rfl
    | keep => rfl
    | askProvider => exact absurd honMiss h
  rw [lookup_apply]
  split
  · rfl
  · cases t.dictionary.lookup core with
    | some result => rfl
    | none => exact hmiss

theorem translate_state (h : t.onMiss ≠ .askProvider) (text : String) : (translate text t).2 = t := by
  have hlookup := lookup_state h (Text.trim text)
  rw [translate_apply]
  split
  · rfl
  · rcases hresult : lookup (Text.trim text) t with ⟨e | result, t'⟩ <;> rw [hresult] at hlookup <;> exact hlookup

end Rehome.Translator
