import Rehome.Proofs.Data.Assoc
import Rehome.Proofs.Text.Blank
import Rehome.Proofs.Translator.Asking
import Rehome.Translator.Scripted

/-! # Providers that always answer alike

Where a provider gives the same answer to the same question at any time, what a translator remembers is what
it would be told again. So a text becomes the same at any later time, whatever has been translated since, with
one exception: a sentence that has become a result in the meantime is kept (`translate_later`). The exception
does occur (`translate_sales`). -/

namespace Rehome

/-- What a provider answers whenever it is asked. -/
structure Answers where
  detect (text : String) : Except TranslateError String
  translate (text : String) (source target : Language) : Except TranslateError String

/-- In certain states, which asking does not leave, the provider gives these answers. -/
structure Provider.Steady {μ : Type} [Provider μ] (states : μ → Prop) (answers : Answers) : Prop where
  detect {p : μ} (h : states p) (text : String) :
    (Provider.detect text p).1 = answers.detect text ∧ states (Provider.detect text p).2
  translate {p : μ} (h : states p) (text : String) (source target : Language) :
    (Provider.translate text source target p).1 = answers.translate text source target ∧
      states (Provider.translate text source target p).2

/-- What a translator is told about a sentence. -/
def Answers.told (answers : Answers) (language : Language) (core : String) : Except TranslateError String :=
  match answers.detect core with
  | .error e => .error e
  | .ok detected =>
    if language.matchesCode detected then .ok core
    else if Language.en.matchesCode detected then
      (answers.translate core .en language).map (Translator.recorded language)
    else .error (.unexpectedLanguage core detected language)

namespace Translator

variable {μ α : Type}

/-- The provider, if there is one, is in one of the states. -/
def ServedIn (states : μ → Prop) (t : Translator μ) : Prop := ∀ p, t.provider = some p → states p

/-- A sentence becomes this where nothing is known of it. -/
def missed (answers : Answers) (t : Translator μ) (core : String) : Except TranslateError String :=
  match t.onMiss with
  | .fail => .error (.miss core)
  | .keep => .ok core
  | .askProvider => if t.provider.isSome then answers.told t.language core else .error .noProvider

/-- The second translator is a later state of the first one: it has been told some more. -/
structure Later (answers : Answers) (t s : Translator μ) : Prop where
  language : s.language = t.language
  onMiss : s.onMiss = t.onMiss
  provider : s.provider.isSome = t.provider.isSome
  known {v : String} : v ∈ t.known → v ∈ s.known
  kept {core result : String} : t.dictionary.lookup core = some result → s.dictionary.lookup core = some result
  added {core result : String} : t.dictionary.lookup core = none → s.dictionary.lookup core = some result →
    missed answers t core = .ok result

namespace Later

variable {answers : Answers} {t s u : Translator μ}

theorem refl (t : Translator μ) : Later answers t t where
  language := rfl
  onMiss := rfl
  provider := rfl
  known := id
  kept := id
  added h h' := by
    rw [h] at h'
    cases h'

theorem missed_eq (h : Later answers t s) (core : String) : missed answers s core = missed answers t core := by
  rw [missed, missed, h.language, h.onMiss, h.provider]

theorem trans (h : Later answers t s) (h' : Later answers s u) : Later answers t u where
  language := h'.language.trans h.language
  onMiss := h'.onMiss.trans h.onMiss
  provider := h'.provider.trans h.provider
  known hv := h'.known (h.known hv)
  kept hcore := h'.kept (h.kept hcore)
  added {core result} hcore hresult := by
    cases hs : s.dictionary.lookup core with
    | none => exact (h.missed_eq core).symm.trans (h'.added hs hresult)
    | some result' =>
      rw [h'.kept hs] at hresult
      exact Option.some.inj hresult ▸ h.added hcore hs

/-- Another provider takes the place of the provider. -/
theorem withProvider {provider : Option μ} (h : provider.isSome = t.provider.isSome) :
    Later answers t { t with provider } :=
  { refl t with provider := h }

/-- A sentence of which nothing was known is remembered with what it becomes. -/
theorem withSentence {core result : String} (hnew : t.dictionary.lookup core = none)
    (h : missed answers t core = .ok result) : Later answers t (t.withSentence core result) where
  language := rfl
  onMiss := rfl
  provider := rfl
  known hv := mem_insertSorted.2 (.inr hv)
  kept h' := Assoc.lookup_put_of_lookup hnew h' result
  added {core' result'} hnone hsome := by
    by_cases hcore : core' = core
    · subst hcore
      rw [Translator.withSentence, Assoc.lookup_put_self] at hsome
      exact Option.some.inj hsome ▸ h
    · rw [Translator.withSentence, Assoc.lookup_put_of_ne hcore, hnone] at hsome
      cases hsome

end Later

theorem finish_trim {language : Language} {text : String} (h : language = .en ∨ Text.trim text = "") :
    finish language text (Text.trim text) = text := by
  rw [finish]
  rcases h with rfl | hblank
  · exact Text.withMargins_trim text
  · refine Eq.trans ?_ (Text.withMargins_trim text)
    rw [hblank]
    split <;> rfl

/-! ## One text -/

variable [Provider μ] {states : μ → Prop} {answers : Answers} {t s : Translator μ}

omit [Provider μ] in
/-- Asking a second time makes no difference. -/
theorem ask_steady (question : μ → Except TranslateError α × μ) {answer : Except TranslateError α} {p : μ}
    (hquestion : ∀ p, states p → (question p).1 = answer ∧ states (question p).2)
    (hp : t.provider = some p) (hstate : states p) :
    ∃ p', states p' ∧ ask question t = (answer, { t with provider := some p' }) := by
  have hretrying : (Provider.retrying question p).1 = answer ∧ states (Provider.retrying question p).2 := by
    obtain ⟨hanswer, hnext⟩ := hquestion p hstate
    unfold Provider.retrying
    split
    · next a p' h =>
      rw [h] at hanswer hnext
      exact ⟨hanswer, hnext⟩
    · next e p' h =>
      rw [h] at hnext
      exact hquestion p' hnext
  refine ⟨_, hretrying.2, ?_⟩
  rw [ask_apply, hp, ← hretrying.1]

/-- A translator that asks comes out with what it is told, and may remember that. -/
theorem askProvider_steady (hsteady : Provider.Steady states answers) {p : μ} (hp : t.provider = some p)
    (hstate : states p) (core : String) : ∃ p', states p' ∧
      (askProvider core t = (answers.told t.language core, { t with provider := some p' }) ∨
        ∃ result, answers.told t.language core = .ok result ∧
          askProvider core t = (.ok result, { t with provider := some p' }.withSentence core result)) := by
  obtain ⟨p₁, hp₁, hdetect⟩ := ask_steady (Provider.detect core) (fun _ h => hsteady.detect h core) hp hstate
  rw [askProvider_apply, hdetect, Answers.told]
  cases answers.detect core with
  | error e => exact ⟨p₁, hp₁, .inl rfl⟩
  | ok detected =>
    dsimp only
    split
    · exact ⟨p₁, hp₁, .inl rfl⟩
    split
    · obtain ⟨p₂, hp₂, htranslate⟩ := ask_steady (t := { t with provider := some p₁ })
        (Provider.translate core .en t.language) (fun _ h => hsteady.translate h core .en t.language) rfl hp₁
      rw [htranslate]
      cases answers.translate core .en t.language with
      | error e => exact ⟨p₂, hp₂, .inl rfl⟩
      | ok raw => exact ⟨p₂, hp₂, .inr ⟨_, rfl, rfl⟩⟩
    · exact ⟨p₁, hp₁, .inl rfl⟩

/-- A sentence of which nothing is known becomes what was expected, and leaves a later state. -/
theorem miss_steady (hsteady : Provider.Steady states answers) (hserved : ServedIn states t) {core : String}
    (hnew : t.dictionary.lookup core = none) :
    (miss core t).1 = missed answers t core ∧ ServedIn states (miss core t).2 ∧
      Later answers t (miss core t).2 := by
  have hmissed : missed answers t core = match t.onMiss with
    | .fail => .error (.miss core)
    | .keep => .ok core
    | .askProvider => if t.provider.isSome then answers.told t.language core else .error .noProvider := rfl
  rw [miss_apply]
  cases hpolicy : t.onMiss with
  | fail => exact ⟨by rw [hmissed, hpolicy], hserved, Later.refl t⟩
  | keep => exact ⟨by rw [hmissed, hpolicy], hserved, Later.refl t⟩
  | askProvider =>
    rw [hpolicy] at hmissed
    cases hp : t.provider with
    | none =>
      rw [hp] at hmissed
      have hask : askProvider core t = (.error .noProvider, t) := by rw [askProvider_apply, ask_apply, hp]
      rw [hask]
      exact ⟨hmissed.symm, hserved, Later.refl t⟩
    | some p =>
      rw [hp] at hmissed
      obtain ⟨p', hp', hask⟩ := askProvider_steady hsteady hp (hserved p hp) core
      have hserved' : ∀ q, some p' = some q → states q := fun q hq => Option.some.inj hq ▸ hp'
      have hlater : Later answers t { t with provider := some p' } :=
        Later.withProvider (by rw [hp]; rfl)
      rcases hask with hask | ⟨result, hresult, hask⟩
      · rw [hask]
        exact ⟨hmissed.symm, hserved', hlater⟩
      · rw [hask]
        have hmissed' := (hlater.missed_eq core).trans (hmissed.trans hresult)
        exact ⟨(hmissed.trans hresult).symm, hserved', hlater.trans (Later.withSentence hnew hmissed')⟩

/-- What a sentence becomes while it is no result itself. -/
theorem lookup_of_not_known (hsteady : Provider.Steady states answers) (hserved : ServedIn states t)
    {core : String} (hcore : core ∉ t.known) :
    (lookup core t).1 = (t.dictionary.lookup core).elim (missed answers t core) .ok := by
  rw [lookup_apply, if_neg (by simpa using hcore)]
  cases hdictionary : t.dictionary.lookup core with
  | none => exact (miss_steady hsteady hserved hdictionary).1
  | some result => rfl

/-- At a later time a sentence becomes the same, unless it has become a result itself. -/
theorem lookup_later (hsteady : Provider.Steady states answers) (hserved : ServedIn states t)
    (hserved' : ServedIn states s) (h : Later answers t s) (core : String) :
    (lookup core s).1 = if core ∈ s.known ∧ core ∉ t.known then .ok core else (lookup core t).1 := by
  by_cases hs : core ∈ s.known
  · have hkept : (lookup core s).1 = .ok core := by rw [lookup_apply, if_pos (by simpa using hs)]
    by_cases ht : core ∈ t.known
    · rw [hkept, if_neg (fun hnew => hnew.2 ht), lookup_apply, if_pos (by simpa using ht)]
    · rw [hkept, if_pos ⟨hs, ht⟩]
  · have ht : core ∉ t.known := mt h.known hs
    rw [if_neg (fun hnew => hs hnew.1), lookup_of_not_known hsteady hserved' hs,
      lookup_of_not_known hsteady hserved ht]
    cases ht' : t.dictionary.lookup core with
    | some result =>
      rw [h.kept ht']
      rfl
    | none =>
      cases hs' : s.dictionary.lookup core with
      | some result => exact (h.added ht' hs').symm
      | none => exact h.missed_eq core

/-- Translating a text leaves a later state. -/
theorem later_translate (hsteady : Provider.Steady states answers) (hserved : ServedIn states t) (text : String) :
    ServedIn states (translate text t).2 ∧ Later answers t (translate text t).2 := by
  have hlookup : ServedIn states (lookup (Text.trim text) t).2 ∧
      Later answers t (lookup (Text.trim text) t).2 := by
    rw [lookup_apply]
    split
    · exact ⟨hserved, Later.refl t⟩
    cases hdictionary : t.dictionary.lookup (Text.trim text) with
    | some result => exact ⟨hserved, Later.refl t⟩
    | none => exact (miss_steady hsteady hserved hdictionary).2
  rw [translate_apply]
  split
  · exact ⟨hserved, Later.refl t⟩
  · rcases hresult : lookup (Text.trim text) t with ⟨e | result, t'⟩ <;> rw [hresult] at hlookup <;> exact hlookup

/-! ## One text after the other -/

theorem later_after (hsteady : Provider.Steady states answers) (hserved : ServedIn states t)
    (texts : List String) : ServedIn states (after texts t) ∧ Later answers t (after texts t) := by
  induction texts generalizing t with
  | nil => exact ⟨hserved, Later.refl t⟩
  | cons text texts ih =>
    obtain ⟨hserved', hlater⟩ := later_translate hsteady hserved text
    obtain ⟨hserved'', hlater'⟩ := ih hserved'
    exact ⟨hserved'', hlater.trans hlater'⟩

/-- With a provider that always answers alike, a text becomes the same at any later time, or fails the same
way, unless its sentence has become a result in the meantime: then that is kept. -/
theorem translate_later (hsteady : Provider.Steady states answers) (hserved : ServedIn states t) (text : String)
    (texts : List String) : (translate text (after texts t)).1 =
      if Text.trim text ∈ (after texts t).known ∧ Text.trim text ∉ t.known then
        .ok (finish t.language text (Text.trim text))
      else (translate text t).1 := by
  obtain ⟨hserved', hlater⟩ := later_after hsteady hserved texts
  have hlookup := lookup_later hsteady hserved hserved' hlater (Text.trim text)
  rw [fst_translate, fst_translate, hlookup, hlater.language]
  by_cases hplain : t.language = .en ∨ Text.trim text = ""
  · rw [if_pos hplain, if_pos hplain, finish_trim hplain, ite_self]
  · rw [if_neg hplain, if_neg hplain, apply_ite (Except.map (finish t.language text))]
    rfl

/-! ## A translation that is a sentence of its own -/

/-- A provider that detects one language and answers from a table, without failures. -/
def Holding (detected : String) (table : List (String × String)) (p : TableProvider) : Prop :=
  p.detected = detected ∧ p.table = table ∧ p.failures = 0

/-- The answers of such a provider. -/
def tableAnswers (detected : String) (table : List (String × String)) : Answers where
  detect _ := .ok detected
  translate text _ _ := match table.lookup text with
    | some result => .ok result
    | none => .error (.provider s!"no stub translation for '{text}'")

theorem steady_holding (detected : String) (table : List (String × String)) :
    Provider.Steady (Holding detected table) (tableAnswers detected table) where
  detect {p} h text := by
    obtain ⟨rfl, rfl, hfailures⟩ := h
    exact ⟨rfl, rfl, rfl, hfailures⟩
  translate {p} h text source target := by
    obtain ⟨rfl, rfl, hfailures⟩ := h
    simp only [Provider.translate, hfailures, Nat.lt_irrefl, if_false, tableAnswers]
    cases p.table.lookup text with
    | some result => exact ⟨rfl, rfl, rfl, rfl⟩
    | none => exact ⟨rfl, rfl, rfl, rfl⟩

/-- One sentence is translated by another one, which is translated too. -/
def homonyms : List (String × String) := [("Sales", "Ventes"), ("Turnover", "Sales")]

/-- A translator into French whose provider holds these sentences. -/
def sales : Translator TableProvider := (new .fr .askProvider).withProvider ⟨"en", homonyms, 0, []⟩

theorem servedIn_sales : ServedIn (Holding "en" homonyms) sales := by
  intro p hp
  obtain rfl := Option.some.inj hp
  exact ⟨rfl, rfl, rfl⟩

theorem translate_turnover : Provider.Steady (Holding "en" homonyms) (tableAnswers "en" homonyms) ∧
    ServedIn (Holding "en" homonyms) sales ∧
    (translate "Turnover" (after ["Sales", "Turnover"] sales)).1 = (translate "Turnover" sales).1 ∧
    (translate "Sales" (after ["Sales", "Turnover"] sales)).1 = .ok (finish .fr "Sales" "Sales") := by
  have hsteady := steady_holding "en" homonyms
  refine ⟨hsteady, servedIn_sales, ?_, ?_⟩
  · exact (translate_later hsteady servedIn_sales "Turnover" ["Sales", "Turnover"]).trans
      (if_neg (by decide +kernel))
  · exact (translate_later hsteady servedIn_sales "Sales" ["Sales", "Turnover"]).trans
      (if_pos (by decide +kernel))

/-- A sentence that has been translated, and is then what another one is translated by, does not become
again what it became. -/
theorem translate_sales : Provider.Steady (Holding "en" homonyms) (tableAnswers "en" homonyms) ∧
    ServedIn (Holding "en" homonyms) sales ∧
    (translate "Sales" sales).1 = .ok "Ventes" ∧
    (translate "Turnover" (after ["Sales"] sales)).1 = .ok "Sales" ∧
    (translate "Sales" (after ["Sales", "Turnover"] sales)).1 = .ok "Sales" := by
  refine ⟨steady_holding "en" homonyms, servedIn_sales, ?_⟩
  decide +kernel

end Translator

end Rehome
