import Rehome.Proofs.Data.Except
import Rehome.Proofs.Translator.Asking

/-! # Inquiries

What a translator asks its provider does not show in the translator. So the provider is put into one that notes
every inquiry (`Noted`), which answers as before: what a translator that is noted does to a text is what it does
without (`ask_noting`), and what it has noted then are the `inquiries`. -/

namespace Rehome

/-- A question to a provider, and the answer. -/
inductive Inquiry where
  | detection (text : String) (answer : Except TranslateError String)
  | translation (text : String) (source target : Language) (answer : Except TranslateError String)
deriving DecidableEq

/-- A provider with the inquiries that it has had, the last one last. -/
structure Noted (μ : Type) where
  provider : μ
  inquiries : List Inquiry

namespace Noted

variable {μ α : Type}

/-- Puts a question to the provider and notes the answer. -/
def question (note : Except TranslateError α → Inquiry) (question : μ → Except TranslateError α × μ)
    (p : Noted μ) : Except TranslateError α × Noted μ :=
  let (answer, provider) := question p.provider
  (answer, ⟨provider, p.inquiries ++ [note answer]⟩)

instance [Provider μ] : Provider (Noted μ) where
  detect text := question (.detection text) (Provider.detect text)
  translate text source target :=
    question (.translation text source target) (Provider.translate text source target)

end Noted

/-- A question is put once, and once more if the answer is an error. What it leads to is the last answer. -/
inductive Insisted {α : Type} (note : Except TranslateError α → Inquiry) :
    List Inquiry → Except TranslateError α → Prop where
  | answered (a : α) : Insisted note [note (.ok a)] (.ok a)
  | again (e : TranslateError) (answer : Except TranslateError α) : Insisted note [note (.error e), note answer] answer

theorem Insisted.ne_nil {α : Type} {note : Except TranslateError α → Inquiry} {inquiries : List Inquiry}
    {answer : Except TranslateError α} (h : Insisted note inquiries answer) : inquiries ≠ [] := by
  cases h with
  | answered a => exact List.cons_ne_nil _ _
  | again e answer => exact List.cons_ne_nil _ _

/-- The answer is the one to the last inquiry. -/
theorem Insisted.getLast? {α : Type} {note : Except TranslateError α → Inquiry} {inquiries : List Inquiry}
    {answer : Except TranslateError α} (h : Insisted note inquiries answer) :
    inquiries.getLast? = some (note answer) := by
  cases h with
  | answered a => rfl
  | again e answer => rfl

/-- A provider is asked in this way, noted or not. -/
theorem Provider.retrying_question {μ α : Type} (note : Except TranslateError α → Inquiry)
    (question : μ → Except TranslateError α × μ) (p : μ) :
    ∃ inquiries, Insisted note inquiries (retrying question p).1 ∧
      ∀ before, retrying (Noted.question note question) ⟨p, before⟩ =
        ((retrying question p).1, ⟨(retrying question p).2, before ++ inquiries⟩) := by
  rcases hfirst : question p with ⟨e | a, p₁⟩
  · rcases hsecond : question p₁ with ⟨answer, p₂⟩
    refine ⟨[note (.error e), note answer], ?_, fun before => ?_⟩
    · simp only [retrying, hfirst, hsecond]
      exact .again e answer
    · simp only [retrying, Noted.question, hfirst, hsecond, List.append_assoc, List.cons_append, List.nil_append]
  · refine ⟨[note (.ok a)], ?_, fun before => ?_⟩
    · simp only [retrying, hfirst]
      exact .answered a
    · simp only [retrying, Noted.question, hfirst]

namespace Translator

variable {μ α : Type}

/-- The translator with its provider, if there is one, noted from now on. -/
def noting (inquiries : List Inquiry) (t : Translator μ) : Translator (Noted μ) where
  language := t.language
  onMiss := t.onMiss
  dictionary := t.dictionary
  known := t.known
  provider := t.provider.map fun p => ⟨p, inquiries⟩
  retryDelay := t.retryDelay

/-- The inquiries that translating a text leads to. -/
def inquiries [Provider μ] (text : String) (t : Translator μ) : List Inquiry :=
  ((translate text (t.noting [])).2.provider.map Noted.inquiries).getD []

/-- A translator insists on what it asks. -/
theorem ask_noting {t : Translator μ} {p : μ} (hp : t.provider = some p)
    (note : Except TranslateError α → Inquiry) (question : μ → Except TranslateError α × μ) :
    ∃ inquiries answer p', Insisted note inquiries answer ∧
      ask question t = (answer, { t with provider := some p' }) ∧
      ∀ before, ask (Noted.question note question) (t.noting before) =
        (answer, { t with provider := some p' }.noting (before ++ inquiries)) := by
  obtain ⟨inquiries, hinquiries, hnoted⟩ := Provider.retrying_question note question p
  refine ⟨inquiries, _, _, hinquiries, by rw [ask_apply, hp], fun before => ?_⟩
  have hnoting : (t.noting before).provider = some ⟨p, before⟩ := by
    rw [noting, hp]
    rfl
  rw [ask_apply, hnoting]
  dsimp only
  rw [hnoted before]
  rfl

end Translator

end Rehome
