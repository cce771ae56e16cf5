import Rehome.Proofs.Text.Blank
import Rehome.Proofs.Translator.Inquiries
import Rehome.Translator.Scripted

/-! # Blanks around a sentence

A translator trims a text before it does anything with it, and puts what comes out between the blanks that it has
taken away. So these make no difference to what is looked up, asked and remembered, and they come out as they went
in (`translate_between`). -/

namespace Rehome.Translator

variable {μ : Type} {before after core : String}

theorem finish_append (hbefore : Text.IsMargin before) (hafter : Text.IsMargin after) (hcore : Text.IsTrimmed core)
    (language : Language) (result : String) :
    finish language (before ++ core ++ after) result = before ++ finish language core result ++ after := by
  have hnone : Text.IsMargin "" := fun c hc => absurd hc List.not_mem_nil
  have halone : ∀ result, Text.withMargins core result = result := fun result => by
    simpa using hcore.withMargins_append hnone hnone result
  rw [finish, finish, hcore.withMargins_append hbefore hafter, halone]

variable [Provider μ]

/-- The blanks around a sentence come out around what it becomes, and change nothing else. -/
theorem translate_append (hbefore : Text.IsMargin before) (hafter : Text.IsMargin after)
    (hcore : Text.IsTrimmed core) (t : Translator μ) : translate (before ++ core ++ after) t =
      ((translate core t).1.map fun result => before ++ result ++ after, (translate core t).2) := by
  rw [translate_apply, translate_apply, Text.trim_append hbefore hafter, hcore.trim]
  by_cases hlanguage : t.language = .en
  · rw [if_pos (.inl hlanguage), if_pos (.inl hlanguage)]
    rfl
  · have hplain : ¬(t.language = .en ∨ core = "") := not_or.2 ⟨hlanguage, hcore.ne_empty⟩
    rw [if_neg hplain, if_neg hplain]
    rcases lookup core t with ⟨e | result, t'⟩
    · rfl
    · dsimp only
      rw [finish_append hbefore hafter hcore]
      rfl

/-- A sentence between blanks becomes what it would become on its own, between the same blanks, or fails the same
way. The provider is asked the same, and the translator is left in the same state. -/
theorem translate_between (hbefore : Text.IsMargin before) (hafter : Text.IsMargin after)
    (hcore : Text.IsTrimmed core) (t : Translator μ) :
    translate (before ++ core ++ after) t =
      ((translate core t).1.map fun result => before ++ result ++ after, (translate core t).2) ∧
    inquiries (before ++ core ++ after) t = inquiries core t := by
  refine ⟨translate_append hbefore hafter hcore t, ?_⟩
  rw [inquiries, translate_append hbefore hafter hcore (t.noting [])]
  rfl

/-- A translator into French with a provider that has two answers ready. -/
def answered : Translator ScriptProvider :=
  (new .fr .askProvider).withProvider ⟨[.ok "en"], [.ok "ventes  Totales"], []⟩

theorem translate_indented : Text.IsMargin "\u3000\t" ∧ Text.IsMargin "\u2003\n" ∧ Text.IsTrimmed "Total\u00a0sales" ∧
    (translate ("\u3000\t" ++ "Total\u00a0sales" ++ "\u2003\n") answered).1 = .ok "\u3000\tVentes totales\u2003\n" ∧
    inquiries ("\u3000\t" ++ "Total\u00a0sales" ++ "\u2003\n") answered =
      [.detection "Total\u00a0sales" (.ok "en"), .translation "Total\u00a0sales" .en .fr (.ok "ventes  Totales")] := by
  have hbefore : Text.IsMargin "\u3000\t" := by decide +kernel
  have hafter : Text.IsMargin "\u2003\n" := by decide +kernel
  have hcore : Text.IsTrimmed "Total\u00a0sales" := by decide +kernel
  have hresult : (translate "Total\u00a0sales" answered).1 = .ok "Ventes totales" := by decide +kernel
  have hasked : inquiries "Total\u00a0sales" answered =
      [.detection "Total\u00a0sales" (.ok "en"), .translation "Total\u00a0sales" .en .fr (.ok "ventes  Totales")] := by
    decide +kernel
  obtain ⟨htranslate, hinquiries⟩ := translate_between hbefore hafter hcore answered
  refine ⟨hbefore, hafter, hcore, ?_, hinquiries.trans hasked⟩
  rw [htranslate, hresult]
  rfl

end Rehome.Translator
