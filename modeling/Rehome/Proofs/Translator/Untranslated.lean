import Rehome.Proofs.Translator.Again
import Rehome.Proofs.Translator.Steady

/-! # Sentences that are not translated

A sentence of which nothing is known is left alone if that is the policy, or if the provider says that it is in the
language already (`Leaves`). But then its tail is lowered all the same, and its words are joined anew. So it comes
out unchanged only if there is nothing to lower and nothing to join (`translate_untranslated`): an acronym in its
tail is lost (`translate_acronym`). -/

namespace Rehome.Translator

variable {μ : Type} [Provider μ] {t : Translator μ} {text core : String}

/-- A sentence that is no term is left alone: by the policy, or since it is in the language already. -/
inductive Leaves (t : Translator μ) (core : String) : Prop where
  | kept (policy : t.onMiss = .keep)
  | recognized {code : String} (policy : t.onMiss = .askProvider)
      (detected : (ask (Provider.detect core) t).1 = .ok code) (matchesTarget : t.language.matchesCode code)

theorem Leaves.passes (h : t.Leaves core) (hterm : t.dictionary.lookup core = none) : t.Passes core := by
  refine .inr ⟨hterm, ?_⟩
  cases h with
  | kept policy =>
    rw [policy]
    trivial
  | recognized policy detected matchesTarget =>
    rw [policy]
    exact ⟨_, detected, matchesTarget⟩

/-- A sentence that passes is finished like a translation. -/
theorem fst_translate_of_passes (h : t.Passes (Text.trim text)) :
    (translate text t).1 = .ok (finish t.language text (Text.trim text)) := by
  rw [fst_translate]
  split
  · next hplain => rw [finish_trim hplain]
  · rw [lookup_of_passes h]
    rfl

/-- A sentence that is no term and is left alone comes out with its tail in lower case, so it comes out unchanged
just if it has at most one word, or has single spaces between its words and all but the first in lower case. -/
theorem translate_untranslated (hlanguage : t.language = .fr) (hterm : t.dictionary.lookup (Text.trim text) = none)
    (hleft : t.Leaves (Text.trim text)) :
    (translate text t).1 = .ok (Text.withMargins text (Text.lowercaseTail (Text.trim text))) ∧
      ((translate text t).1 = .ok text ↔ Text.TailLowered (Text.trim text)) := by
  have hout := fst_translate_of_passes (hleft.passes hterm)
  rw [hlanguage, finish, if_pos (by rfl)] at hout
  refine ⟨hout, ?_⟩
  rw [hout, Except.ok.injEq, ← Text.lowercaseTail_eq_self_iff]
  constructor
  · intro h
    exact Text.withMargins_inj (h.trans (Text.withMargins_trim text).symm)
  · intro h
    rw [h, Text.withMargins_trim]

/-- A translator into French that knows nothing. Its provider answers the second time. -/
def unschooled (onMiss : OnMiss) : Translator ScriptProvider :=
  (new .fr onMiss).withProvider ⟨[.error "busy", .ok "fr"], [], []⟩

theorem leaves_kept (core : String) : (unschooled .keep).Leaves core := .kept rfl

theorem leaves_recognized (core : String) : (unschooled .askProvider).Leaves core :=
  .recognized rfl rfl (by decide +kernel)

theorem translate_marge_brute : (unschooled .askProvider).language = .fr ∧
    (unschooled .askProvider).dictionary.lookup "Marge brute" = none ∧ (unschooled .askProvider).Leaves "Marge brute" ∧
    (translate "\tMarge brute " (unschooled .askProvider)).1 = .ok "\tMarge brute " := by
  have htrim : Text.trim "\tMarge brute " = "Marge brute" := by decide +kernel
  have hterm : (unschooled .askProvider).dictionary.lookup (Text.trim "\tMarge brute ") = none := rfl
  have hleft : (unschooled .askProvider).Leaves (Text.trim "\tMarge brute ") := leaves_recognized _
  obtain ⟨-, hiff⟩ := translate_untranslated rfl hterm hleft
  rw [htrim] at hterm hleft hiff
  exact ⟨rfl, hterm, hleft, hiff.2 (by decide +kernel)⟩

/-- What is left alone does not always come out unchanged, by either policy. -/
theorem translate_acronym :
    ((unschooled .keep).language = .fr ∧ "Total CA" ∉ (unschooled .keep).known ∧
      (unschooled .keep).dictionary.lookup "Total CA" = none ∧ (unschooled .keep).Leaves "Total CA" ∧
      (translate "Total CA" (unschooled .keep)).1 = .ok "Total ca") ∧
    ((unschooled .askProvider).language = .fr ∧ "Total CA" ∉ (unschooled .askProvider).known ∧
      (unschooled .askProvider).dictionary.lookup "Total CA" = none ∧ (unschooled .askProvider).Leaves "Total CA" ∧
      (translate "Total CA" (unschooled .askProvider)).1 = .ok "Total ca") :=
  ⟨⟨rfl, List.not_mem_nil, rfl, leaves_kept _, by decide +kernel⟩,
    rfl, List.not_mem_nil, rfl, leaves_recognized _, by decide +kernel⟩

end Rehome.Translator
