import Rehome.Proofs.Data.Assoc
import Rehome.Proofs.Translator.Unaided

/-! # Terms that a translator has been given

A translator that is given a dictionary translates all sentences that are terms of it, whatever else it has been
given (`exists_translate_withTerms`). -/

namespace Rehome

/-- The dictionary has an entry for a term that says what it is called in a language. -/
def TermDictionary.Has (language : Language) (d : TermDictionary) (term : String) : Prop :=
  ∃ names called, (term, names) ∈ d.entries ∧ calledIn? language names = some called

namespace Translator

variable {μ : Type} {t : Translator μ} {d : TermDictionary} {core : String}

theorem withSentences_onMiss (sentences : List (String × String)) (t : Translator μ) :
    (sentences.foldl (fun t p => t.withSentence p.1 p.2) t).onMiss = t.onMiss := by
  induction sentences generalizing t with
  | nil => rfl
  | cons p sentences ih => exact ih (t.withSentence p.1 p.2)

theorem isSome_lookup_withSentence {sentence result : String}
    (h : core = sentence ∨ (t.dictionary.lookup core).isSome) :
    ((t.withSentence sentence result).dictionary.lookup core).isSome := by
  rw [withSentence, Assoc.lookup_put]
  split
  · rfl
  · next hne => exact h.resolve_left hne

theorem isSome_lookup_withSentences {sentences : List (String × String)}
    (h : core ∈ sentences.map Prod.fst ∨ (t.dictionary.lookup core).isSome) :
    ((sentences.foldl (fun t p => t.withSentence p.1 p.2) t).dictionary.lookup core).isSome := by
  induction sentences generalizing t with
  | nil => exact h.resolve_left List.not_mem_nil
  | cons p sentences ih =>
    refine ih ?_
    rw [List.map_cons, List.mem_cons, or_assoc, or_left_comm] at h
    exact h.imp_right isSome_lookup_withSentence

theorem withTerms_onMiss (d : TermDictionary) (caseExpand : Bool) (t : Translator μ) :
    (t.withTerms d caseExpand).onMiss = t.onMiss :=
  withSentences_onMiss _ t

theorem isSome_lookup_withTerms (h : d.Has t.language core) :
    ((t.withTerms d false).dictionary.lookup core).isSome := by
  obtain ⟨names, called, hmem, hcalled⟩ := h
  refine isSome_lookup_withSentences (.inl (List.mem_map.2 ⟨(core, called), ?_, rfl⟩))
  exact List.mem_filterMap.2 ⟨(core, names), hmem, by rw [hcalled]; rfl⟩

variable [Provider μ]

/-- A sentence that is in the dictionary of a translator is translated, whatever becomes of others. -/
theorem exists_translate {text : String} (h : Text.trim text ≠ "" → (t.dictionary.lookup (Text.trim text)).isSome) :
    ∃ result, (translate text t).1 = .ok result := by
  rw [translate_apply]
  split
  · exact ⟨text, rfl⟩
  next hnot =>
  obtain ⟨result, hresult⟩ := Option.isSome_iff_exists.1 (h (not_or.1 hnot).2)
  have hlookup : ∃ result, lookup (Text.trim text) t = (.ok result, t) := by
    rw [lookup_apply, hresult]
    split <;> exact ⟨_, rfl⟩
  obtain ⟨result, hlookup⟩ := hlookup
  rw [hlookup]
  exact ⟨_, rfl⟩

theorem exists_translate_withTerms {text : String} (h : Text.trim text ≠ "" → d.Has t.language (Text.trim text)) :
    ∃ result, (translate text (t.withTerms d false)).1 = .ok result :=
  exists_translate fun hne => isSome_lookup_withTerms (h hne)

end Translator

end Rehome
