import Rehome.Proofs.Text.Blank

/-! # Words and the texts they make

The words of a text are not empty and hold no blank. Words that are joined are the words of the text they
make (`words_joinWords`), and that text is trimmed (`trim_joinWords`). -/

namespace Rehome.Text

variable {cs w : List Char} {ws : List String}

/-- Characters of which none is blank, at least one. -/
structure IsWord (w : List Char) : Prop where
  ne_nil : w ≠ []
  not_blank : ∀ c ∈ w, isBlank c = false

/-! ## Cutting -/

theorem mem_consWord {word w : List Char} {words : List (List Char)} (h : w ∈ consWord word words) :
    (w = word ∧ word ≠ []) ∨ w ∈ words := by
  rw [consWord] at h
  split at h
  · exact .inr h
  · next hword =>
    rcases List.mem_cons.1 h with rfl | h
    · exact .inl ⟨rfl, by simpa using hword⟩
    · exact .inr h

theorem consWord_of_isWord (h : IsWord w) (words : List (List Char)) : consWord w words = w :: words := by
  rw [consWord, if_neg]
  simpa using h.ne_nil

theorem isWord_of_mem_wordSplit (cs : List Char) :
    (∀ c ∈ (wordSplit cs).1, isBlank c = false) ∧ ∀ w ∈ (wordSplit cs).2, IsWord w := by
  induction cs with
  | nil => exact ⟨fun c hc => absurd hc List.not_mem_nil, fun w hw => absurd hw List.not_mem_nil⟩
  | cons c cs ih =>
    obtain ⟨hfirst, hrest⟩ := ih
    rw [wordSplit]
    cases hc : isBlank c with
    | true =>
      refine ⟨fun c hc => absurd hc List.not_mem_nil, fun w hw => ?_⟩
      rcases mem_consWord hw with ⟨rfl, hne⟩ | hw
      · exact ⟨hne, hfirst⟩
      · exact hrest w hw
    | false => exact ⟨List.forall_mem_cons.2 ⟨hc, hfirst⟩, hrest⟩

theorem isWord_of_mem_wordChars (h : w ∈ wordChars cs) : IsWord w := by
  rcases mem_consWord h with ⟨rfl, hne⟩ | h
  · exact ⟨hne, (isWord_of_mem_wordSplit cs).1⟩
  · exact (isWord_of_mem_wordSplit cs).2 w h

theorem isWord_of_mem_words {s word : String} (h : word ∈ words s) : IsWord word.toList := by
  obtain ⟨w, hw, rfl⟩ := List.mem_map.1 h
  rw [String.toList_ofList]
  exact isWord_of_mem_wordChars hw

theorem wordSplit_append (h : ∀ c ∈ w, isBlank c = false) (cs : List Char) :
    wordSplit (w ++ cs) = (w ++ (wordSplit cs).1, (wordSplit cs).2) := by
  induction w with
  | nil => rfl
  | cons c w ih =>
    obtain ⟨hc, hw⟩ := List.forall_mem_cons.1 h
    simp [wordSplit, hc, ih hw]

theorem wordChars_of_isWord (h : IsWord w) : wordChars w = [w] := by
  have hsplit := wordSplit_append h.not_blank []
  rw [List.append_nil] at hsplit
  rw [wordChars, hsplit, wordSplit, List.append_nil, consWord_of_isWord h]

theorem wordChars_append_space (h : IsWord w) (cs : List Char) :
    wordChars (w ++ ' ' :: cs) = w :: wordChars cs := by
  have hspace : wordSplit (' ' :: cs) = ([], wordChars cs) := by
    rw [wordSplit, if_pos (by decide)]
    rfl
  rw [wordChars, wordSplit_append h.not_blank, hspace, List.append_nil, consWord_of_isWord h]

/-! ## Joining -/

theorem joinWords_singleton (word : String) : joinWords [word] = word := by
  rw [← String.toList_inj, joinWords, String.toList_intercalate]
  simp

/-- A further word goes behind a space. -/
theorem toList_joinWords_cons (word : String) (h : ws ≠ []) :
    (joinWords (word :: ws)).toList = word.toList ++ ' ' :: (joinWords ws).toList := by
  obtain ⟨word', ws, rfl⟩ := List.exists_cons_of_ne_nil h
  rw [joinWords, joinWords, String.toList_intercalate, String.toList_intercalate]
  simp [List.intercalate]

/-- Words that are joined are the words of the text. -/
theorem words_joinWords (h : ∀ word ∈ ws, IsWord word.toList) : words (joinWords ws) = ws := by
  have hchars : wordChars (joinWords ws).toList = ws.map String.toList := by
    induction ws with
    | nil => rfl
    | cons word ws ih =>
      obtain ⟨hword, hws⟩ := List.forall_mem_cons.1 h
      by_cases hnil : ws = []
      · rw [hnil, joinWords_singleton, wordChars_of_isWord hword]
        rfl
      · rw [toList_joinWords_cons word hnil, wordChars_append_space hword, ih hws, List.map_cons]
  rw [words, hchars, List.map_map]
  exact List.map_id'' (fun word => String.ofList_toList) ws

/-! ## Trimming -/

theorem trimStart_append_of_isWord (h : IsWord w) (cs : List Char) : trimStart (w ++ cs) = w ++ cs := by
  obtain ⟨c, w, rfl⟩ := List.exists_cons_of_ne_nil h.ne_nil
  rw [trimStart, List.cons_append, List.dropWhile_cons_of_neg]
  simp [h.not_blank c List.mem_cons_self]

theorem trimEnd_append_of_isWord (h : IsWord w) (cs : List Char) : trimEnd (cs ++ w) = cs ++ w := by
  have hreverse : IsWord w.reverse :=
    ⟨mt List.reverse_eq_nil_iff.1 h.ne_nil, fun c hc => h.not_blank c (List.mem_reverse.1 hc)⟩
  have hstart := trimStart_append_of_isWord hreverse cs.reverse
  rw [trimStart, ← List.reverse_append] at hstart
  rw [trimEnd, hstart, List.reverse_reverse]

/-- The last of the words stands at the end. -/
theorem exists_toList_joinWords (h : ∀ word ∈ ws, IsWord word.toList) (hne : ws ≠ []) :
    ∃ front, ∃ w, IsWord w ∧ (joinWords ws).toList = front ++ w := by
  induction ws with
  | nil => exact absurd rfl hne
  | cons word ws ih =>
    obtain ⟨hword, hws⟩ := List.forall_mem_cons.1 h
    by_cases hnil : ws = []
    · exact ⟨[], word.toList, hword, by rw [hnil, joinWords_singleton]; rfl⟩
    · obtain ⟨front, w, hw, heq⟩ := ih hws hnil
      refine ⟨word.toList ++ ' ' :: front, w, hw, ?_⟩
      rw [toList_joinWords_cons word hnil, heq, List.append_assoc, List.cons_append]

/-- Words that are joined make a trimmed text. -/
theorem trim_joinWords (h : ∀ word ∈ ws, IsWord word.toList) : trim (joinWords ws) = joinWords ws := by
  cases ws with
  | nil => rfl
  | cons word ws =>
    obtain ⟨hword, -⟩ := List.forall_mem_cons.1 h
    have hstart : trimStart (joinWords (word :: ws)).toList = (joinWords (word :: ws)).toList := by
      by_cases hnil : ws = []
      · rw [hnil, joinWords_singleton, ← List.append_nil word.toList]
        exact trimStart_append_of_isWord hword []
      · rw [toList_joinWords_cons word hnil]
        exact trimStart_append_of_isWord hword _
    obtain ⟨front, w, hw, heq⟩ := exists_toList_joinWords h (List.cons_ne_nil word ws)
    rw [trim, trimChars, hstart, heq, trimEnd_append_of_isWord hw, ← heq, String.ofList_toList]

end Rehome.Text
