import Mathlib.Data.List.TakeWhile
import Rehome.Text.Blank

/-! # Trimmed texts and their margins

Trimming takes away what is blank at either end, and nothing else. What stands in the place of a trimmed text
stands between the blanks that surrounded that one (`exists_margins`), so it is trimmed to what it would be
trimmed to on its own (`trim_withMargins`). -/

namespace Rehome.Text

/-- All characters are blank. -/
def IsMargin (s : String) : Prop := ∀ c ∈ s.toList, isBlank c

instance (s : String) : Decidable (IsMargin s) := List.decidableBAll _ _

variable {cs front back : List Char}

theorem trimStart_append (h : ∀ c ∈ front, isBlank c) (cs : List Char) :
    trimStart (front ++ cs) = trimStart cs :=
  List.dropWhile_append_of_pos h

theorem trimEnd_append (h : ∀ c ∈ back, isBlank c) (cs : List Char) : trimEnd (cs ++ back) = trimEnd cs := by
  have hback : ∀ c ∈ back.reverse, isBlank c := fun c hc => h c (List.mem_reverse.1 hc)
  rw [trimEnd, trimEnd, List.reverse_append, List.dropWhile_append_of_pos hback]

theorem trimStart_eq_nil (h : ∀ c ∈ cs, isBlank c) : trimStart cs = [] :=
  List.dropWhile_eq_nil_iff.2 h

/-- Blanks at the ends make no difference. -/
theorem trimChars_margins (hfront : ∀ c ∈ front, isBlank c) (hback : ∀ c ∈ back, isBlank c) (cs : List Char) :
    trimChars (front ++ (cs ++ back)) = trimChars cs := by
  rw [trimChars, trimChars, trimStart_append hfront]
  by_cases hcs : ∀ c ∈ cs, isBlank c
  · have hall : ∀ c ∈ cs ++ back, isBlank c := fun c hc => (List.mem_append.1 hc).elim (hcs c) (hback c)
    rw [trimStart_eq_nil hall, trimStart_eq_nil hcs]
  · have hstart : trimStart (cs ++ back) = trimStart cs ++ back := by
      have hne : (cs.dropWhile isBlank).isEmpty = false := by
        rw [List.isEmpty_eq_false_iff]
        exact mt List.dropWhile_eq_nil_iff.1 hcs
      rw [trimStart, List.dropWhile_append, hne]
      rfl
    rw [hstart, trimEnd_append hback]

theorem trim_append {before after : String} (hbefore : IsMargin before) (hafter : IsMargin after) (s : String) :
    trim (before ++ s ++ after) = trim s := by
  rw [trim, trim, String.toList_append, String.toList_append, List.append_assoc,
    trimChars_margins hbefore hafter]

/-- A text stands between blanks, and so does what is put in its place. -/
theorem exists_margins (s : String) : ∃ before after, IsMargin before ∧ IsMargin after ∧
    s = before ++ trim s ++ after ∧ ∀ core, withMargins s core = before ++ core ++ after := by
  refine ⟨String.ofList (leading s.toList), String.ofList (trailing (trimStart s.toList)), ?_, ?_, ?_,
    fun core => rfl⟩
  · intro c hc
    rw [String.toList_ofList] at hc
    exact List.mem_takeWhile_imp hc
  · intro c hc
    rw [String.toList_ofList] at hc
    exact List.mem_takeWhile_imp (List.mem_reverse.1 hc)
  · rw [← String.toList_inj]
    simp only [trim, String.toList_append, String.toList_ofList]
    rw [trimChars, List.append_assoc, trimEnd_append_trailing, leading_append_trimStart]

/-- The margins are cut out by lengths: one ends where the text starts that has no blanks at its start, the other
starts where the trimmed text ends that starts there. -/
theorem withMargins_eq_slices (s core : String) :
    let start := s.toList.length - (trimStart s.toList).length
    withMargins s core = String.ofList (s.toList.take start) ++ core ++
      String.ofList (s.toList.drop (start + (trim s).toList.length)) := by
  intro start
  have hs : leading s.toList ++ trimStart s.toList = s.toList := leading_append_trimStart s.toList
  have hcore : (trim s).toList ++ trailing (trimStart s.toList) = trimStart s.toList := by
    rw [trim, String.toList_ofList]
    exact trimEnd_append_trailing _
  have hstart : start = (leading s.toList).length := by
    have hlength := congrArg List.length hs
    rw [List.length_append] at hlength
    omega
  have hleading : s.toList.take start = leading s.toList :=
    (congrArg (List.take start) hs).symm.trans (List.take_left' hstart.symm)
  have hfrom : s.toList.drop start = trimStart s.toList :=
    (congrArg (List.drop start) hs).symm.trans (List.drop_left' hstart.symm)
  have htrailing : s.toList.drop (start + (trim s).toList.length) = trailing (trimStart s.toList) := by
    rw [← List.drop_drop, hfrom]
    exact (congrArg (List.drop _) hcore).symm.trans List.drop_left
  rw [withMargins, hleading, htrailing]

theorem trim_withMargins (s core : String) : trim (withMargins s core) = trim core := by
  obtain ⟨before, after, hbefore, hafter, -, hwith⟩ := exists_margins s
  rw [hwith, trim_append hbefore hafter]

/-- Between the margins of a text stands the trimmed text. -/
theorem withMargins_trim (s : String) : withMargins s (trim s) = s := by
  obtain ⟨before, after, -, -, hs, hwith⟩ := exists_margins s
  rw [hwith, ← hs]

/-- A text that is not empty and has no blanks at its ends. -/
structure IsTrimmed (s : String) : Prop where
  ne_empty : s ≠ ""
  head : ∀ c ∈ s.toList.head?, isBlank c = false
  last : ∀ c ∈ s.toList.getLast?, isBlank c = false

theorem isTrimmed_iff {s : String} : IsTrimmed s ↔
    s ≠ "" ∧ s.toList.head?.all (!isBlank ·) ∧ s.toList.getLast?.all (!isBlank ·) := by
  simp only [Option.all_eq_true, Bool.not_eq_true']
  constructor
  · intro h
    exact ⟨h.ne_empty, h.head, h.last⟩
  · rintro ⟨hne, hhead, hlast⟩
    exact ⟨hne, hhead, hlast⟩

instance (s : String) : Decidable (IsTrimmed s) := decidable_of_iff' _ isTrimmed_iff

theorem leading_eq_nil (h : ∀ c ∈ cs.head?, isBlank c = false) : leading cs = [] := by
  cases cs with
  | nil => rfl
  | cons c cs => exact List.takeWhile_cons_of_neg (by simp [h c rfl])

theorem trailing_eq_nil (h : ∀ c ∈ cs.getLast?, isBlank c = false) : trailing cs = [] := by
  rw [← List.head?_reverse] at h
  exact congrArg List.reverse (leading_eq_nil h)

theorem trimStart_eq_self (h : ∀ c ∈ cs.head?, isBlank c = false) : trimStart cs = cs := by
  have hsplit := leading_append_trimStart cs
  rwa [leading_eq_nil h, List.nil_append] at hsplit

theorem trimEnd_eq_self (h : ∀ c ∈ cs.getLast?, isBlank c = false) : trimEnd cs = cs := by
  have hsplit := trimEnd_append_trailing cs
  rwa [trailing_eq_nil h, List.append_nil] at hsplit

theorem leading_append (h : ∀ c ∈ front, isBlank c) (cs : List Char) : leading (front ++ cs) = front ++ leading cs :=
  List.takeWhile_append_of_pos h

theorem trailing_append (h : ∀ c ∈ back, isBlank c) (cs : List Char) : trailing (cs ++ back) = trailing cs ++ back := by
  have hback : ∀ c ∈ back.reverse, isBlank c := fun c hc => h c (List.mem_reverse.1 hc)
  rw [trailing, List.reverse_append, List.takeWhile_append_of_pos hback, List.reverse_append, List.reverse_reverse,
    trailing]

namespace IsTrimmed

variable {s before after : String}

/-- There is nothing to trim. -/
theorem trim (h : IsTrimmed s) : Text.trim s = s := by
  rw [Text.trim, trimChars, trimStart_eq_self h.head, trimEnd_eq_self h.last, String.ofList_toList]

/-- The margins of a trimmed text between blanks are these blanks. -/
theorem withMargins_append (h : IsTrimmed s) (hbefore : IsMargin before) (hafter : IsMargin after) (core : String) :
    withMargins (before ++ s ++ after) core = before ++ core ++ after := by
  have hhead : ∀ c ∈ (s.toList ++ after.toList).head?, isBlank c = false := by
    have hfirst := h.head
    obtain ⟨c, cs, hs⟩ := List.exists_cons_of_ne_nil (mt String.toList_eq_nil_iff.1 h.ne_empty)
    rw [hs] at hfirst ⊢
    exact hfirst
  rw [withMargins, String.toList_append, String.toList_append, List.append_assoc, leading_append hbefore,
    leading_eq_nil hhead, trimStart_append hbefore, trimStart_eq_self hhead, trailing_append hafter,
    trailing_eq_nil h.last, List.append_nil, List.nil_append, String.ofList_toList, String.ofList_toList]

end IsTrimmed

/-- What stands between the margins of a text can be told from the whole. -/
theorem withMargins_inj {s core core' : String} (h : withMargins s core = withMargins s core') : core = core' := by
  obtain ⟨before, after, -, -, -, hwith⟩ := exists_margins s
  rw [hwith, hwith, ← String.toList_inj] at h
  simpa [String.toList_inj] using h

/-- What is trimmed stays as it is. -/
theorem trim_trim (s : String) : trim (trim s) = trim s := by
  obtain ⟨before, after, hbefore, hafter, hs, -⟩ := exists_margins s
  exact ((congrArg trim hs).trans (trim_append hbefore hafter (trim s))).symm

end Rehome.Text
