import Rehome.Data.Assoc
import Rehome.Proofs.Text.Words
import Rehome.Text.Casing

/-! # Cased texts

The case mappings are tables. That no image is blank, and that what a character is lowered to stays when it
is lowered again, is a matter of comparing code points (`Plain`, `Settled`). So casing makes words
of words, and a text whose further words are in lower case comes out of `lowercaseTail` unchanged. -/

namespace Rehome.Text

/-! ## The tables -/

namespace CaseRun

variable {r other : CaseRun} {n m first last : Nat}

/-- The first code point that the run leads to. -/
def imageFirst (r : CaseRun) : Nat := (r.first + r.shift).toNat

/-- The last code point that the run leads to. -/
def imageLast (r : CaseRun) : Nat := (r.last + r.shift).toNat

/-- The run leads to characters. -/
def Valid (r : CaseRun) : Prop :=
  0 ≤ r.first + r.shift ∧ (r.imageLast < 0xD800 ∨ (0xDFFF < r.imageFirst ∧ r.imageLast < 0x110000))

/-- No image of the run lies between two code points. -/
def Avoids (r : CaseRun) (first last : Nat) : Prop := r.imageLast < first ∨ last < r.imageFirst

/-- The code points that the run moves. -/
def codes (r : CaseRun) : List Nat := List.range' r.first ((r.last - r.first) / r.step + 1) r.step

/-- The code points that it moves them to. -/
def images (r : CaseRun) : List Nat := r.codes.map fun n : Nat => (n + r.shift).toNat

instance (r : CaseRun) : Decidable r.Valid := inferInstanceAs (Decidable (_ ∧ _))

instance (r : CaseRun) (first last : Nat) : Decidable (r.Avoids first last) :=
  inferInstanceAs (Decidable (_ ∨ _))

theorem image?_eq_some_iff : r.image? n = some m ↔
    r.first ≤ n ∧ n ≤ r.last ∧ (n - r.first) % r.step = 0 ∧ m = (n + r.shift).toNat := by
  rw [image?]
  split
  · next h => simp [h, eq_comm]
  · next h =>
    simp only [reduceCtorEq, false_iff]
    exact fun hm => h ⟨hm.1, hm.2.1, hm.2.2.1⟩

theorem Valid.image_bounds (h : r.Valid) (hm : r.image? n = some m) :
    r.imageFirst ≤ m ∧ m ≤ r.imageLast ∧ m - r.imageFirst = n - r.first := by
  obtain ⟨hfirst, hlast, -, rfl⟩ := image?_eq_some_iff.1 hm
  have hnonneg := h.1
  rw [imageFirst, imageLast]
  omega

theorem Valid.isValidChar (h : r.Valid) (hm : r.image? n = some m) : m.isValidChar := by
  obtain ⟨hfirst, hlast, -⟩ := h.image_bounds hm
  have hrange := h.2
  rw [Nat.isValidChar]
  omega

theorem Avoids.not_mem (h : r.Avoids first last) (hvalid : r.Valid) (hm : r.image? n = some m) :
    ¬(first ≤ m ∧ m ≤ last) := by
  obtain ⟨hfirst, hlast, -⟩ := hvalid.image_bounds hm
  rw [Avoids] at h
  omega

theorem mem_codes (hm : r.image? n = some m) : n ∈ r.codes := by
  obtain ⟨hfirst, hlast, hstep, -⟩ := image?_eq_some_iff.1 hm
  refine List.mem_range'.2 ⟨(n - r.first) / r.step, ?_, ?_⟩
  · exact Nat.lt_succ_of_le (Nat.div_le_div_right (Nat.sub_le_sub_right hlast r.first))
  · have hdiv := Nat.div_add_mod (n - r.first) r.step
    omega

theorem mem_images (hm : r.image? n = some m) : m ∈ r.images := by
  obtain ⟨-, -, -, rfl⟩ := image?_eq_some_iff.1 hm
  exact List.mem_map.2 ⟨n, mem_codes hm, rfl⟩

end CaseRun

/-- What holds of the images that are listed, and of a character that is no image, holds of every image. -/
theorem of_mem_mapCase {long : List (Nat × List Nat)} {runs : List CaseRun} {P : Char → Prop} {c d : Char}
    (hlong : ∀ e ∈ long, ∀ n ∈ e.2, P (Char.ofNat n))
    (hruns : ∀ r ∈ runs, ∀ n m, r.image? n = some m → P (Char.ofNat m))
    (hself : mapCase long runs c = [c] → P c) (hd : d ∈ mapCase long runs c) : P d := by
  have hd' := hd
  rw [mapCase] at hd
  split at hd
  · next ns hns =>
    obtain ⟨n, hn, rfl⟩ := List.mem_map.1 hd
    obtain ⟨before, after, rfl, -⟩ := List.lookup_eq_some_iff.1 hns
    exact hlong _ (List.mem_append_right before List.mem_cons_self) n hn
  · next hnone =>
    split at hd
    · next m hm =>
      obtain rfl := List.mem_singleton.1 hd
      obtain ⟨r, hr, hm⟩ := List.exists_of_findSome?_eq_some hm
      exact hruns r hr _ m hm
    · next hnone' =>
      obtain rfl := List.mem_singleton.1 hd
      exact hself (by rw [mapCase, hnone, hnone'])

/-- The runs of a table lead to characters, none of which is blank. -/
def Plain (runs : List CaseRun) : Prop := ∀ r ∈ runs, r.Valid ∧ ∀ b ∈ blankRanges, r.Avoids b.1 b.2

instance (runs : List CaseRun) : Decidable (Plain runs) := inferInstanceAs (Decidable (∀ _ ∈ runs, _))

/-- A number whose bits mark the code points of a list. -/
def marks (codes : List Nat) : Nat := codes.foldr (fun n marked => marked.lor (Nat.shiftLeft 1 n)) 0

theorem testBit_marks {codes : List Nat} {n : Nat} : (marks codes).testBit n ↔ n ∈ codes := by
  induction codes with
  | nil => simp [marks]
  | cons k codes ih =>
    have hcons : marks (k :: codes) = marks codes ||| 1 <<< k := rfl
    rw [hcons, Nat.testBit_or, Nat.one_shiftLeft, Nat.testBit_two_pow, Bool.or_eq_true, ih, List.mem_cons,
      decide_eq_true_iff, or_comm, eq_comm]

/-- What the runs of a table lead to, none of them moves. -/
def Settled (runs : List CaseRun) : Prop :=
  ∀ m ∈ runs.flatMap CaseRun.images, (marks (runs.flatMap CaseRun.codes)).testBit m = false

instance (runs : List CaseRun) : Decidable (Settled runs) := inferInstanceAs (Decidable (∀ _ ∈ _, _))

theorem Settled.findSome?_eq_none {runs : List CaseRun} (h : Settled runs) {r : CaseRun} (hr : r ∈ runs) {n m : Nat}
    (hm : r.image? n = some m) : runs.findSome? (·.image? m) = none := by
  refine List.findSome?_eq_none_iff.2 fun other hother => Option.eq_none_iff_forall_ne_some.2 fun k hk => ?_
  have hmarked : (marks (runs.flatMap CaseRun.codes)).testBit m :=
    testBit_marks.2 (List.mem_flatMap.2 ⟨other, hother, CaseRun.mem_codes hk⟩)
  rw [h m (List.mem_flatMap.2 ⟨r, hr, CaseRun.mem_images hm⟩)] at hmarked
  cases hmarked

/-- Nothing is lowered to what is lowered itself, nor to the capital I with a dot, the one letter that is listed
apart. -/
theorem settled_lowerRuns : Plain lowerRuns ∧ Settled lowerRuns ∧ ∀ r ∈ lowerRuns, r.Avoids 0x0130 0x0130 := by
  decide +kernel

theorem plain_upperRuns : Plain upperRuns := by decide +kernel

/-- What is listed apart is raised to something, and not to blanks. -/
theorem upperLong_plain : ∀ e ∈ upperLong, e.2 ≠ [] ∧ ∀ n ∈ e.2, isBlank (Char.ofNat n) = false := by
  decide +kernel

/-! ## Characters -/

theorem toNat_ofNat {n : Nat} (h : n.isValidChar) : (Char.ofNat n).toNat = n := by
  rw [Char.ofNat, dif_pos h]
  rfl

/-- No image of a run is blank. -/
theorem Plain.isBlank_image {runs : List CaseRun} (h : Plain runs) {r : CaseRun} (hr : r ∈ runs) {n m : Nat}
    (hm : r.image? n = some m) : isBlank (Char.ofNat m) = false := by
  obtain ⟨hvalid, havoids⟩ := h r hr
  rw [isBlank, List.any_eq_false]
  intro b hb
  rw [toNat_ofNat (hvalid.isValidChar hm)]
  simpa using (havoids b hb).not_mem hvalid hm

/-- Lowering makes no blank. -/
theorem isBlank_of_mem_lowerChar {c d : Char} (hc : isBlank c = false) (hd : d ∈ lowerChar c) :
    isBlank d = false :=
  of_mem_mapCase (P := fun d => isBlank d = false) (by decide)
    (fun _ hr _ _ hm => settled_lowerRuns.1.isBlank_image hr hm) (fun _ => hc) hd

/-- Raising makes no blank. -/
theorem isBlank_of_mem_upperChar {c d : Char} (hc : isBlank c = false) (hd : d ∈ upperChar c) :
    isBlank d = false :=
  of_mem_mapCase (P := fun d => isBlank d = false) (fun e he => (upperLong_plain e he).2)
    (fun _ hr _ _ hm => plain_upperRuns.isBlank_image hr hm) (fun _ => hc) hd

theorem mapCase_ne_nil {long : List (Nat × List Nat)} {runs : List CaseRun}
    (hlong : ∀ e ∈ long, e.2 ≠ []) (c : Char) : mapCase long runs c ≠ [] := by
  rw [mapCase]
  split
  · next ns hns =>
    obtain ⟨before, after, rfl, -⟩ := List.lookup_eq_some_iff.1 hns
    exact mt List.map_eq_nil_iff.1 (hlong _ (List.mem_append_right before List.mem_cons_self))
  · split <;> exact List.cons_ne_nil _ _

theorem lowerChar_ne_nil (c : Char) : lowerChar c ≠ [] := mapCase_ne_nil (by decide) c

theorem upperChar_ne_nil (c : Char) : upperChar c ≠ [] := mapCase_ne_nil (fun e he => (upperLong_plain e he).1) c

/-- What a character is lowered to stays when it is lowered. -/
theorem lowerChar_of_mem_lowerChar {c d : Char} (hd : d ∈ lowerChar c) : lowerChar d = [d] := by
  refine of_mem_mapCase (P := fun d => lowerChar d = [d]) (by decide +kernel) ?_ id hd
  intro r hr n m hm
  obtain ⟨hplain, hsettled, hdotted⟩ := settled_lowerRuns
  have hvalid := (hplain r hr).1
  have hlong : lowerLong.lookup m = none := by
    have hdot : ¬(0x0130 ≤ m ∧ m ≤ 0x0130) := (hdotted r hr).not_mem hvalid hm
    rw [lowerLong, Assoc.lookup_cons, if_neg (by omega)]
    rfl
  rw [lowerChar, mapCase, toNat_ofNat (hvalid.isValidChar hm), hlong, hsettled.findSome?_eq_none hr hm]

/-! ## Words -/

variable {cs w : List Char}

/-- A lowered text is made of the images of its characters, and of small sigmas. -/
theorem mem_lowerAfter {before : List Char} {d : Char} (hd : d ∈ lowerAfter before cs) :
    d = 'σ' ∨ d = 'ς' ∨ ∃ c ∈ cs, d ∈ lowerChar c := by
  induction cs generalizing before with
  | nil => cases hd
  | cons c cs ih =>
    rw [lowerAfter] at hd
    rcases List.mem_append.1 hd with hd | hd
    · split at hd
      · obtain rfl := List.mem_singleton.1 hd
        rw [lowerSigma]
        split
        · exact .inr (.inl rfl)
        · exact .inl rfl
      · exact .inr (.inr ⟨c, List.mem_cons_self, hd⟩)
    · rcases ih hd with hd | hd | ⟨c', hc', hd⟩
      · exact .inl hd
      · exact .inr (.inl hd)
      · exact .inr (.inr ⟨c', List.mem_cons_of_mem c hc', hd⟩)

/-- Characters that stay when they are lowered make a text that stays. -/
theorem lowerAfter_eq_self (h : ∀ c ∈ cs, lowerChar c = [c]) (before : List Char) :
    lowerAfter before cs = cs := by
  induction cs generalizing before with
  | nil => rfl
  | cons c cs ih =>
    obtain ⟨hc, hcs⟩ := List.forall_mem_cons.1 h
    have hsigma : c ≠ 'Σ' := by
      rintro rfl
      revert hc
      decide
    rw [lowerAfter, if_neg hsigma, hc, ih hcs, List.singleton_append]

/-- A text that has been lowered stays. -/
theorem lower_lower (s : String) : lower (lower s) = lower s := by
  have hfixed : ∀ c ∈ lowerChars s.toList, lowerChar c = [c] := by
    intro d hd
    rcases mem_lowerAfter hd with rfl | rfl | ⟨c, -, hd⟩
    · decide
    · decide
    · exact lowerChar_of_mem_lowerChar hd
  rw [lower, lower, String.toList_ofList]
  exact congrArg String.ofList (lowerAfter_eq_self hfixed [])

theorem isWord_lower {word : String} (h : IsWord word.toList) : IsWord (lower word).toList := by
  rw [lower, String.toList_ofList]
  constructor
  · obtain ⟨c, w, hw⟩ := List.exists_cons_of_ne_nil h.ne_nil
    rw [hw, lowerChars, lowerAfter]
    refine List.append_ne_nil_of_left_ne_nil ?_ _
    split
    · exact List.cons_ne_nil _ _
    · exact lowerChar_ne_nil c
  · intro d hd
    rcases mem_lowerAfter hd with rfl | rfl | ⟨c, hc, hd⟩
    · decide
    · decide
    · exact isBlank_of_mem_lowerChar (h.not_blank c hc) hd

theorem isWord_capitalize {word : String} (h : IsWord word.toList) : IsWord (capitalize word).toList := by
  rw [capitalize, String.toList_ofList]
  obtain ⟨c, w, hw⟩ := List.exists_cons_of_ne_nil h.ne_nil
  obtain ⟨hc, hrest⟩ := List.forall_mem_cons.1 (hw ▸ h.not_blank)
  rw [hw, capitalizeChars]
  refine ⟨List.append_ne_nil_of_left_ne_nil (upperChar_ne_nil c) _, fun d hd => ?_⟩
  rcases List.mem_append.1 hd with hd | hd
  · exact isBlank_of_mem_upperChar hc hd
  · obtain ⟨c', hc', hd⟩ := List.mem_flatMap.1 hd
    exact isBlank_of_mem_lowerChar (hrest c' hc') hd

/-! ## Sentences -/

/-- The words of a sentence with its tail in lower case. -/
def settledWords : List String → List String
  | [] => []
  | word :: rest => word :: rest.map lower

theorem isWord_of_mem_settledWords {ws : List String} (h : ∀ word ∈ ws, IsWord word.toList) :
    ∀ word ∈ settledWords ws, IsWord word.toList := by
  cases ws with
  | nil => exact h
  | cons first rest =>
    obtain ⟨hfirst, hrest⟩ := List.forall_mem_cons.1 h
    refine List.forall_mem_cons.2 ⟨hfirst, fun word hword => ?_⟩
    obtain ⟨word', hword', rfl⟩ := List.mem_map.1 hword
    exact isWord_lower (hrest word' hword')

/-- Joined words with a lowered tail stay. -/
theorem lowercaseTail_joinWords {ws : List String} (h : ∀ word ∈ ws, IsWord word.toList) :
    lowercaseTail (joinWords (settledWords ws)) = joinWords (settledWords ws) := by
  rw [lowercaseTail, words_joinWords (isWord_of_mem_settledWords h)]
  cases ws with
  | nil => rfl
  | cons first rest =>
    cases rest with
    | nil => rfl
    | cons second rest =>
      have hlower : (settledWords (first :: second :: rest)).tail.map lower =
          (settledWords (first :: second :: rest)).tail := by
        rw [settledWords, List.tail_cons, List.map_map]
        exact List.map_congr_left fun word _ => lower_lower word
      exact congrArg (fun tail => joinWords (first :: tail)) hlower

/-- A text of several words is joined anew; a text of one word, or none, is left as it is. -/
theorem lowercaseTail_cases (s : String) :
    lowercaseTail s = s ∨ lowercaseTail s = joinWords (settledWords (words s)) := by
  rw [lowercaseTail]
  split
  · exact .inl rfl
  · exact .inl rfl
  · next first rest h => exact .inr (by rw [h, settledWords])

/-- A text with its tail in lower case stays. -/
theorem lowercaseTail_lowercaseTail (s : String) : lowercaseTail (lowercaseTail s) = lowercaseTail s := by
  rcases lowercaseTail_cases s with h | h
  · rw [h, h]
  · rw [h, lowercaseTail_joinWords fun _ => isWord_of_mem_words]

theorem sentenceCase_eq_joinWords (s : String) : ∃ ws : List String,
    (∀ word ∈ ws, IsWord word.toList) ∧ sentenceCase s = joinWords (settledWords ws) := by
  rw [sentenceCase]
  cases h : words s with
  | nil => exact ⟨[], fun _ hmem => absurd hmem List.not_mem_nil, rfl⟩
  | cons first rest =>
    have hwords : ∀ word ∈ first :: rest, IsWord word.toList := by
      rw [← h]
      exact fun _ => isWord_of_mem_words
    obtain ⟨hfirst, hrest⟩ := List.forall_mem_cons.1 hwords
    exact ⟨capitalize first :: rest, List.forall_mem_cons.2 ⟨isWord_capitalize hfirst, hrest⟩, rfl⟩

/-- At most one word, or words with one space between neighbours, all but the first in lower case. -/
def TailLowered (s : String) : Prop :=
  (words s).length ≤ 1 ∨ (joinWords (words s) = s ∧ ∀ word ∈ (words s).tail, lower word = word)

instance (s : String) : Decidable (TailLowered s) := inferInstanceAs (Decidable (_ ∨ _))

/-- Lowering the tail leaves just these texts as they are. -/
theorem lowercaseTail_eq_self_iff {s : String} : lowercaseTail s = s ↔ TailLowered s := by
  rw [lowercaseTail, TailLowered]
  split
  · next h => simp [h]
  · next word h => simp [h]
  next first rest hrest h =>
  have hmore : ¬(words s).length ≤ 1 := by
    cases rest with
    | nil => exact (hrest rfl).elim
    | cons second rest => simp [h]
  have hfixed : rest.map lower = rest ↔ ∀ word ∈ rest, lower word = word := by
    simpa using List.map_inj_left (l := rest) (f := lower) (g := id)
  rw [or_iff_right hmore, h, List.tail_cons, ← hfixed]
  constructor
  · intro hs
    -- The words of a text that stays are those that it has been joined from.
    have hwords : first :: rest = first :: rest.map lower := by
      have hjoined := words_joinWords (isWord_of_mem_settledWords fun word => isWord_of_mem_words (s := s))
      rw [h, settledWords, hs, h] at hjoined
      exact hjoined
    exact ⟨by rw [hwords, hs], (List.cons.inj hwords).2.symm⟩
  · rintro ⟨hjoin, htail⟩
    rw [htail, hjoin]

/-- A sentence in sentence case has its tail in lower case. -/
theorem lowercaseTail_sentenceCase (s : String) : lowercaseTail (sentenceCase s) = sentenceCase s := by
  obtain ⟨ws, hws, h⟩ := sentenceCase_eq_joinWords s
  rw [h, lowercaseTail_joinWords hws]

theorem trim_sentenceCase (s : String) : trim (sentenceCase s) = sentenceCase s := by
  obtain ⟨ws, hws, h⟩ := sentenceCase_eq_joinWords s
  rw [h, trim_joinWords (isWord_of_mem_settledWords hws)]

/-- Lowering the tail of a trimmed text leaves it trimmed. -/
theorem trim_lowercaseTail {s : String} (h : trim s = s) : trim (lowercaseTail s) = lowercaseTail s := by
  rcases lowercaseTail_cases s with hs | hs
  · rw [hs, h]
  · rw [hs, trim_joinWords (isWord_of_mem_settledWords fun _ => isWord_of_mem_words)]

end Rehome.Text
