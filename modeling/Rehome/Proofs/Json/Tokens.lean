import Mathlib.Data.List.TakeWhile
import Rehome.Json.Parser
import Rehome.Json.Printer
import Rehome.Proofs.Query.Source

/-! # Strings and numbers read back

The text of a string or number is read as one token that denotes just that, whatever follows it; a number
must not be followed by a character that could belong to it (`Stops`). Not every double is read back from
its text, since its digits are scaled by rounded powers of ten: `Binary64.ReadsBack` says that one is. -/

namespace Rehome

namespace Json

/-! ## Strings -/

namespace Piece

/-- The part of a string that a character is written as. -/
def ofChar (c : Char) : Piece :=
  if c.toNat < 0x20 ∧ c ∉ ['\x08', '\x0c', '\n', '\r', '\t'] then .codeUnit c.toNat else .char c

theorem codeUnit?_hexDigit {n : Nat} (h : n < 32) :
    codeUnit? '0' '0' (hexDigit (n / 16)) (hexDigit (n % 16)) = some n := by
  have hall : ∀ n < 32, codeUnit? '0' '0' (hexDigit (n / 16)) (hexDigit (n % 16)) = some n := by decide
  exact hall n h

theorem read_escapeChar (c : Char) (rest : List Char) : read (escapeChar c ++ rest) =
    (read rest).map fun r => (ofChar c :: r.1, r.2) := by
  by_cases hshort : c ∈ ['"', '\\', '\x08', '\x0c', '\n', '\r', '\t']
  · simp only [List.mem_cons, List.not_mem_nil, or_false] at hshort
    rcases hshort with rfl | rfl | rfl | rfl | rfl | rfl | rfl <;> cases h : read rest <;>
      simp [escapeChar, read, escape?, ofChar, h]
  · simp only [List.mem_cons, List.not_mem_nil, or_false, not_or] at hshort
    obtain ⟨hquote, hbackslash, hb, hf, hn, hr, ht⟩ := hshort
    rw [escapeChar, if_neg hquote, if_neg hbackslash, if_neg hb, if_neg hf, if_neg hn, if_neg hr,
      if_neg ht]
    split
    · next hcontrol =>
      have hpiece : ofChar c = .codeUnit c.toNat := if_pos ⟨hcontrol, by simp [hb, hf, hn, hr, ht]⟩
      show read ('\\' :: 'u' :: '0' :: '0' :: _ :: _ :: rest) = _
      rw [read, codeUnit?_hexDigit hcontrol, hpiece]
      cases read rest <;> rfl
    · next hcontrol =>
      have hpiece : ofChar c = .char c := if_neg fun h => hcontrol h.1
      show read (c :: rest) = _
      rw [read, if_neg (by simp [hcontrol, hbackslash]), hpiece]
      · cases read rest <;> rfl
      · exact fun h => hquote h
      · exact fun _ _ _ _ _ h => absurd h hbackslash
      · exact fun _ _ h => absurd h hbackslash

theorem read_flatMap_escapeChar (cs rest : List Char) :
    read (cs.flatMap escapeChar ++ '"' :: rest) = some (cs.map ofChar, rest) := by
  induction cs with
  | nil => rfl
  | cons c cs ih =>
    rw [List.flatMap_cons, List.append_assoc, read_escapeChar, ih]
    rfl

theorem join_map_ofChar (cs : List Char) : join (cs.map ofChar) = some cs := by
  induction cs with
  | nil => rfl
  | cons c cs ih =>
    rw [List.map_cons, ofChar]
    split
    · next h =>
      have hhigh : isHigh c.toNat = false := by
        have hlt := h.1
        simp [isHigh]
        omega
      have hlow : isLow c.toNat = false := by
        have hlt := h.1
        simp [isLow]
        omega
      rw [join.eq_def]
      simp only [hhigh, hlow, Bool.false_eq_true, if_false, ih, Option.map_some, Char.ofNat_toNat]
    · rw [join, ih, Option.map_some]

theorem text?_map_ofChar (s : String) : text? (s.toList.map ofChar) = some s := by
  rw [text?, join_map_ofChar, Option.map_some, String.ofList_toList]

end Piece

/-- The text of a string is one token, of which the string is made again. -/
theorem read_stringChars (s : String) (rest : List Char) :
    Token.read (stringChars s ++ rest) = some (.str (s.toList.map Piece.ofChar), rest) := by
  have hread : Piece.read (s.toList.flatMap escapeChar ++ ['"'] ++ rest) =
      some (s.toList.map Piece.ofChar, rest) := by
    rw [List.append_assoc]
    exact Piece.read_flatMap_escapeChar s.toList rest
  show Token.read ('"' :: (s.toList.flatMap escapeChar ++ ['"'] ++ rest)) = _
  rw [Token.read, hread]
  rfl

/-! ## Numbers -/

/-- What follows cannot belong to a number before it. -/
def Stops (rest : List Char) : Prop := ∀ c ∈ rest.head?, c = ',' ∨ c = ']' ∨ c = '}'

theorem stops_nil : Stops [] := fun _ h => by cases h

theorem stops_cons {c : Char} (h : c = ',' ∨ c = ']' ∨ c = '}') (cs : List Char) : Stops (c :: cs) := by
  intro d hd
  obtain rfl := Option.some.inj hd
  exact h

namespace Literal

/-! A literal is read in the same way with something after it that stops it. -/

section Append

variable {rest : List Char} (hrest : Stops rest)

include hrest

theorem spanDigits_append (cs : List Char) :
    spanDigits (cs ++ rest) = ((spanDigits cs).1, (spanDigits cs).2 ++ rest) := by
  induction cs with
  | nil =>
    cases rest with
    | nil => rfl
    | cons c rest =>
      have hc : c.isDigit = false := by
        rcases hrest c rfl with rfl | rfl | rfl <;> rfl
      simp [spanDigits, hc]
  | cons c cs ih =>
    obtain ⟨htake, hdrop⟩ := Prod.mk.inj ih
    by_cases hc : c.isDigit
    · simp [spanDigits, hc, htake, hdrop]
    · simp [spanDigits, hc]

theorem readWhole_append {cs w r : List Char} (h : readWhole cs = some (w, r)) :
    readWhole (cs ++ rest) = some (w, r ++ rest) := by
  cases cs with
  | nil => cases h
  | cons c cs =>
    by_cases hc : c = '0'
    · subst hc
      obtain ⟨rfl, rfl⟩ := Prod.mk.inj (Option.some.inj h)
      rfl
    · have hzero : ∀ r, c :: cs = '0' :: r → False := fun r hr => hc (List.cons.inj hr).1
      rw [readWhole] at h
      · split at h
        · cases h
        · next hdigits =>
          have hspan := spanDigits_append hrest (c :: cs)
          rw [Option.some.inj h] at hspan hdigits
          rw [List.cons_append, readWhole]
          · rw [← List.cons_append, hspan, if_neg hdigits]
          · exact fun r hr => hc (List.cons.inj hr).1
      · exact hzero

theorem readFraction_append {cs f r : List Char} (h : readFraction cs = some (f, r)) :
    readFraction (cs ++ rest) = some (f, r ++ rest) := by
  cases cs with
  | nil =>
    obtain ⟨rfl, rfl⟩ := Prod.mk.inj (Option.some.inj h)
    rw [List.nil_append, readFraction]
    rintro r rfl
    rcases hrest '.' rfl with h | h | h <;> cases h
  | cons c cs =>
    by_cases hc : c = '.'
    · subst hc
      rw [readFraction] at h
      split at h
      · cases h
      · next hdigits =>
        have hspan := spanDigits_append hrest cs
        rw [Option.some.inj h] at hspan hdigits
        rw [List.cons_append, readFraction, hspan, if_neg hdigits]
    · rw [readFraction] at h
      · obtain ⟨rfl, rfl⟩ := Prod.mk.inj (Option.some.inj h)
        rw [List.cons_append, readFraction]
        exact fun r hr => hc (List.cons.inj hr).1
      · exact fun r hr => hc (List.cons.inj hr).1

omit hrest in
theorem readExponentDigits_cons {c : Char} (hplus : c ≠ '+') (hminus : c ≠ '-') (cs : List Char) :
    readExponentDigits (c :: cs) = if (spanDigits (c :: cs)).1.isEmpty then none
      else some ((false, (spanDigits (c :: cs)).1), (spanDigits (c :: cs)).2) := by
  rw [readExponentDigits]
  · exact fun r hr => hplus (List.cons.inj hr).1
  · exact fun r hr => hminus (List.cons.inj hr).1

theorem readExponentDigits_append {cs r : List Char} {e : Bool × List Char}
    (h : readExponentDigits cs = some (e, r)) : readExponentDigits (cs ++ rest) = some (e, r ++ rest) := by
  have hdigits : ∀ (b : Bool) (cs : List Char),
      (if (spanDigits cs).1.isEmpty then none else some ((b, (spanDigits cs).1), (spanDigits cs).2)) =
        some (e, r) →
      (if (spanDigits (cs ++ rest)).1.isEmpty then none
        else some ((b, (spanDigits (cs ++ rest)).1), (spanDigits (cs ++ rest)).2)) =
        some (e, r ++ rest) := by
    intro b cs h
    rw [spanDigits_append hrest cs]
    split at h
    · cases h
    · next hne =>
      obtain ⟨rfl, rfl⟩ := Prod.mk.inj (Option.some.inj h)
      rw [if_neg hne]
  cases cs with
  | nil => cases h
  | cons c cs =>
    by_cases hplus : c = '+'
    · subst hplus
      exact hdigits false cs h
    by_cases hminus : c = '-'
    · subst hminus
      exact hdigits true cs h
    · rw [readExponentDigits_cons hplus hminus] at h
      rw [List.cons_append, readExponentDigits_cons hplus hminus]
      exact hdigits false (c :: cs) h

omit hrest in
theorem readExponent_mark {c : Char} (hc : c = 'e' ∨ c = 'E') (cs : List Char) :
    readExponent (c :: cs) = (readExponentDigits cs).map fun p => (some p.1, p.2) := by
  rcases hc with rfl | rfl <;> rw [readExponent] <;> cases readExponentDigits cs <;> rfl

omit hrest in
theorem readExponent_none {cs : List Char} (h : ∀ c ∈ cs.head?, c ≠ 'e' ∧ c ≠ 'E') :
    readExponent cs = some (none, cs) := by
  rw [readExponent]
  · rintro r rfl
    exact (h 'e' rfl).1 rfl
  · rintro r rfl
    exact (h 'E' rfl).2 rfl

theorem readExponent_append {cs r : List Char} {e : Option (Bool × List Char)}
    (h : readExponent cs = some (e, r)) : readExponent (cs ++ rest) = some (e, r ++ rest) := by
  cases cs with
  | nil =>
    obtain ⟨rfl, rfl⟩ := Prod.mk.inj (Option.some.inj h)
    refine readExponent_none fun c hc => ?_
    rcases hrest c hc with rfl | rfl | rfl <;> decide
  | cons c cs =>
    by_cases hc : c = 'e' ∨ c = 'E'
    · rw [readExponent_mark hc] at h
      obtain ⟨⟨e', r'⟩, hdigits, heq⟩ := Option.map_eq_some_iff.1 h
      obtain ⟨rfl, rfl⟩ := Prod.mk.inj heq
      rw [List.cons_append, readExponent_mark hc, readExponentDigits_append hrest hdigits]
      rfl
    · have hmark : ∀ cs : List Char, ∀ d ∈ (c :: cs).head?, d ≠ 'e' ∧ d ≠ 'E' := by
        rintro cs d hd
        obtain rfl := Option.some.inj hd
        exact not_or.1 hc
      rw [readExponent_none (hmark cs)] at h
      obtain ⟨rfl, rfl⟩ := Prod.mk.inj (Option.some.inj h)
      exact readExponent_none (hmark (cs ++ rest))

end Append

/-- The parts of a literal after its sign. -/
def readUnsigned (negative : Bool) (cs : List Char) : Option (Literal × List Char) := do
  let (whole, cs) ← readWhole cs
  let (fraction, cs) ← readFraction cs
  let (exponent, cs) ← readExponent cs
  return (⟨negative, whole, fraction, exponent⟩, cs)

theorem read_minus (cs : List Char) : read ('-' :: cs) = readUnsigned true cs := rfl

theorem read_unsigned {cs : List Char} (h : ∀ c ∈ cs.head?, c ≠ '-') : read cs = readUnsigned false cs := by
  cases cs with
  | nil => rfl
  | cons c cs =>
    rw [read]
    · rfl
    · exact fun r hr => h c rfl (List.cons.inj hr).1

theorem read_of_readUnsigned {cs : List Char} {p : Literal × List Char}
    (h : readUnsigned false cs = some p) : read cs = some p := by
  rw [read_unsigned]
  · exact h
  · rintro c hc rfl
    obtain ⟨cs, rfl⟩ := List.head?_eq_some_iff.1 hc
    cases h

theorem readUnsigned_eq_some_iff {b : Bool} {cs r : List Char} {l : Literal} :
    readUnsigned b cs = some (l, r) ↔ ∃ w cs₁ f cs₂ e, readWhole cs = some (w, cs₁) ∧
      readFraction cs₁ = some (f, cs₂) ∧ readExponent cs₂ = some (e, r) ∧ l = ⟨b, w, f, e⟩ := by
  constructor
  · intro h
    obtain ⟨⟨w, cs₁⟩, hw, h⟩ := Option.bind_eq_some_iff.1 h
    obtain ⟨⟨f, cs₂⟩, hf, h⟩ := Option.bind_eq_some_iff.1 h
    obtain ⟨⟨e, cs₃⟩, he, h⟩ := Option.bind_eq_some_iff.1 h
    obtain ⟨rfl, rfl⟩ := Prod.mk.inj (Option.some.inj h)
    exact ⟨w, cs₁, f, cs₂, e, hw, hf, he, rfl⟩
  · rintro ⟨w, cs₁, f, cs₂, e, hw, hf, he, rfl⟩
    refine Option.bind_eq_some_iff.2 ⟨_, hw, Option.bind_eq_some_iff.2 ⟨_, hf, ?_⟩⟩
    exact Option.bind_eq_some_iff.2 ⟨_, he, rfl⟩

theorem readUnsigned_append {rest cs r : List Char} {b : Bool} {l : Literal} (hrest : Stops rest)
    (h : readUnsigned b cs = some (l, r)) : readUnsigned b (cs ++ rest) = some (l, r ++ rest) := by
  obtain ⟨w, cs₁, f, cs₂, e, hw, hf, he, rfl⟩ := readUnsigned_eq_some_iff.1 h
  exact readUnsigned_eq_some_iff.2 ⟨w, _, f, _, e, readWhole_append hrest hw, readFraction_append hrest hf,
    readExponent_append hrest he, rfl⟩

/-- A literal is read in the same way when something follows that cannot belong to it. -/
theorem read_append {rest cs r : List Char} {l : Literal} (hrest : Stops rest)
    (h : read cs = some (l, r)) : read (cs ++ rest) = some (l, r ++ rest) := by
  cases cs with
  | nil => cases h
  | cons c cs =>
    by_cases hc : c = '-'
    · subst hc
      exact readUnsigned_append hrest h
    · have hsign : ∀ cs : List Char, ∀ d ∈ (c :: cs).head?, d ≠ '-' := by
        rintro cs d hd rfl
        exact hc (Option.some.inj hd)
      rw [read_unsigned (hsign cs)] at h
      rw [List.cons_append, read_unsigned (hsign (cs ++ rest))]
      exact readUnsigned_append hrest h

end Literal

/-- A number is one token. -/
theorem read_of_literal {cs rest : List Char} {l : Literal} (h : Literal.read cs = some (l, rest)) :
    Token.read cs = some (.number l, rest) := by
  rw [Token.read, h]
  · rfl
  all_goals
    rintro r rfl
    cases h

/-! ## Integers -/

theorem natOf_natChars (n : Nat) : Literal.natOf (natChars n) = n := Nat.ofDigitChars_ten_toDigits

/-- A number other than zero does not start with a zero. -/
theorem head?_natChars {n : Nat} (h : 0 < n) : (natChars n).head? ≠ some '0' := by
  induction n using Nat.strongRecOn with
  | _ n ih =>
    rw [natChars, Nat.toDigits_eq_if (by decide)]
    split
    · next hlt =>
      have hall : ∀ n < 10, 0 < n → [Nat.digitChar n].head? ≠ some '0' := by decide
      exact hall n hlt h
    · next hle =>
      rw [List.head?_append_of_ne_nil _ Nat.toDigits_ne_nil]
      exact ih (n / 10) (by omega) (by omega)

namespace Literal

theorem spanDigits_of_digits {digits rest : List Char} (hdigits : ∀ c ∈ digits, c.isDigit)
    (hrest : ∀ c ∈ rest.head?, c.isDigit = false) : spanDigits (digits ++ rest) = (digits, rest) := by
  have hhead : rest.takeWhile Char.isDigit = [] ∧ rest.dropWhile Char.isDigit = rest := by
    cases rest with
    | nil => exact ⟨rfl, rfl⟩
    | cons c rest => simp [hrest c rfl]
  rw [spanDigits, List.takeWhile_append_of_pos hdigits, List.dropWhile_append_of_pos hdigits, hhead.1,
    hhead.2, List.append_nil]

/-- Digits that may stand before the point: they do not start with a zero, or are a zero alone. -/
structure IsWhole (digits : List Char) : Prop where
  ne_nil : digits ≠ []
  isDigit : ∀ c ∈ digits, c.isDigit
  zero : digits.head? ≠ some '0' ∨ digits = ['0']

theorem isWhole_natChars (n : Nat) : IsWhole (natChars n) where
  ne_nil := Nat.toDigits_ne_nil
  isDigit := fun _ => isDigit_of_mem_toDigits
  zero := by
    rcases Nat.eq_zero_or_pos n with rfl | hpos
    · exact .inr rfl
    · exact .inl (head?_natChars hpos)

theorem readWhole_of_isWhole {digits rest : List Char} (h : IsWhole digits)
    (hrest : ∀ c ∈ rest.head?, c.isDigit = false) : readWhole (digits ++ rest) = some (digits, rest) := by
  rcases h.zero with hzero | rfl
  · rw [readWhole, spanDigits_of_digits h.isDigit hrest, if_neg (by simpa using h.ne_nil)]
    intro r hr
    refine hzero ?_
    rw [← List.head?_append_of_ne_nil _ h.ne_nil, hr]
    rfl
  · rfl

theorem spanDigits_natChars (n : Nat) : spanDigits (natChars n) = (natChars n, []) := by
  have hspan : spanDigits (natChars n ++ []) = (natChars n, []) :=
    spanDigits_of_digits (isWhole_natChars n).isDigit fun c hc => by cases hc
  rwa [List.append_nil] at hspan

end Literal

theorem readWhole_natChars (n : Nat) : Literal.readWhole (natChars n) = some (natChars n, []) := by
  have hread : Literal.readWhole (natChars n ++ []) = some (natChars n, []) :=
    Literal.readWhole_of_isWhole (Literal.isWhole_natChars n) fun c hc => by cases hc
  rwa [List.append_nil] at hread

theorem readUnsigned_natChars (b : Bool) (n : Nat) :
    Literal.readUnsigned b (natChars n) = some (⟨b, natChars n, [], none⟩, []) :=
  Literal.readUnsigned_eq_some_iff.2 ⟨natChars n, [], [], [], none, readWhole_natChars n, rfl, rfl, rfl⟩

theorem read_intChars (n : Int) : Literal.read (intChars n) =
    some (⟨decide (n < 0), natChars n.natAbs, [], none⟩, []) := by
  cases n with
  | ofNat n =>
    have hpos : ¬ Int.ofNat n < 0 := not_lt.2 (Int.natCast_nonneg n)
    rw [intChars, Literal.read_of_readUnsigned (readUnsigned_natChars false n), decide_eq_false hpos]
    rfl
  | negSucc n =>
    rw [intChars, Literal.read_minus, readUnsigned_natChars, decide_eq_true (Int.negSucc_lt_zero n)]
    rfl

/-- An integer that fits is what its literal denotes. -/
theorem value?_intChars {n : Int} (h : -2 ^ 63 ≤ n ∧ n < 2 ^ 64) :
    Literal.value? ⟨decide (n < 0), natChars n.natAbs, [], none⟩ = some (.int n) := by
  rw [Literal.value?]
  simp only [List.isEmpty_nil, Option.isNone_none, and_self, if_true, natOf_natChars, decide_eq_true_eq,
    Nat.pow_eq]
  split
  · rw [if_pos (by omega)]
    congr
    omega
  · rw [if_pos (by omega)]
    congr
    omega

end Json

/-! ## Doubles -/

/-- The text of a number denotes just that number. Not every number does: the text is read by scaling its
digits with a rounded power of ten. -/
def Binary64.ReadsBack (x : Binary64) : Prop :=
  ∃ l, Json.Literal.read (Json.doubleChars x) = some (l, []) ∧ l.value? = some (.double x)

end Rehome
