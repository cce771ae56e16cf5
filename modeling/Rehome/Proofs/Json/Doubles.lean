import Rehome.Proofs.Decimal.Shortest
import Rehome.Proofs.Json.Tokens

/-! # Texts of doubles

The text of a decimal is read as a literal that denotes just that decimal, unless it starts with a zero too
many (`decimalChars_cases`). So the text of a number in normal form is read as a literal that shows this number
(`read_doubleChars`) and no other one (`Literal.Shows.unique`). -/

namespace Rehome.Json

namespace Literal

/-- The decimal that a literal denotes, its sign left out. -/
def decimal (l : Literal) : Decimal := ⟨natOf (l.whole ++ l.fraction), l.writtenExponent - l.fraction.length⟩

/-- Digits that start in the same way may stand before the point too, unless they are a zero and more. -/
theorem IsWhole.congr_head {digits digits' : List Char} (h : IsWhole digits) (hne : digits' ≠ [])
    (hdigits : ∀ c ∈ digits', c.isDigit) (hhead : digits'.head? = digits.head?)
    (hzero : digits = ['0'] → digits' = ['0']) : IsWhole digits' where
  ne_nil := hne
  isDigit := hdigits
  zero := by
    rw [hhead]
    exact h.zero.imp_right hzero

theorem readFraction_of_digits {digits rest : List Char} (hne : digits ≠ [])
    (hdigits : ∀ c ∈ digits, c.isDigit) (hrest : ∀ c ∈ rest.head?, c.isDigit = false) :
    readFraction ('.' :: (digits ++ rest)) = some (digits, rest) := by
  rw [readFraction, spanDigits_of_digits hdigits hrest, if_neg (by simpa using hne)]

theorem readFraction_none {cs : List Char} (h : ∀ c ∈ cs.head?, c ≠ '.') : readFraction cs = some ([], cs) := by
  rw [readFraction]
  rintro r rfl
  exact h '.' rfl rfl

/-- The mark before the digits of an exponent. -/
def signChar (negative : Bool) : Char := if negative then '-' else '+'

theorem readExponent_natChars (negative : Bool) (n : Nat) :
    readExponent ('e' :: signChar negative :: natChars n) = some (some (negative, natChars n), []) := by
  have hspan := spanDigits_natChars n
  have hne : (natChars n).isEmpty = false := by
    rw [List.isEmpty_eq_false_iff]
    exact Nat.toDigits_ne_nil
  cases negative with
  | false =>
    show readExponent ('e' :: '+' :: natChars n) = _
    rw [readExponent_mark (.inl rfl), readExponentDigits, hspan, hne]
    rfl
  | true =>
    show readExponent ('e' :: '-' :: natChars n) = _
    rw [readExponent_mark (.inl rfl), readExponentDigits, hspan, hne]
    rfl

end Literal

/-- A literal with a fraction or an exponent denotes a double, if anything. -/
theorem value?_of_fraction {l : Literal} (h : l.fraction ≠ [] ∨ l.exponent ≠ none) :
    l.value? = l.toDouble?.map .double := by
  rw [Literal.value?]
  refine if_neg fun hplain => ?_
  rcases h with h | h
  · exact h (by simpa using hplain.1)
  · exact h (by simpa using hplain.2)

section Decimal

variable {w f tail : List Char} {e : Option (Bool × List Char)} (hw : Literal.IsWhole w)
  (htail : ∀ c ∈ tail.head?, c.isDigit = false) (he : Literal.readExponent tail = some (e, []))

include hw htail he

theorem readUnsigned_point (hne : f ≠ []) (hf : ∀ c ∈ f, c.isDigit) (b : Bool) :
    Literal.readUnsigned b (w ++ '.' :: (f ++ tail)) = some (⟨b, w, f, e⟩, []) := by
  have hpoint : ∀ c ∈ ('.' :: (f ++ tail)).head?, c.isDigit = false := by
    intro c hc
    obtain rfl := Option.some.inj hc
    rfl
  exact Literal.readUnsigned_eq_some_iff.2 ⟨w, _, f, tail, e, Literal.readWhole_of_isWhole hw hpoint,
    Literal.readFraction_of_digits hne hf htail, he, rfl⟩

theorem readUnsigned_whole (hpoint : ∀ c ∈ tail.head?, c ≠ '.') (b : Bool) :
    Literal.readUnsigned b (w ++ tail) = some (⟨b, w, [], e⟩, []) :=
  Literal.readUnsigned_eq_some_iff.2 ⟨w, tail, [], tail, e, Literal.readWhole_of_isWhole hw htail,
    Literal.readFraction_none hpoint, he, rfl⟩

end Decimal

/-- Digits with a point after the first, if there are others, and an exponent. -/
theorem readUnsigned_scientific {digits : List Char} (h : Literal.IsWhole digits) (negative : Bool) (n : Nat) :
    ∃ w f, (∀ b, Literal.readUnsigned b ((match digits with
      | [] | [_] => digits
      | first :: rest => first :: '.' :: rest) ++ 'e' :: Literal.signChar negative :: natChars n) =
        some (⟨b, w, f, some (negative, natChars n)⟩, [])) ∧
      w ++ f = digits ∧ f.length + 1 = digits.length := by
  have he := Literal.readExponent_natChars negative n
  have hmark : ∀ c ∈ ('e' :: Literal.signChar negative :: natChars n).head?, c.isDigit = false ∧ c ≠ '.' := by
    intro c hc
    obtain rfl := Option.some.inj hc
    decide
  match digits, h with
  | [], h => exact absurd rfl h.ne_nil
  | [c], h =>
    exact ⟨_, _, readUnsigned_whole h (fun c hc => (hmark c hc).1) he fun c hc => (hmark c hc).2, rfl, rfl⟩
  | first :: second :: rest, h =>
    have hfirst : Literal.IsWhole [first] := h.congr_head (by simp)
      (fun c hc => h.isDigit c (List.mem_cons.2 (.inl (List.mem_singleton.1 hc)))) rfl nofun
    exact ⟨_, _, readUnsigned_point hfirst (fun c hc => (hmark c hc).1) he (List.cons_ne_nil second rest)
      fun c hc => h.isDigit c (List.mem_cons_of_mem _ hc), rfl, rfl⟩

theorem natOf_append (cs cs' : List Char) :
    Literal.natOf (cs ++ cs') = 10 ^ cs'.length * Literal.natOf cs + Literal.natOf cs' := by
  show Nat.ofDigitChars 10 (cs ++ cs') 0 = _
  rw [Nat.ofDigitChars_append, Nat.ofDigitChars_eq_ofDigitChars_zero]
  rfl

theorem natOf_replicate_zero (n : Nat) : Literal.natOf (List.replicate n '0') = 0 := by
  show Nat.ofDigitChars 10 (List.replicate n '0') 0 = 0
  rw [Nat.ofDigitChars_replicate_zero, Nat.mul_zero]

theorem value_natOf_zeros (cs : List Char) (n : Nat) (k : ℤ) :
    (⟨Literal.natOf (cs ++ List.replicate n '0'), k⟩ : Decimal).value = Decimal.value ⟨Literal.natOf cs, k + n⟩ := by
  rw [natOf_append, natOf_replicate_zero, List.length_replicate, Decimal.value, Decimal.value,
    zpow_add₀ (by norm_num), zpow_natCast]
  push_cast
  ring

/-- The text is read as a literal with a fraction or an exponent that denotes the decimal. -/
def ReadsAs (cs : List Char) (d : Decimal) : Prop :=
  ∃ w f e, (∀ b, Literal.readUnsigned b cs = some (⟨b, w, f, e⟩, [])) ∧
    (f ≠ [] ∨ e ≠ none) ∧ ∀ b, (Literal.decimal ⟨b, w, f, e⟩).value = d.value

/-! ## Where the point of a decimal is -/

theorem isDigit_of_mem_zeros {n : Nat} {c : Char} (h : c ∈ List.replicate n '0') : c.isDigit := by
  rw [List.eq_of_mem_replicate h]
  rfl

/-- Digits around a point, without an exponent. -/
theorem readsAs_point {w f : List Char} {d : Decimal} (hw : Literal.IsWhole w) (hne : f ≠ [])
    (hf : ∀ c ∈ f, c.isDigit) (hvalue : (⟨Literal.natOf (w ++ f), -f.length⟩ : Decimal).value = d.value) :
    ReadsAs (w ++ '.' :: f) d := by
  have hread : ∀ b, Literal.readUnsigned b (w ++ '.' :: (f ++ [])) = some (⟨b, w, f, none⟩, []) :=
    readUnsigned_point hw (fun c hc => by cases hc) rfl hne hf
  rw [List.append_nil] at hread
  refine ⟨w, f, none, hread, .inl hne, fun b => ?_⟩
  rw [← hvalue, Literal.decimal, Literal.writtenExponent, zero_sub]

/-- Digits with an exponent. -/
theorem readsAs_exponent {cs w f : List Char} {d : Decimal} {negative : Bool} {n : Nat}
    (hread : ∀ b, Literal.readUnsigned b cs = some (⟨b, w, f, some (negative, natChars n)⟩, []))
    (hdigits : Literal.natOf (w ++ f) = d.digits)
    (hexponent : (if negative then -(n : ℤ) else n) - f.length = d.exponent) : ReadsAs cs d := by
  refine ⟨w, f, _, hread, .inr (Option.some_ne_none _), fun b => ?_⟩
  have hwritten : (Literal.mk b w f (some (negative, natChars n))).writtenExponent =
      if negative then -(n : ℤ) else n := by
    cases negative <;> simp [Literal.writtenExponent, natOf_natChars]
  rw [Literal.decimal, hwritten, hdigits, hexponent]

section Point

variable {digits : List Char} {d : Decimal} (hwhole : Literal.IsWhole digits)
  (hdigits : Literal.natOf digits = d.digits)

include hwhole hdigits

/-- The point is after the digits and the zeros that belong to them. There are no zeros after a single zero. -/
theorem readsAs_zeros_point (hexponent : 0 ≤ d.exponent) (hzero : digits = ['0'] → d.exponent = 0) :
    ReadsAs (digits ++ List.replicate d.exponent.toNat '0' ++ ['.', '0']) d := by
  have hw : Literal.IsWhole (digits ++ List.replicate d.exponent.toNat '0') := by
    refine hwhole.congr_head (by simp [hwhole.ne_nil]) (fun c hc => ?_)
      (List.head?_append_of_ne_nil _ hwhole.ne_nil) fun h => ?_
    · exact (List.mem_append.1 hc).elim (hwhole.isDigit c) isDigit_of_mem_zeros
    · rw [hzero h, h]
      rfl
  refine readsAs_point hw (List.cons_ne_nil _ _) (fun c => isDigit_of_mem_zeros (n := 1)) ?_
  have hexponent : -((['0'] : List Char).length : ℤ) + ((d.exponent.toNat + 1 : ℕ) : ℤ) = d.exponent := by
    rw [List.length_singleton]
    omega
  rw [List.append_assoc, ← List.replicate_succ', value_natOf_zeros, hexponent, hdigits]

/-- The point is between the digits. -/
theorem readsAs_point_within {n : Nat} (hn : d.exponent = (n + 1 : ℕ) - digits.length) (hneg : d.exponent < 0) :
    ReadsAs (digits.take (n + 1) ++ '.' :: digits.drop (n + 1)) d := by
  have hw : Literal.IsWhole (digits.take (n + 1)) := by
    refine hwhole.congr_head (by simp [hwhole.ne_nil])
      (fun c hc => hwhole.isDigit c (List.mem_of_mem_take hc)) ?_ fun h => ?_
    · cases digits <;> rfl
    · rw [h, List.take_succ_cons, List.take_nil]
  refine readsAs_point hw ?_ (fun c hc => hwhole.isDigit c (List.mem_of_mem_drop hc)) ?_
  · rw [Ne, List.drop_eq_nil_iff, not_le]
    omega
  · have hexponent : -((digits.drop (n + 1)).length : ℤ) = d.exponent := by
      rw [List.length_drop]
      omega
    rw [List.take_append_drop, hdigits, hexponent]

/-- The point is before the digits, and zeros are between them. -/
theorem readsAs_point_zeros {n : Nat} (hn : d.exponent = -(n + digits.length : ℕ)) :
    ReadsAs ('0' :: '.' :: List.replicate n '0' ++ digits) d := by
  have hw : Literal.IsWhole ['0'] := ⟨List.cons_ne_nil _ _, fun c => isDigit_of_mem_zeros (n := 1), .inr rfl⟩
  have hf : ∀ c ∈ List.replicate n '0' ++ digits, c.isDigit := fun c hc =>
    (List.mem_append.1 hc).elim isDigit_of_mem_zeros (hwhole.isDigit c)
  have hexponent : -((List.replicate n '0' ++ digits).length : ℤ) = d.exponent := by
    rw [List.length_append, List.length_replicate, hn]
  have hzeros : ['0'] ++ List.replicate n '0' = List.replicate (n + 1) '0' := rfl
  show ReadsAs (['0'] ++ '.' :: (List.replicate n '0' ++ digits)) d
  refine readsAs_point hw (by simp [hwhole.ne_nil]) hf ?_
  rw [hexponent, ← List.append_assoc, hzeros, natOf_append, natOf_replicate_zero, hdigits, mul_zero, zero_add]

end Point

/-- The text of a decimal is read as a literal with a fraction or an exponent that denotes the decimal, unless
it starts with two zeros. -/
theorem decimalChars_cases (d : Decimal) : ReadsAs (decimalChars d) d ∨
    d.digits = 0 ∧ 0 < d.exponent ∧ ∃ cs, decimalChars d = '0' :: '0' :: cs := by
  have hwhole := Literal.isWhole_natChars d.digits
  have hdigits := natOf_natChars d.digits
  rw [decimalChars]
  generalize natChars d.digits = digits at hwhole hdigits ⊢
  have hlength : 0 < digits.length := List.length_pos_iff.2 hwhole.ne_nil
  dsimp only
  split_ifs with hpositional hint hone hsmall
  · by_cases hdouble : digits = ['0'] ∧ d.exponent ≠ 0
    · obtain ⟨rfl, hne⟩ := hdouble
      obtain ⟨n, hn⟩ : ∃ n, d.exponent.toNat = n + 1 := ⟨d.exponent.toNat - 1, by omega⟩
      refine .inr ⟨hdigits.symm, by omega, List.replicate n '0' ++ ['.', '0'], ?_⟩
      rw [hn, List.replicate_succ]
      rfl
    · exact .inl (readsAs_zeros_point hwhole hdigits hint fun h => not_not.1 fun hne => hdouble ⟨h, hne⟩)
  · exact .inl (readsAs_point_within hwhole hdigits (by omega) (by omega))
  · exact .inl (readsAs_point_zeros hwhole hdigits (by omega))
  · obtain ⟨w, f, hread, rfl, hf⟩ :=
      readUnsigned_scientific hwhole true (d.exponent + digits.length - 1).natAbs
    exact .inl (readsAs_exponent hread hdigits (by rw [if_pos rfl]; omega))
  · obtain ⟨w, f, hread, rfl, hf⟩ :=
      readUnsigned_scientific hwhole false (d.exponent + digits.length - 1).natAbs
    exact .inl (readsAs_exponent hread hdigits (by rw [if_neg Bool.false_ne_true]; omega))

/-! ## Numbers -/

/-- The text of a number is read as that of its decimal, with its sign. -/
theorem read_doubleChars_of_readUnsigned {x : Binary64} {w f : List Char} {e : Option (Bool × List Char)}
    (h : ∀ b, Literal.readUnsigned b (decimalChars x.shortest) = some (⟨b, w, f, e⟩, [])) :
    Literal.read (doubleChars x) = some (⟨x.negative, w, f, e⟩, []) := by
  rw [doubleChars]
  cases x.negative with
  | false => exact Literal.read_of_readUnsigned (h false)
  | true => exact h true

/-- The literal has a fraction or an exponent, and the sign and the shortest decimal of the number. -/
structure Literal.Shows (l : Literal) (x : Binary64) : Prop where
  marked : l.fraction ≠ [] ∨ l.exponent ≠ none
  negative : l.negative = x.negative
  value : l.decimal.value = x.shortest.value

/-- A literal shows one number in normal form only. -/
theorem Literal.Shows.unique {l : Literal} {x y : Binary64} (h : l.Shows x) (h' : l.Shows y) (hx : x.Proper)
    (hy : y.Proper) : x = y := by
  obtain ⟨hsignificand, hexponent⟩ := Binary64.eq_of_value_shortest hx hy (h.value.symm.trans h'.value)
  cases x
  cases y
  rw [Binary64.mk.injEq]
  exact ⟨h.negative.symm.trans h'.negative, hsignificand, hexponent⟩

/-- The text of a number in normal form is read as a literal that shows the number. -/
theorem read_doubleChars {x : Binary64} (hx : x.Proper) :
    ∃ l, Literal.read (doubleChars x) = some (l, []) ∧ l.Shows x := by
  rcases decimalChars_cases x.shortest with ⟨w, f, e, hread, hmark, hvalue⟩ | ⟨hdigits, hpos, -⟩
  · exact ⟨⟨x.negative, w, f, e⟩, read_doubleChars_of_readUnsigned hread, hmark, rfl, hvalue _⟩
  · -- zero has no digits, but its exponent is zero too
    have hzero := (Binary64.digits_shortest_eq_zero_iff hx).1 hdigits
    rw [Binary64.shortest, if_pos (by simpa [Binary64.isZero] using hzero)] at hpos
    exact absurd hpos (lt_irrefl 0)

end Rehome.Json
