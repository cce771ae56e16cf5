import Rehome.Decimal.Shortest
import Rehome.Proofs.Decimal.Rounding

/-! # A number is told from its shortest decimal

The decimals that round to a number make up an interval around it (`isRoundedFrom_iff`). The intervals of two
numbers have at most one end in common, and it belongs to one of them only, since of two neighbours one is
even (`eq_of_isRoundedFrom`). The shortest decimal of a number is in its interval: the estimate of the decade is
not too large by more than is counted down from it (`decade_le`), and a grid of sixteen digits more is finer than
the interval (`grid_lt`). -/

namespace Rehome

namespace Decimal

/-- The number that is written. -/
def value (d : Decimal) : ℚ := d.digits * 10 ^ d.exponent

theorem value_eq (d : Decimal) : d.value = d.num / d.den := by
  rw [value, num, den, zpow_eq_div (by norm_num), Nat.pow_eq, Nat.pow_eq]
  push_cast
  rw [mul_div_assoc]

theorem den_pos (d : Decimal) : 0 < d.den := Nat.pow_pos (by decide)

theorem value_eq_zero_iff (d : Decimal) : d.value = 0 ↔ d.digits = 0 := by
  rw [value, mul_eq_zero, Nat.cast_eq_zero, or_iff_left (zpow_ne_zero _ (by norm_num))]

end Decimal

namespace Binary64

variable {x y : Binary64} {d : Decimal}

/-- The distance between neighbours. -/
def unit (x : Binary64) : ℚ := 2 ^ x.exponent

/-- The absolute value. -/
def magnitude (x : Binary64) : ℚ := x.significand * x.unit

/-- Half the way to the next number below. -/
def low (x : Binary64) : ℚ := x.magnitude - if x.narrowBelow then x.unit / 4 else x.unit / 2

/-- Half the way to the next number above. -/
def high (x : Binary64) : ℚ := x.magnitude + x.unit / 2

theorem unit_pos (x : Binary64) : 0 < x.unit := zpow_pos (by norm_num) _

theorem unit_eq (x : Binary64) : x.unit = 2 ^ x.exponent.toNat / x.den := by
  rw [unit, zpow_eq_div (by norm_num), den, Nat.pow_eq, Nat.cast_pow, Nat.cast_ofNat]

theorem isRoundedFrom_iff (hx : 0 < x.significand) : x.isRoundedFrom d ↔
    if x.significand % 2 = 0 then x.low ≤ d.value ∧ d.value ≤ x.high
    else x.low < d.value ∧ d.value < x.high := by
  have hpos : (0 : ℚ) < 4 * x.den * d.den := by
    have hden := x.den_pos
    have hden' := d.den_pos
    positivity
  have hunit := x.den_pos
  have hden := d.den_pos
  have hvalue : d.value = ((4 * d.num * x.den : ℕ) : ℚ) / (4 * x.den * d.den) := by
    rw [Decimal.value_eq]
    push_cast
    field_simp
  have hhigh : x.high = ((4 * x.num * d.den + 2 * (Nat.pow 2 x.exponent.toNat * d.den) : ℕ) : ℚ) /
      (4 * x.den * d.den) := by
    rw [high, magnitude, unit_eq, num, Nat.pow_eq]
    push_cast
    field_simp
    ring
  have hlow : x.low = ((4 * x.num * d.den - (if x.narrowBelow then Nat.pow 2 x.exponent.toNat * d.den
      else 2 * (Nat.pow 2 x.exponent.toNat * d.den)) : ℕ) : ℚ) / (4 * x.den * d.den) := by
    have hle : 2 * (Nat.pow 2 x.exponent.toNat * d.den) ≤ 4 * x.num * d.den := by
      rw [num]
      nlinarith [Nat.zero_le (Nat.pow 2 x.exponent.toNat * d.den)]
    rw [low, magnitude, unit_eq]
    split
    · rw [Nat.cast_sub (by omega), num, Nat.pow_eq]
      push_cast
      field_simp
    · rw [Nat.cast_sub hle, num, Nat.pow_eq]
      push_cast
      field_simp
      ring
  have hscale : decide (0 < x.den * d.den) = true := decide_eq_true (Nat.mul_pos x.den_pos d.den_pos)
  rw [hvalue, hhigh, hlow, isRoundedFrom]
  simp only [div_le_div_iff_of_pos_right hpos, div_lt_div_iff_of_pos_right hpos, Nat.cast_le, Nat.cast_lt,
    hscale, Bool.true_and]
  split <;> simp


/-! ## One decimal, one number -/

theorem narrowBelow_iff : x.narrowBelow ↔ x.significand = 2 ^ 52 ∧ minExponent < x.exponent := by
  simp [narrowBelow]

theorem magnitude_sub_le_low (x : Binary64) : x.magnitude - x.unit / 2 ≤ x.low := by
  have hunit := x.unit_pos
  rw [low]
  split <;> linarith

/-- Where numbers are as far apart as they are above, the way to the next one below is the longer. -/
theorem le_low_of_normal (h : 2 ^ 52 ≤ x.significand) (hexponent : minExponent < x.exponent) :
    (2 ^ 52 - 1 / 4) * x.unit ≤ x.low := by
  have hunit := x.unit_pos
  rcases h.eq_or_lt with heq | hlt
  · rw [low, if_pos (narrowBelow_iff.2 ⟨heq.symm, hexponent⟩), magnitude, ← heq]
    push_cast
    linarith
  · have hsignificand : (2 ^ 52 + 1 : ℚ) ≤ x.significand := by exact_mod_cast hlt
    refine le_trans ?_ x.magnitude_sub_le_low
    rw [magnitude]
    nlinarith

/-- A number lies below all decimals that round to a greater one; the one decimal that may lie half the way
between them rounds to one of them only. -/
theorem high_le_low (hx : x.Proper) (hy : y.Proper) (hpos : 0 < y.significand)
    (h : x.exponent < y.exponent ∨ x.exponent = y.exponent ∧ x.significand < y.significand) :
    x.high ≤ y.low ∧ (x.significand % 2 = 0 → y.significand % 2 = 0 → x.high < y.low) := by
  have hunit := x.unit_pos
  rcases h with h | ⟨hexponent, h⟩
  · have hexponent : minExponent < y.exponent := lt_of_le_of_lt hx.exponent_mem.1 h
    have hnormal : 2 ^ 52 ≤ y.significand := by
      by_contra hlt
      exact hexponent.ne' (hy.subnormal hpos (not_le.1 hlt))
    have hdouble : 2 * x.unit ≤ y.unit := by
      have hstep : x.unit * 2 = 2 ^ (x.exponent + 1) := (zpow_add_one₀ (by norm_num) _).symm
      rw [mul_comm, hstep]
      exact zpow_le_zpow_right₀ (by norm_num) h
    have hlow := le_low_of_normal hnormal hexponent
    have hlt : (x.significand : ℚ) + 1 ≤ 2 ^ 53 := by exact_mod_cast hx.significand_lt
    refine ⟨?_, fun heven _ => ?_⟩
    · rw [high, magnitude]
      nlinarith
    · -- the largest significand is odd
      have hlt : (x.significand : ℚ) + 2 ≤ 2 ^ 53 := by
        have hlt := hx.significand_lt
        exact_mod_cast (by omega : x.significand + 2 ≤ 2 ^ 53)
      rw [high, magnitude]
      nlinarith
  · have hsame : y.unit = x.unit := by rw [unit, unit, hexponent]
    have hlow := y.magnitude_sub_le_low
    rw [magnitude, hsame] at hlow
    have hlt : (x.significand : ℚ) + 1 ≤ y.significand := by exact_mod_cast h
    refine ⟨?_, fun hx hy => ?_⟩
    · rw [high, magnitude]
      nlinarith
    · have hlt : (x.significand : ℚ) + 2 ≤ y.significand := by
        exact_mod_cast (by omega : x.significand + 2 ≤ y.significand)
      rw [high, magnitude]
      nlinarith

theorem le_of_isRoundedFrom (hx : 0 < x.significand) (h : x.isRoundedFrom d) :
    x.low ≤ d.value ∧ d.value ≤ x.high := by
  have hiff := (isRoundedFrom_iff hx).1 h
  split at hiff
  · exact hiff
  · exact ⟨hiff.1.le, hiff.2.le⟩

/-- No decimal rounds to two numbers, one of which is greater. -/
theorem not_isRoundedFrom_both (hx : x.Proper) (hy : y.Proper) (hxpos : 0 < x.significand)
    (hypos : 0 < y.significand)
    (h : x.exponent < y.exponent ∨ x.exponent = y.exponent ∧ x.significand < y.significand)
    (hdx : x.isRoundedFrom d) (hdy : y.isRoundedFrom d) : False := by
  obtain ⟨hle, hlt⟩ := high_le_low hx hy hypos h
  have hhigh := (le_of_isRoundedFrom hxpos hdx).2
  have hlow := (le_of_isRoundedFrom hypos hdy).1
  rw [isRoundedFrom_iff hxpos] at hdx
  rw [isRoundedFrom_iff hypos] at hdy
  split at hdx
  · split at hdy
    · next hx hy => exact absurd (hlow.trans hhigh) (not_le.2 (hlt hx hy))
    · exact absurd (hdy.1.trans_le hhigh) (not_lt.2 hle)
  · exact absurd (hlow.trans_lt hdx.2) (not_lt.2 hle)

/-- A decimal rounds to one number only. -/
theorem eq_of_isRoundedFrom (hx : x.Proper) (hy : y.Proper) (hxpos : 0 < x.significand)
    (hypos : 0 < y.significand) (hdx : x.isRoundedFrom d) (hdy : y.isRoundedFrom d) :
    x.significand = y.significand ∧ x.exponent = y.exponent := by
  rcases lt_trichotomy x.exponent y.exponent with h | h | h
  · exact (not_isRoundedFrom_both hx hy hxpos hypos (.inl h) hdx hdy).elim
  · rcases lt_trichotomy x.significand y.significand with h' | h' | h'
    · exact (not_isRoundedFrom_both hx hy hxpos hypos (.inr ⟨h, h'⟩) hdx hdy).elim
    · exact ⟨h', h⟩
    · exact (not_isRoundedFrom_both hy hx hypos hxpos (.inr ⟨h.symm, h'⟩) hdy hdx).elim
  · exact (not_isRoundedFrom_both hy hx hypos hxpos (.inl h) hdy hdx).elim

/-! ## The shortest decimal is one of them -/

theorem lt_high (x : Binary64) : x.magnitude < x.high := by
  have hunit := x.unit_pos
  rw [high]
  linarith

theorem low_lt (x : Binary64) : x.low < x.magnitude := by
  have hunit := x.unit_pos
  rw [low]
  split <;> linarith

theorem le_low_of_not (hx : 0 < x.significand) (hle : d.value ≤ x.magnitude) (h : ¬x.isRoundedFrom d) :
    d.value ≤ x.low := by
  have hhigh := hle.trans_lt x.lt_high
  rw [isRoundedFrom_iff hx] at h
  by_contra hlow
  refine h ?_
  split
  · exact ⟨(not_le.1 hlow).le, hhigh.le⟩
  · exact ⟨not_le.1 hlow, hhigh⟩

theorem high_le_of_not (hx : 0 < x.significand) (hle : x.magnitude ≤ d.value) (h : ¬x.isRoundedFrom d) :
    x.high ≤ d.value := by
  have hlow := x.low_lt.trans_le hle
  rw [isRoundedFrom_iff hx] at h
  by_contra hhigh
  refine h ?_
  split
  · exact ⟨hlow.le, (not_le.1 hhigh).le⟩
  · exact ⟨hlow, not_le.1 hhigh⟩

theorem magnitude_eq (x : Binary64) : x.magnitude = x.num / x.den := by
  rw [magnitude, unit_eq, num, Nat.pow_eq]
  push_cast
  rw [mul_div_assoc]

theorem isRoundedFrom_of_onGrid {k : ℤ} (h : x.onGrid k = some d) : x.isRoundedFrom d := by
  rw [onGrid] at h
  dsimp only at h
  split at h
  · next hbelow _ => exact Option.some.inj h ▸ hbelow
  · next _ habove => exact Option.some.inj h ▸ habove
  · cases h
  · next hbelow habove =>
    split at h
    · exact Option.some.inj h ▸ hbelow
    split at h
    · exact Option.some.inj h ▸ habove
    split at h
    · exact Option.some.inj h ▸ hbelow
    · exact Option.some.inj h ▸ habove

/-- A grid that is finer than the interval has a decimal in it. -/
theorem isSome_onGrid (hx : 0 < x.significand) {k : ℤ} (h : (10 : ℚ) ^ k < x.high - x.low) :
    (x.onGrid k).isSome := by
  by_contra hnone
  have hden := x.den_pos
  let n := x.num * Nat.pow 10 (-k).toNat
  let m := x.den * Nat.pow 10 k.toNat
  have hm : 0 < m := Nat.mul_pos hden (Nat.pow_pos (by decide))
  have hneither : ¬x.isRoundedFrom ⟨n / m, k⟩ ∧ ¬x.isRoundedFrom ⟨n / m + 1, k⟩ := by
    rw [onGrid] at hnone
    dsimp only at hnone
    split at hnone
    · exact absurd rfl hnone
    · exact absurd rfl hnone
    · next hbelow habove => exact ⟨by rw [hbelow]; decide, by rw [habove]; decide⟩
    · split_ifs at hnone <;> exact absurd rfl hnone
  have hmagnitude : x.magnitude = (n : ℚ) / m * 10 ^ k := by
    rw [magnitude_eq, zpow_eq_div (by norm_num) k]
    simp only [n, m, Nat.pow_eq]
    push_cast
    field_simp
  have hgrid : (0 : ℚ) < 10 ^ k := zpow_pos (by norm_num) k
  have hbelow : (⟨n / m, k⟩ : Decimal).value ≤ x.magnitude := by
    rw [hmagnitude, Decimal.value]
    exact mul_le_mul_of_nonneg_right Nat.cast_div_le hgrid.le
  have habove : x.magnitude ≤ (⟨n / m + 1, k⟩ : Decimal).value := by
    rw [hmagnitude, Decimal.value]
    refine mul_le_mul_of_nonneg_right ?_ hgrid.le
    rw [div_le_iff₀ (by exact_mod_cast hm)]
    rw [mul_comm]
    exact_mod_cast (Nat.lt_mul_div_succ n hm).le
  have hlow := le_low_of_not hx hbelow hneither.1
  have hhigh := high_le_of_not hx habove hneither.2
  have hstep : (⟨n / m + 1, k⟩ : Decimal).value = (⟨n / m, k⟩ : Decimal).value + 10 ^ k := by
    rw [Decimal.value, Decimal.value]
    push_cast
    ring
  linarith

theorem isRoundedFrom_shortestFrom {n : ℕ} {k : ℤ} (h : ∃ i < n, (x.onGrid (k - i)).isSome) :
    x.isRoundedFrom (x.shortestFrom n k) := by
  induction n generalizing k with
  | zero =>
    obtain ⟨i, hi, -⟩ := h
    exact absurd hi (Nat.not_lt_zero i)
  | succ n ih =>
    rw [shortestFrom]
    cases hgrid : x.onGrid k with
    | some d => exact isRoundedFrom_of_onGrid hgrid
    | none =>
      obtain ⟨i, hi, hsome⟩ := h
      cases i with
      | zero =>
        rw [Nat.cast_zero, sub_zero, hgrid] at hsome
        cases hsome
      | succ i =>
        refine ih ⟨i, Nat.lt_of_succ_lt_succ hi, ?_⟩
        rwa [Nat.cast_succ, sub_add_eq_sub_sub_swap] at hsome

/-! The decade of a number is found by counting down from an estimate. -/

theorem decadeFrom_le {n : ℕ} {k : ℤ} (h : (10 : ℚ) ^ (k - n) ≤ x.magnitude) :
    (10 : ℚ) ^ x.decadeFrom n k ≤ x.magnitude := by
  induction n generalizing k with
  | zero => simpa [decadeFrom] using h
  | succ n ih =>
    rw [decadeFrom]
    split
    · next hle =>
      have hden := x.den_pos
      rw [magnitude_eq, zpow_eq_div (by norm_num), div_le_div_iff₀ (by positivity) (by exact_mod_cast hden)]
      simp only [Nat.pow_eq] at hle
      exact_mod_cast hle
    · refine ih ?_
      rwa [Nat.cast_succ, sub_add_eq_sub_sub_swap] at h

/-- `30103 / 100000` is close enough to the logarithm of two. -/
theorem ten_pow_le_two_pow : (∀ l < 1100, 10 ^ (l * 30103 / 100000) ≤ 100 * 2 ^ l) ∧
    ∀ l < 1100, 2 ^ l ≤ 100 * 10 ^ (l * 30103 / 100000) := by
  decide +kernel

/-- The estimate of a decade is too large by two at most. -/
theorem ten_zpow_le_two_zpow {l : ℤ} (h : -1100 < l ∧ l < 1100) :
    (10 : ℚ) ^ (l * 30103 / 100000 - 2) ≤ 2 ^ l := by
  have hten : (0 : ℚ) < 10 := by norm_num
  rw [zpow_sub₀ hten.ne', div_le_iff₀ (by positivity)]
  obtain ⟨n, rfl | rfl⟩ := l.eq_nat_or_neg
  · have hquotient : (n : ℤ) * 30103 / 100000 = ((n * 30103 / 100000 : ℕ) : ℤ) := by push_cast; rfl
    have hle := ten_pow_le_two_pow.1 n (by omega)
    rw [hquotient, zpow_natCast, zpow_natCast]
    calc (10 : ℚ) ^ (n * 30103 / 100000) ≤ 100 * 2 ^ n := by exact_mod_cast hle
      _ = 2 ^ n * 10 ^ (2 : ℤ) := by rw [mul_comm]; norm_num
  · have hquotient : -(n : ℤ) * 30103 / 100000 ≤ -((n * 30103 / 100000 : ℕ) : ℤ) := by
      push_cast
      omega
    have hle := ten_pow_le_two_pow.2 n (by omega)
    calc (10 : ℚ) ^ (-(n : ℤ) * 30103 / 100000) ≤ 10 ^ (-((n * 30103 / 100000 : ℕ) : ℤ)) :=
          zpow_le_zpow_right₀ (by norm_num) hquotient
      _ ≤ 2 ^ (-(n : ℤ)) * 10 ^ (2 : ℤ) := by
        rw [zpow_neg, zpow_neg, zpow_natCast, zpow_natCast, inv_mul_eq_div, inv_le_iff_one_le_mul₀ (by positivity),
          div_mul_eq_mul_div, le_div_iff₀ (by positivity), one_mul]
        norm_num
        exact_mod_cast hle

theorem decade_le (hx : x.Proper) (hpos : 0 < x.significand) : (10 : ℚ) ^ x.decade ≤ x.magnitude := by
  refine decadeFrom_le ?_
  have hlog : Nat.log2 x.significand < 53 := (Nat.log2_lt hpos.ne').2 hx.significand_lt
  have hbounds : -1100 < (Nat.log2 x.significand : ℤ) + x.exponent ∧
      (Nat.log2 x.significand : ℤ) + x.exponent < 1100 := by
    have hexponent := hx.exponent_mem
    rw [minExponent, maxExponent] at hexponent
    omega
  have hestimate := ten_zpow_le_two_zpow hbounds
  rw [add_sub_assoc]
  refine hestimate.trans ?_
  rw [zpow_add₀ (by norm_num), zpow_natCast]
  refine mul_le_mul_of_nonneg_right ?_ x.unit_pos.le
  exact_mod_cast Nat.log2_self_le hpos.ne'

/-- Seventeen digits are enough. -/
theorem grid_lt (hx : x.Proper) (hpos : 0 < x.significand) : (10 : ℚ) ^ (x.decade - 16) < x.high - x.low := by
  have hdecade := decade_le hx hpos
  have hunit := x.unit_pos
  have hlt : (x.significand : ℚ) < 2 ^ 53 := by exact_mod_cast hx.significand_lt
  rw [zpow_sub₀ (by norm_num), div_lt_iff₀ (by positivity), high, low]
  rw [magnitude] at hdecade ⊢
  split
  · next hnarrow =>
    rw [(narrowBelow_iff.1 hnarrow).1] at hdecade ⊢
    refine hdecade.trans_lt ?_
    norm_num
    linarith
  · refine hdecade.trans_lt ?_
    norm_num
    nlinarith

end Binary64

namespace Decimal

variable {d : Decimal}

theorem value_dropZeros (n : ℕ) (d : Decimal) : (d.dropZeros n).value = d.value := by
  induction n generalizing d with
  | zero => rfl
  | succ n ih =>
    rw [dropZeros]
    split
    · next h =>
      rw [ih, value, value]
      have hdigits : (d.digits : ℚ) = (d.digits / 10 : ℕ) * 10 := by
        exact_mod_cast (Nat.div_mul_cancel (Nat.dvd_of_mod_eq_zero h.2)).symm
      rw [hdigits, zpow_add_one₀ (by norm_num)]
      ring
    · rfl

end Decimal

namespace Binary64

variable {x : Binary64} {d : Decimal}

theorem isRoundedFrom_congr (hx : 0 < x.significand) {d' : Decimal} (h : d'.value = d.value) :
    x.isRoundedFrom d' ↔ x.isRoundedFrom d := by
  rw [isRoundedFrom_iff hx, isRoundedFrom_iff hx, h]

/-- The shortest decimal of a number rounds to it. -/
theorem isRoundedFrom_shortest (hx : x.Proper) (hpos : 0 < x.significand) : x.isRoundedFrom x.shortest := by
  have hsome := isSome_onGrid hpos (grid_lt hx hpos)
  rw [shortest, if_neg (by simpa [isZero] using hpos.ne'), isRoundedFrom_congr hpos (Decimal.value_dropZeros 17 _)]
  exact isRoundedFrom_shortestFrom ⟨16, by decide, hsome⟩

/-- The shortest decimal of zero only has no digits. -/
theorem digits_shortest_eq_zero_iff (hx : x.Proper) : x.shortest.digits = 0 ↔ x.significand = 0 := by
  constructor
  · intro hdigits
    by_contra hne
    have hpos := Nat.pos_of_ne_zero hne
    have hlow := (le_of_isRoundedFrom hpos (isRoundedFrom_shortest hx hpos)).1
    have hunit := x.unit_pos
    have hone : (1 : ℚ) ≤ x.significand := by exact_mod_cast hpos
    have hbelow := x.magnitude_sub_le_low
    rw [Decimal.value, hdigits, Nat.cast_zero, zero_mul] at hlow
    rw [magnitude] at hbelow
    nlinarith
  · intro hzero
    rw [shortest, if_pos (by simpa [isZero] using hzero)]

/-- The shortest decimal tells a number from all others, up to its sign. -/
theorem eq_of_value_shortest {y : Binary64} (hx : x.Proper) (hy : y.Proper)
    (h : x.shortest.value = y.shortest.value) :
    x.significand = y.significand ∧ x.exponent = y.exponent := by
  have hdigits : x.shortest.digits = 0 ↔ y.shortest.digits = 0 := by
    rw [← Decimal.value_eq_zero_iff, h, Decimal.value_eq_zero_iff]
  rw [digits_shortest_eq_zero_iff hx, digits_shortest_eq_zero_iff hy] at hdigits
  by_cases hzero : x.significand = 0
  · rw [hzero, hdigits.1 hzero, hx.zero hzero, hy.zero (hdigits.1 hzero)]
    exact ⟨rfl, rfl⟩
  · have hxpos := Nat.pos_of_ne_zero hzero
    have hypos := Nat.pos_of_ne_zero (mt hdigits.2 hzero)
    exact eq_of_isRoundedFrom hx hy hxpos hypos (isRoundedFrom_shortest hx hxpos)
      ((isRoundedFrom_congr hypos h).2 (isRoundedFrom_shortest hy hypos))

end Binary64

end Rehome
