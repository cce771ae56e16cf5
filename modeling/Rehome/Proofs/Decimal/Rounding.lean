import Mathlib.Algebra.Order.Field.Power
import Mathlib.Algebra.Order.Field.Rat
import Mathlib.Data.Nat.Cast.Order.Field
import Mathlib.Tactic.FieldSimp
import Mathlib.Tactic.Linarith
import Mathlib.Tactic.NormNum
import Mathlib.Tactic.Positivity
import Mathlib.Tactic.Ring
import Rehome.Decimal.Binary64

/-! # Rounded numbers are in normal form

A number that comes out of a rounding has the one significand and the one exponent that it can have (`Proper`): a
ratio is scaled by a power of two so that it has 53 binary digits, or by the least power (`exponentOf_spec`), and
rounding adds no more than a carry. So every number that is made of a decimal is in this form
(`proper_ofDecimal`). -/

namespace Rehome

/-- A power with the two parts of its exponent as numerator and denominator. -/
theorem zpow_eq_div {b : ℚ} (hb : b ≠ 0) (e : ℤ) : b ^ e = b ^ e.toNat / b ^ (-e).toNat := by
  rw [← zpow_natCast, ← zpow_natCast, ← zpow_sub₀ hb]
  congr 1
  omega

namespace Binary64

/-- Numbers in the form in which each has one significand and one exponent. -/
structure Proper (x : Binary64) : Prop where
  significand_lt : x.significand < 2 ^ 53
  exponent_mem : minExponent ≤ x.exponent ∧ x.exponent ≤ maxExponent
  subnormal : 0 < x.significand → x.significand < 2 ^ 52 → x.exponent = minExponent
  zero : x.significand = 0 → x.exponent = 0

variable {x y z : Binary64} {num den n k : ℕ} {negative : Bool}

theorem proper_zero (negative : Bool) : (zero negative).Proper where
  significand_lt := Nat.two_pow_pos 53
  exponent_mem := ⟨(by decide : minExponent ≤ 0), (by decide : 0 ≤ maxExponent)⟩
  subnormal h := absurd h (lt_irrefl 0)
  zero _ := rfl

/-! ## Quotients -/

theorem le_roundDiv (hden : 0 < den) (h : n * den ≤ num) : n ≤ roundDiv num den := by
  have hquotient : n ≤ num / den := (Nat.le_div_iff_mul_le hden).2 h
  simp only [roundDiv]
  split_ifs <;> omega

theorem roundDiv_le (hden : 0 < den) (h : num ≤ n * den) : roundDiv num den ≤ n := by
  have hquotient : num / den ≤ n := Nat.div_le_of_le_mul (by rwa [mul_comm])
  have hdivide := Nat.div_add_mod num den
  rcases hquotient.lt_or_eq with hlt | heq
  · simp only [roundDiv]
    split_ifs <;> omega
  · -- nothing is left to be rounded up
    have hrest : num % den = 0 := by
      rw [heq, mul_comm] at hdivide
      omega
    simp only [roundDiv, hrest, heq]
    rw [if_pos (by omega)]

/-! ## Ratios -/

/-- How a ratio compares with a power of two, on both sides of which the scale is moved. -/
theorem scaled_lt_iff (num den k : ℕ) (e : ℤ) :
    num * Nat.pow 2 (-e).toNat < den * Nat.pow 2 e.toNat * Nat.pow 2 k ↔ (num : ℚ) < den * 2 ^ (e + k) := by
  have hpos : (0 : ℚ) < 2 ^ (-e).toNat := by positivity
  rw [zpow_add₀ (by norm_num), zpow_natCast, zpow_eq_div (by norm_num), ← Nat.cast_lt (α := ℚ), Nat.pow_eq,
    Nat.pow_eq, Nat.pow_eq]
  push_cast
  rw [← lt_div_iff₀ hpos]
  refine iff_of_eq (congrArg _ ?_)
  ring

/-- The logarithms of numerator and denominator tell a ratio up to a factor of two in either direction. -/
theorem log2_spec (hnum : num ≠ 0) (hden : den ≠ 0) : (num : ℚ) < den * 2 ^ ((num.log2 : ℤ) - den.log2 + 1) ∧
    den * 2 ^ ((num.log2 : ℤ) - den.log2 - 1) ≤ (num : ℚ) := by
  have hnumLow : (2 : ℚ) ^ (num.log2 : ℤ) ≤ num := by exact_mod_cast Nat.log2_self_le hnum
  have hnumHigh : (num : ℚ) < 2 ^ ((num.log2 : ℤ) + 1) := by exact_mod_cast Nat.lt_log2_self
  have hdenLow : (2 : ℚ) ^ (den.log2 : ℤ) ≤ den := by exact_mod_cast Nat.log2_self_le hden
  have hdenHigh : (den : ℚ) < 2 ^ ((den.log2 : ℤ) + 1) := by exact_mod_cast Nat.lt_log2_self
  constructor
  · calc (num : ℚ) < 2 ^ ((num.log2 : ℤ) + 1) := hnumHigh
      _ = 2 ^ (den.log2 : ℤ) * 2 ^ ((num.log2 : ℤ) - den.log2 + 1) := by
        rw [← zpow_add₀ (by norm_num)]
        congr 1
        ring
      _ ≤ den * 2 ^ ((num.log2 : ℤ) - den.log2 + 1) := mul_le_mul_of_nonneg_right hdenLow (by positivity)
  · calc (den : ℚ) * 2 ^ ((num.log2 : ℤ) - den.log2 - 1)
        ≤ 2 ^ ((den.log2 : ℤ) + 1) * 2 ^ ((num.log2 : ℤ) - den.log2 - 1) :=
          mul_le_mul_of_nonneg_right hdenHigh.le (by positivity)
      _ = 2 ^ (num.log2 : ℤ) := by
        rw [← zpow_add₀ (by norm_num)]
        congr 1
        ring
      _ ≤ num := hnumLow

/-- The ratio has 53 binary digits before the point at the scale of its exponent, or fewer at the least one. -/
theorem exponentOf_spec (hnum : 0 < num) (hden : 0 < den) : minExponent ≤ exponentOf num den ∧
    (num : ℚ) < den * 2 ^ (exponentOf num den + 53) ∧
    (minExponent < exponentOf num den → den * 2 ^ (exponentOf num den + 52) ≤ (num : ℚ)) := by
  obtain ⟨hhigh, hlow⟩ := log2_spec hnum.ne' hden.ne'
  have hexponent : ∃ e, exponentOf num den = max e minExponent ∧ (num : ℚ) < den * 2 ^ (e + 53) ∧
      den * 2 ^ (e + 52) ≤ (num : ℚ) := by
    refine ⟨_, rfl, ?_⟩
    generalize he : (num.log2 : ℤ) - den.log2 - 52 = e
    have hhigh' : (num : ℚ) < den * 2 ^ (e + 53) := by rwa [← he, show ∀ a : ℤ, a - 52 + 53 = a + 1 by omega]
    have hlow' : den * 2 ^ (e + 51) ≤ (num : ℚ) := by rwa [← he, show ∀ a : ℤ, a - 52 + 51 = a - 1 by omega]
    have hscaled := scaled_lt_iff num den 52 e
    split
    · next hlt => exact ⟨by convert hscaled.1 hlt using 3; omega, by convert hlow' using 3; omega⟩
    · next hle => exact ⟨hhigh', not_lt.1 (mt hscaled.2 hle)⟩
  obtain ⟨e, hmax, hupper, hlower⟩ := hexponent
  have hle : e ≤ exponentOf num den := hmax ▸ le_max_left e minExponent
  refine ⟨hmax ▸ le_max_right e minExponent, hupper.trans_le ?_, fun hlt => ?_⟩
  · refine mul_le_mul_of_nonneg_left (zpow_le_zpow_right₀ (by norm_num) ?_) (Nat.cast_nonneg den)
    omega
  · have heq : exponentOf num den = e := by omega
    rwa [heq]

/-- What a ratio is rounded to has 53 binary digits or one more, or it has the least exponent. -/
theorem roundDiv_spec (hnum : 0 < num) (hden : 0 < den) {e : ℤ} (he : exponentOf num den = e) :
    roundDiv (num * Nat.pow 2 (-e).toNat) (den * Nat.pow 2 e.toNat) ≤ 2 ^ 53 ∧
    (minExponent < e → 2 ^ 52 ≤ roundDiv (num * Nat.pow 2 (-e).toNat) (den * Nat.pow 2 e.toNat)) := by
  obtain ⟨-, hupper, hlower⟩ := exponentOf_spec hnum hden
  rw [he] at hupper hlower
  have hscale : 0 < den * Nat.pow 2 e.toNat := Nat.mul_pos hden (Nat.pow_pos (by decide))
  constructor
  · refine roundDiv_le hscale ?_
    rw [mul_comm (2 ^ 53)]
    exact ((scaled_lt_iff num den 53 e).2 hupper).le
  · intro hlt
    refine le_roundDiv hscale ?_
    rw [mul_comm (2 ^ 52)]
    exact not_lt.1 (mt (scaled_lt_iff num den 52 e).1 (not_lt.2 (hlower hlt)))

/-- A ratio that is not less than one has more digits than the least exponent allows. -/
theorem minExponent_lt_exponentOf (hden : 0 < den) (hle : den ≤ num) : minExponent < exponentOf num den := by
  obtain ⟨-, hupper, -⟩ := exponentOf_spec (hden.trans_le hle) hden
  have hpos : (0 : ℚ) < den := Nat.cast_pos.2 hden
  have hone : (1 : ℚ) < 2 ^ (exponentOf num den + 53) := by
    refine lt_of_mul_lt_mul_left ?_ hpos.le
    rw [mul_one]
    exact (Nat.cast_le.2 hle).trans_lt hupper
  have hexponent := (one_lt_zpow_iff_right₀ (by norm_num : (1 : ℚ) < 2)).1 hone
  rw [minExponent]
  omega

theorem proper_of_bounds (negative : Bool) {m : ℕ} {e : ℤ} (hlt : m < 2 ^ 53) (hmin : minExponent ≤ e)
    (hmax : e ≤ maxExponent) (hne : m ≠ 0) (hnormal : minExponent < e → 2 ^ 52 ≤ m) :
    Proper ⟨negative, m, e⟩ where
  significand_lt := hlt
  exponent_mem := ⟨hmin, hmax⟩
  subnormal _ hsmall := le_antisymm (not_lt.1 fun h => absurd (hnormal h) (not_le.2 hsmall)) hmin
  zero hzero := absurd hzero hne

/-- A ratio is rounded to a number in normal form, and a ratio that is not less than one not to zero. -/
theorem ofRatio_spec (hden : 0 < den) (h : ofRatio negative num den = some x) :
    x.Proper ∧ (den ≤ num → 0 < x.significand) := by
  have hfull : Nat.pow 2 53 = 2 ^ 53 := by norm_num
  have hhalf : 0 < Nat.pow 2 52 ∧ Nat.pow 2 52 < 2 ^ 53 ∧ 2 ^ 52 ≤ Nat.pow 2 52 := by norm_num
  rw [ofRatio] at h
  obtain ⟨hpos, hlt, hle⟩ := hhalf
  split at h
  · obtain rfl := Option.some.inj h
    exact ⟨proper_zero negative, fun hle => by omega⟩
  next hnum =>
  extract_lets e m at h
  have hmin : minExponent ≤ e := (exponentOf_spec (Nat.pos_of_ne_zero hnum) hden).1
  have hupper : m ≤ 2 ^ 53 := (roundDiv_spec (Nat.pos_of_ne_zero hnum) hden rfl).1
  have hlower : minExponent < e → 2 ^ 52 ≤ m := (roundDiv_spec (Nat.pos_of_ne_zero hnum) hden rfl).2
  have hone : den ≤ num → minExponent < e := minExponent_lt_exponentOf hden
  clear_value m e
  by_cases hcarry : m = Nat.pow 2 53
  · rw [if_pos hcarry] at h
    dsimp only at h
    rw [if_neg hpos.ne'] at h
    split at h
    · cases h
    next hmax =>
    obtain rfl := Option.some.inj h
    have hmin' : minExponent ≤ e + 1 := hmin.trans (Int.le_add_one le_rfl)
    exact ⟨proper_of_bounds negative hlt hmin' (not_lt.1 hmax) hpos.ne' fun _ => hle, fun _ => hpos⟩
  · rw [if_neg hcarry] at h
    dsimp only at h
    split at h
    · next hzero =>
      obtain rfl := Option.some.inj h
      refine ⟨proper_zero negative, fun hle => absurd hzero ?_⟩
      exact (lt_of_lt_of_le (by positivity) (hlower (hone hle))).ne'
    split at h
    · cases h
    next hne hmax =>
    obtain rfl := Option.some.inj h
    have hlt : m < 2 ^ 53 := lt_of_le_of_ne hupper fun heq => hcarry (heq.trans hfull.symm)
    exact ⟨proper_of_bounds negative hlt hmin (not_lt.1 hmax) hne hlower, fun _ => Nat.pos_of_ne_zero hne⟩

/-! ## Decimals -/

theorem num_pos (h : 0 < x.significand) : 0 < x.num := Nat.mul_pos h (Nat.pow_pos (by decide))

theorem den_pos (x : Binary64) : 0 < x.den := Nat.pow_pos (by decide)

theorem Proper.withSign (h : x.Proper) (negative : Bool) : { x with negative := negative }.Proper :=
  ⟨h.significand_lt, h.exponent_mem, h.subnormal, h.zero⟩

theorem proper_mul (h : x.mul y = some z) : z.Proper := (ofRatio_spec (Nat.mul_pos x.den_pos y.den_pos) h).1

/-- Dividing by a power of ten leaves a number in normal form, since the power is not rounded to zero. -/
theorem proper_div_pow10 (hy : pow10 k = some y) (h : x.div y = some z) : z.Proper := by
  have hpos : 0 < y.significand := (ofRatio_spec Nat.one_pos hy).2 (Nat.one_le_pow _ _ (by decide))
  exact (ofRatio_spec (Nat.mul_pos x.den_pos (num_pos hpos)) h).1

theorem proper_scaleUp (hx : x.Proper) (h : x.scaleUp k = some z) : z.Proper := by
  rw [scaleUp] at h
  split at h
  · obtain ⟨y, -, hz⟩ := Option.bind_eq_some_iff.1 h
    exact proper_mul hz
  split at h
  · obtain rfl := Option.some.inj h
    exact hx
  · cases h

theorem proper_scaleDown (h : x.scaleDown k = some z) : z.Proper := by
  rw [scaleDown] at h
  split at h
  · obtain ⟨y, hy, hz⟩ := Option.bind_eq_some_iff.1 h
    exact proper_div_pow10 hy hz
  obtain ⟨p, hp, h⟩ := Option.bind_eq_some_iff.1 h
  obtain ⟨y, -, h⟩ := Option.bind_eq_some_iff.1 h
  split at h
  · obtain ⟨q, hq, hz⟩ := Option.bind_eq_some_iff.1 h
    exact proper_div_pow10 hq hz
  · obtain rfl := Option.some.inj h
    exact proper_zero false

/-- What a decimal is rounded to is in normal form. -/
theorem proper_ofDecimal {digits : ℕ} {exponent : ℤ} (h : ofDecimal negative digits exponent = some x) :
    x.Proper := by
  obtain ⟨y, hy, h⟩ := Option.bind_eq_some_iff.1 h
  dsimp only at h
  split at h
  · obtain ⟨z, hz, h⟩ := Option.bind_eq_some_iff.1 h
    obtain rfl := Option.some.inj h
    exact (proper_scaleUp (ofRatio_spec Nat.one_pos hy).1 hz).withSign negative
  · obtain ⟨z, hz, h⟩ := Option.bind_eq_some_iff.1 h
    obtain rfl := Option.some.inj h
    exact (proper_scaleDown hz).withSign negative

end Binary64

end Rehome
