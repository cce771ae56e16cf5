import Rehome.Decimal.Binary64

/-! # The shortest decimal of a binary number

Of the decimals that round to a number, those with the fewest digits, and of these the nearest. On each
decimal grid, coarsest first, only the two neighbours of the number have to be tried. -/

namespace Rehome

/-- The decimal `digits · 10 ^ exponent`. -/
structure Decimal where
  digits : Nat
  exponent : Int
deriving DecidableEq, Repr

namespace Decimal

/-- Numerator of the value. -/
def num (d : Decimal) : Nat := d.digits * Nat.pow 10 d.exponent.toNat

/-- Denominator of the value. -/
def den (d : Decimal) : Nat := Nat.pow 10 (-d.exponent).toNat

/-- Drops up to `n` zeros from the end of the digits. -/
def dropZeros : Nat → Decimal → Decimal
  | 0, d => d
  | n + 1, d =>
    if d.digits ≠ 0 ∧ d.digits % 10 = 0 then dropZeros n ⟨d.digits / 10, d.exponent + 1⟩ else d

end Decimal

namespace Binary64

/-- Half the distance to the next number below is a quarter of the unit when the significand is the
smallest with 53 digits, else half of it. -/
def narrowBelow (x : Binary64) : Bool :=
  x.significand == Nat.pow 2 52 && minExponent < x.exponent

/-- Does the decimal round to the absolute value of `x`? Both are compared in quarters of a unit; the
ends of the interval belong to it when the significand is even. -/
def isRoundedFrom (x : Binary64) (d : Decimal) : Bool :=
  let scale := x.den * d.den
  let unit := Nat.pow 2 x.exponent.toNat * d.den
  let value := 4 * d.num * x.den
  let centre := 4 * x.num * d.den
  let below := centre - (if x.narrowBelow then unit else 2 * unit)
  let above := centre + 2 * unit
  0 < scale &&
    if x.significand % 2 = 0 then below ≤ value && value ≤ above
    else below < value && value < above

/-- The largest `k` with `10 ^ k` at most the value, found by counting down from `k`. -/
def decadeFrom (x : Binary64) : Nat → Int → Int
  | 0, k => k
  | n + 1, k =>
    if Nat.pow 10 k.toNat * x.den ≤ x.num * Nat.pow 10 (-k).toNat then k else decadeFrom x n (k - 1)

/-- The largest `k` with `10 ^ k` at most the absolute value of a nonzero number. -/
def decade (x : Binary64) : Int :=
  decadeFrom x 4 (((Nat.log2 x.significand : Int) + x.exponent) * 30103 / 100000 + 2)

/-- The decimal on the grid of `10 ^ k` that rounds to `x`: the nearer of two, the even one of a tie. -/
def onGrid (x : Binary64) (k : Int) : Option Decimal :=
  let num := x.num * Nat.pow 10 (-k).toNat
  let den := x.den * Nat.pow 10 k.toNat
  let below : Decimal := ⟨num / den, k⟩
  let above : Decimal := ⟨num / den + 1, k⟩
  match x.isRoundedFrom below, x.isRoundedFrom above with
  | true, false => some below
  | false, true => some above
  | false, false => none
  | true, true =>
    let r := num % den
    if 2 * r < den then some below
    else if den < 2 * r then some above
    else if below.digits % 2 = 0 then some below else some above

/-- The shortest decimal of a nonzero number, from the grid `10 ^ k` on, trying `n` finer grids. -/
def shortestFrom (x : Binary64) : Nat → Int → Decimal
  | 0, k => ⟨x.num * Nat.pow 10 (-k).toNat / (x.den * Nat.pow 10 k.toNat), k⟩
  | n + 1, k => (x.onGrid k).getD (shortestFrom x n (k - 1))

/-- The shortest decimal that rounds to the absolute value of `x`. Seventeen digits always do. -/
def shortest (x : Binary64) : Decimal :=
  if x.isZero then ⟨0, 0⟩ else (shortestFrom x 17 x.decade).dropZeros 17

end Binary64

end Rehome
