/-! # Binary numbers of 64 bits

A finite number is a sign, a significand and a power of two. Every operation computes its exact result
as a ratio of naturals and rounds it once, to the nearest number and to the even one of two. -/

namespace Rehome

/-- The number `significand · 2 ^ exponent`, or its negative. A nonzero significand below `2 ^ 52` has
the least exponent, and zero has exponent zero. -/
structure Binary64 where
  negative : Bool
  significand : Nat
  exponent : Int
deriving DecidableEq, Repr

namespace Binary64

/-- The exponent of the smallest numbers. -/
def minExponent : Int := -1074

/-- The exponent of the largest numbers. -/
def maxExponent : Int := 971

def zero (negative : Bool) : Binary64 := ⟨negative, 0, 0⟩

/-- The quotient of two naturals, rounded to the nearest and to the even one of two. -/
def roundDiv (num den : Nat) : Nat :=
  let q := num / den
  let r := num % den
  if 2 * r < den then q
  else if den < 2 * r then q + 1
  else if q % 2 = 0 then q else q + 1

/-- The power of two that leaves a ratio with 53 binary digits, or the least one there is. -/
def exponentOf (num den : Nat) : Int :=
  let e := (Nat.log2 num : Int) - Nat.log2 den - 52
  let e := if num * Nat.pow 2 (-e).toNat < den * Nat.pow 2 e.toNat * Nat.pow 2 52 then e - 1 else e
  max e minExponent

/-- The number nearest to the ratio `num / den`; none if it is too large. -/
def ofRatio (negative : Bool) (num den : Nat) : Option Binary64 :=
  if num = 0 then some (zero negative)
  else
    let e := exponentOf num den
    let m := roundDiv (num * Nat.pow 2 (-e).toNat) (den * Nat.pow 2 e.toNat)
    let (m, e) := if m = Nat.pow 2 53 then (Nat.pow 2 52, e + 1) else (m, e)
    if m = 0 then some (zero negative)
    else if maxExponent < e then none
    else some ⟨negative, m, e⟩

/-- Numerator of the absolute value. -/
def num (x : Binary64) : Nat := x.significand * Nat.pow 2 x.exponent.toNat

/-- Denominator of the absolute value. -/
def den (x : Binary64) : Nat := Nat.pow 2 (-x.exponent).toNat

def ofNat? (n : Nat) : Option Binary64 := ofRatio false n 1

/-- The number nearest to a power of ten. -/
def pow10 (k : Nat) : Option Binary64 := ofRatio false (Nat.pow 10 k) 1

/-- The absolute value of a product, rounded. -/
def mul (x y : Binary64) : Option Binary64 :=
  ofRatio false (x.num * y.num) (x.den * y.den)

/-- The absolute value of a quotient, rounded. -/
def div (x y : Binary64) : Option Binary64 :=
  ofRatio false (x.num * y.den) (x.den * y.num)

def isZero (x : Binary64) : Bool := x.significand == 0

/-- The largest power of ten that is scaled by in one step. -/
def largestPow10 : Nat := 308

/-- `x · 10 ^ k`, by one multiplication with the nearest power of ten; none if it is too large. -/
def scaleUp (x : Binary64) (k : Nat) : Option Binary64 :=
  if k ≤ largestPow10 then do x.mul (← pow10 k)
  else if x.isZero then some x
  else none

/-- `x / 10 ^ k`, by divisions with the nearest powers of ten. After two divisions by the largest one
no number below `2 ^ 64` is left. -/
def scaleDown (x : Binary64) (k : Nat) : Option Binary64 :=
  if k ≤ largestPow10 then do x.div (← pow10 k)
  else do
    let y ← x.div (← pow10 largestPow10)
    if k - largestPow10 ≤ largestPow10 then y.div (← pow10 (k - largestPow10))
    else some (zero false)

/-- The number written as the decimal `digits · 10 ^ exponent`: the digits are rounded first, then the
product or quotient with the power of ten. None if it is too large. -/
def ofDecimal (negative : Bool) (digits : Nat) (exponent : Int) : Option Binary64 := do
  let x ← ofNat? digits
  let y ← if 0 ≤ exponent then x.scaleUp exponent.toNat else x.scaleDown (-exponent).toNat
  return { y with negative := negative }

end Binary64

end Rehome
