import ItemStore.Double.Basic
import ItemStore.Decimal.Limits

/-! The double nearest to a number.

`nearest` rounds a fraction to a multiple of a power of two: 53 binary digits, or fewer where the
number is so small that the power would leave the range. A number halfway between two doubles
goes to the one whose significand is even. -/
namespace ItemStore.Double

open Decimal (divideHalfEven tenTo)

/-- The greatest `e` with `2 ^ e ≤ num / den`, for positive `num` and `den`. -/
def floorLog2 (num den : Nat) : Int :=
  let e : Int := (Nat.log2 num : Int) - (Nat.log2 den : Int)
  let (above, below) := powerOfTwo e
  if num * below < den * above then e - 1 else e

/-- The double nearest to `num / den`, for positive `num` and `den`. -/
def nearest (negative : Bool) (num den : Nat) : Double :=
  let e := max (floorLog2 num den - 52) minExponent
  let (above, below) := powerOfTwo e
  let m := divideHalfEven (num * below) (den * above)
  let (m, e) := if m = 2 * minNormal then (minNormal, e + 1) else (m, e)
  if maxExponent < e then .infinity negative
  else if m = 0 then zero negative
  else .finite negative m e

/-- The double nearest to a decimal. Past the exponents 400 and -400 the answer is known. -/
def ofDecimal : Decimal → Double
  | .finite negative c e =>
    if c = 0 then zero negative
    else if 400 < Decimal.adjusted c e then .infinity negative
    else if Decimal.adjusted c e < -400 then zero negative
    else nearest negative (c * tenTo e.toNat) (tenTo (-e).toNat)
  | .infinity negative => .infinity negative
  | .nan .. => .nan none

end ItemStore.Double
