import ItemStore.Decimal.Basic

/-! Binary floating point numbers.

A finite double is a signed multiple of a power of two with at most 53 binary digits. Every double
stands for a decimal exactly, so numbers of both kinds are compared as decimals. -/
namespace ItemStore

/-- A double: `significand · 2 ^ exponent` with a sign, an infinity, or a NaN, which has a number of
its own if it stands in several places. -/
inductive Double where
  | finite (negative : Bool) (significand : Nat) (exponent : Int)
  | infinity (negative : Bool)
  | nan (object : Option Nat)
deriving DecidableEq, Repr, Inhabited

namespace Double

/-- The exponent of the smallest positive double. -/
def minExponent : Int := -1074

/-- The exponent of the greatest finite double. -/
def maxExponent : Int := 971

/-- The least significand of a number that is not subnormal. -/
def minNormal : Nat := Nat.pow 2 52

/-- The zeros of both signs. -/
def zero (negative : Bool) : Double := .finite negative 0 minExponent

def isZero : Double → Bool
  | .finite _ m _ => m == 0
  | _ => false

/-- The number of a NaN that stands in several places. -/
def object? : Double → Option Nat
  | .nan object => object
  | _ => none

/-- A power of two as a fraction. -/
def powerOfTwo (e : Int) : Nat × Nat := (Nat.pow 2 e.toNat, Nat.pow 2 (-e).toNat)

/-- The decimal a double stands for, with no more places than it needs. -/
def exact : Double → Decimal
  | .finite negative m e =>
    let (above, below) := powerOfTwo e
    let common := Nat.gcd (m * above) below
    let places := Nat.log2 (below / common)
    .finite negative (m * above / common * Nat.pow 5 places) (-(places : Int))
  | .infinity negative => .infinity negative
  | .nan _ => Decimal.quietNaN

end Double

end ItemStore
