/-! Decimal numbers.

A finite decimal is a sign, a coefficient and an exponent, so `1.0` and `1.00` are two decimals
that stand for one number: `sameNumber` and `precedes` look at the number, equality at the
decimal. Neither ever raises ten to an exponent, which a text can make as large as it likes; two
exponents are compared first, and what is left differs by no more than the digits at hand. -/
namespace ItemStore

/-- A decimal number, an infinity, or a NaN with its diagnostic payload. A NaN is like no number,
not even itself, but a collection knows the very NaN again that it holds: one that stands in several
places has a number of its own there. -/
inductive Decimal where
  | finite (negative : Bool) (coefficient : Nat) (exponent : Int)
  | infinity (negative : Bool)
  | nan (negative signalling : Bool) (payload : Nat) (object : Option Nat)
deriving DecidableEq, Repr, Inhabited

namespace Decimal

/-- The digits of a number in base ten; zero has one. -/
def digits (n : Nat) : List Char := Nat.toDigits 10 n

def digitCount (n : Nat) : Nat := (digits n).length

/-- The most digits of an integer that is read from a text or written into one. -/
def maxDigits : Nat := 4300

/-- A power of ten. -/
abbrev tenTo (k : Nat) : Nat := Nat.pow 10 k

def ofInt (n : Int) : Decimal := .finite (n < 0) n.natAbs 0

/-- A plain NaN: quiet, without sign or payload, in this place only. -/
def quietNaN : Decimal := .nan false false 0 none

/-- The exponent of the first digit. -/
def adjusted (coefficient : Nat) (exponent : Int) : Int :=
  exponent + (digitCount coefficient : Int) - 1

def isZero : Decimal → Bool
  | .finite _ c _ => c == 0
  | _ => false

def isFinite : Decimal → Bool
  | .finite .. => true
  | _ => false

def isNaN : Decimal → Bool
  | .nan .. => true
  | _ => false

def isSignalling : Decimal → Bool
  | .nan _ signalling _ _ => signalling
  | _ => false

/-- The number of a NaN that stands in several places. -/
def object? : Decimal → Option Nat
  | .nan _ _ _ object => object
  | _ => none

/-! ### The order of magnitudes -/

/-- Compares `a · 10 ^ d` with `b · 10 ^ e`. Once the first digits stand at one place, the
exponents differ by the difference of the digit counts. -/
def compareMagnitude (a : Nat) (d : Int) (b : Nat) (e : Int) : Ordering :=
  if a == 0 || b == 0 then compare a b
  else (compare (adjusted a d) (adjusted b e)).then
    (compare (a * tenTo (digitCount b)) (b * tenTo (digitCount a)))

/-- Whether two decimals stand for one number; a NaN stands for none. -/
def sameNumber : Decimal → Decimal → Bool
  | .finite s a d, .finite t b e =>
    (s == t || (a == 0 && b == 0)) && compareMagnitude a d b e == .eq
  | .infinity s, .infinity t => s == t
  | _, _ => false

/-- Whether the number of the first decimal is the smaller. -/
def precedes : Decimal → Decimal → Bool
  | .finite s a d, .finite t b e =>
    if a == 0 && b == 0 then false
    else match s, t with
      | true, false => true
      | false, true => false
      | false, false => compareMagnitude a d b e == .lt
      | true, true => compareMagnitude b e a d == .lt
  | .infinity s, .infinity t => s && !t
  | .infinity s, .finite .. => s
  | .finite .., .infinity t => !t
  | _, _ => false

/-- The number without its fraction, rounded toward zero. -/
def truncate? : Decimal → Option Int
  | .finite negative c e =>
    let magnitude :=
      if 0 ≤ e then c * tenTo e.toNat
      else if digitCount c ≤ (-e).toNat then 0
      else c / tenTo (-e).toNat
    some (if negative then -(magnitude : Int) else magnitude)
  | _ => none

end Decimal

end ItemStore
