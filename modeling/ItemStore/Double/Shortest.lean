import ItemStore.Double.Nearest

/-! The shortest decimal of a double.

Of the decimals that round to a double, `shortest?` takes one with the fewest digits, and of those
the nearest to the double. A grid of decimals with a given last place has a point between the
bounds only if one of the two neighbours of the double on that grid is one. `toDecimal` is the
decimal a double is written as, and `text` its spelling: an integer keeps one place behind the
point, and an exponent is written from `1e16` on and below `1e-4`. -/
namespace ItemStore.Double

open Decimal (tenTo digits digitCount plain mantissa signText exponentText)

/-- The numbers that round to a double, in units of a fraction `scale`: the value lies between
the bounds, which belong to them if `closed`. -/
structure Interval where
  low : Nat
  value : Nat
  high : Nat
  closed : Bool
  scale : Nat × Nat

/-- A bound lies halfway to the next double, which is closer below a power of two. -/
def interval (m : Nat) (e : Int) : Interval where
  low := if m = minNormal ∧ minExponent < e then 4 * m - 1 else 4 * m - 2
  value := 4 * m
  high := 4 * m + 2
  closed := m % 2 == 0
  scale := powerOfTwo (e - 2)

/-- A power of ten as a fraction. -/
def powerOfTen (k : Int) : Nat × Nat := (tenTo k.toNat, tenTo (-k).toNat)

/-- The greatest `k` with `10 ^ k ≤ num / den`, for positive `num` and `den`. -/
def floorLog10 (num den : Nat) : Int :=
  let k : Int := (digitCount num : Int) - (digitCount den : Int)
  let (above, below) := powerOfTen k
  if num * below < den * above then k - 1 else k

/-- The point of the grid `10 ^ k` that is nearest to the value among those in the interval;
of two at the same distance the even one. -/
def Interval.onGrid? (i : Interval) (k : Int) : Option Nat :=
  -- One unit of the interval is `unit / point` points of the grid.
  let unit := i.scale.1 * (powerOfTen k).2
  let point := i.scale.2 * (powerOfTen k).1
  let inside (j : Nat) : Bool :=
    if i.closed then i.low * unit ≤ j * point && j * point ≤ i.high * unit
    else i.low * unit < j * point && j * point < i.high * unit
  let j := i.value * unit / point
  let down := i.value * unit - j * point
  let up := (j + 1) * point - i.value * unit
  match inside j, inside (j + 1) with
  | true, true =>
    some (if down < up || (down == up && j % 2 == 0) then j else j + 1)
  | true, false => some j
  | false, true => some (j + 1)
  | false, false => none

/-- Drops zeros from the end of a coefficient, at most `fuel` of them. -/
def stripZeros : Nat → Nat → Int → Nat × Int
  | fuel + 1, c, k => if c % 10 = 0 then stripZeros fuel (c / 10) (k + 1) else (c, k)
  | 0, c, k => (c, k)

/-- The shortest decimal of a positive double, as coefficient and exponent. Seventeen digits
always suffice. -/
def shortest? (m : Nat) (e : Int) : Option (Nat × Int) :=
  let i := interval m e
  let top := floorLog10 (i.value * i.scale.1) i.scale.2
  (List.range 17).findSome? fun (n : Nat) =>
    let k := top - n
    (i.onGrid? k).map fun j => stripZeros (digitCount j) j k

/-- Whether a number with its first digit at `10 ^ a` is written without an exponent. -/
def isPositional (a : Int) : Bool := -4 ≤ a && a < 16

/-- The decimal a double is written as. -/
def toDecimal : Double → Decimal
  | .finite negative m e =>
    if m = 0 then .finite negative 0 (-1)
    else
      let (c, k) := (shortest? m e).getD (m, 0)
      if isPositional (Decimal.adjusted c k) && 0 ≤ k then
        .finite negative (c * tenTo (k.toNat + 1)) (-1)
      else .finite negative c k
  | .infinity negative => .infinity negative
  | .nan _ => Decimal.quietNaN

def text (x : Double) : String :=
  match x.toDecimal with
  | .finite negative c k =>
    let a := Decimal.adjusted c k
    String.ofList <| signText negative ++
      if c = 0 || isPositional a then plain (digits c) (-k).toNat
      else mantissa (digits c) ++ 'e' :: exponentText 2 a
  | .infinity negative => if negative then "-inf" else "inf"
  | .nan .. => "nan"

/-- The double a numeral is nearest to. -/
def read? (s : String) : Option Double := (Decimal.read? s).map ofDecimal

end ItemStore.Double
