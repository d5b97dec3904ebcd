import ItemStore.Decimal.Text

/-! The numbers the store can hold.

The store keeps 38 digits and decimal exponents between -128 and 126, with subnormal numbers down
to the exponent -165. `accept` takes a decimal in only as it is: where rounding, shifting or
clamping would be needed it names what would happen, the gravest first. -/
namespace ItemStore.Decimal

/-- What would happen to a decimal that does not fit. -/
inductive Signal where
  | overflow
  | underflow
  | inexact
  | rounded
  | clamped
deriving DecidableEq, Repr

/-- The most digits a coefficient can have. -/
def precision : Nat := 38

/-- The greatest exponent of a first digit. -/
def maxExponent : Int := 126

/-- The least exponent of the first digit of a number that is not subnormal. -/
def minExponent : Int := -128

/-- The least exponent: that of the last digit of the smallest subnormal number. -/
def tiniestExponent : Int := minExponent - (precision : Int) + 1

/-- Half of an odd unit goes to the even neighbour. -/
def divideHalfEven (n d : Nat) : Nat :=
  let q := n / d
  let r := n % d
  if 2 * r < d then q
  else if d < 2 * r then q + 1
  else if q % 2 = 0 then q else q + 1

/-- What dropping the last `k` digits of `c` does, where a carry would overflow at `top`. -/
def roundingSignal (c k : Nat) (top : Bool) : Signal :=
  if top && divideHalfEven c (tenTo k) == tenTo precision then .overflow
  else if c % tenTo k = 0 then .rounded
  else .inexact

/-- What would happen to a finite decimal; `none` if it fits. -/
def signal? (c : Nat) (e : Int) : Option Signal :=
  if c = 0 then
    if e < tiniestExponent || maxExponent < e then some .clamped else none
  else if maxExponent < adjusted c e then some .overflow
  else if e < tiniestExponent && adjusted c e < minExponent then
    let shift := (tiniestExponent - e).toNat
    if digitCount c ≤ shift || c % tenTo shift != 0 then some .underflow else some .rounded
  else if precision < digitCount c then
    some (roundingSignal c (digitCount c - precision) (adjusted c e == maxExponent))
  else none

/-- Takes a decimal in as it is. A NaN whose payload is too long loses sign and payload, and any
NaN is a new one. -/
def accept : Decimal → Except Signal Decimal
  | .finite negative c e =>
    match signal? c e with
    | some s => .error s
    | none => .ok (.finite negative c e)
  | .infinity negative => .ok (.infinity negative)
  | .nan negative signalling payload _ =>
    .ok (if precision < digitCount payload then quietNaN else .nan negative signalling payload none)

/-- The number a numeral stands for, if it fits; a text that is no numeral is a NaN. -/
def acceptText (s : String) : Except Signal Decimal :=
  accept ((read? s).getD quietNaN)

theorem accept_of_fits {negative : Bool} {c : Nat} {e : Int} (h : signal? c e = none) :
    accept (.finite negative c e) = .ok (.finite negative c e) := by
  simp [accept, h]

end ItemStore.Decimal
