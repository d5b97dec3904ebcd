import ItemStore.Proofs.Decimal.Text
import ItemStore.Wire.Decode
import ItemStore.Wire.Encode

/-! Numbers on the wire.

`Fits` says in plain bounds which decimals the store can hold: 38 digits, exponents from -165 on,
the first digit no further than 126 places in front of the point. Within the bounds nothing happens
to a number in either direction, and a finite number beyond them is refused: what travels is the
text of the decimal itself, never a rounded one. -/
namespace ItemStore

/-- The bounds of the store. Of a zero only the exponent counts. -/
def Decimal.Fits : Decimal → Prop
  | .finite _ c e =>
    -165 ≤ e ∧ if c = 0 then e ≤ 126 else digitCount c ≤ 38 ∧ adjusted c e ≤ 126
  | _ => False

instance (d : Decimal) : Decidable d.Fits := by
  cases d <;> unfold Decimal.Fits <;> infer_instance

namespace Wire

open Decimal (tiniestExponent minExponent maxExponent precision signal? digitCount adjusted)

/-- A decimal within the bounds causes no signal, any other finite one does. -/
theorem signal?_eq_none_iff (negative : Bool) (c : Nat) (e : Int) :
    signal? c e = none ↔ (Decimal.finite negative c e).Fits := by
  have hadjusted : adjusted c e = e + (digitCount c : Int) - 1 := rfl
  have htiniest : tiniestExponent = -165 := by decide
  rw [Decimal.Fits, signal?, htiniest, minExponent, maxExponent, precision]
  by_cases hc : c = 0
  · simp only [hc, if_true, Bool.or_eq_true, decide_eq_true_eq, ite_eq_right_iff, reduceCtorEq,
      imp_false]
    omega
  · simp only [hc, if_false, Bool.and_eq_true, decide_eq_true_eq]
    by_cases hover : 126 < adjusted c e
    · simp only [hover, if_true, reduceCtorEq, false_iff]
      omega
    by_cases hunder : e < -165 ∧ adjusted c e < -128
    · rw [if_neg hover, if_pos hunder]
      simp only [ite_eq_iff, reduceCtorEq, and_false, or_self, false_iff]
      omega
    · simp only [hover, hunder, if_false, ite_eq_right_iff, reduceCtorEq, imp_false]
      omega

/-- What goes on the wire for a finite number is its own text, if it fits. -/
theorem numberText_ok {d : Decimal} {s : String} (hfinite : d.isFinite = true) :
    numberText d = .ok s ↔ d.Fits ∧ s = d.text := by
  cases d with
  | infinity => cases hfinite
  | nan => cases hfinite
  | finite negative c e =>
    rw [← signal?_eq_none_iff, numberText, Decimal.accept]
    cases hs : signal? c e with
    | some signal => simp
    | none => simp [Decimal.quietNaN, eq_comm]

theorem isFinite_of_fits {d : Decimal} (h : d.Fits) : d.isFinite = true := by
  cases d with
  | finite => rfl
  | infinity => cases h
  | nan => cases h

/-- **The number itself.** The text of a number that fits is read as the very same decimal. -/
theorem decodeNumber_text {d : Decimal} (h : d.Fits) :
    decodeNumber (.text d.text) = .ok (.decimal d) := by
  cases d with
  | infinity => cases h
  | nan => cases h
  | finite negative c e =>
    rw [decodeNumber, Decimal.acceptText, Decimal.read?_text, Option.getD_some,
      Decimal.accept_of_fits ((signal?_eq_none_iff negative c e).mpr h)]
    rfl

end Wire

end ItemStore
