import ItemStore.Double.Shortest
import ItemStore.Proofs.Decimal.Text

/-! Reading back the text of a double.

The shortest decimal of a positive double has a positive coefficient, so a zero is always written
as `0.0`; and where an integer is written without an exponent it has one place behind the point.
So the places that `text` writes are those of `toDecimal`, and the text of a double is read as the
decimal that the double is written as. -/
namespace ItemStore.Double

open Decimal (tenTo digits digitCount)

/-! ### Shortest decimals are positive -/

theorem stripZeros_pos (fuel : Nat) {c : Nat} (hc : 0 < c) (k : Int) :
    0 < (stripZeros fuel c k).1 := by
  induction fuel generalizing c k with
  | zero => exact hc
  | succ fuel ih =>
    rw [stripZeros]
    split
    · exact ih (by omega) _
    · exact hc

theorem powerOfTwo_pos (e : Int) : 0 < (powerOfTwo e).1 := Nat.pow_pos (by decide)

theorem powerOfTen_pos (k : Int) : 0 < (powerOfTen k).2 := Nat.pow_pos (by decide)

theorem interval_low_pos {m : Nat} (hm : 0 < m) (e : Int) : 0 < (interval m e).low := by
  rw [interval]
  dsimp only
  split <;> omega

theorem pos_of_inside {closed : Bool} {low n point high : Nat} (hlow : 0 < low)
    (h : (if closed = true then decide (low ≤ n * point) && decide (n * point ≤ high)
      else decide (low < n * point) && decide (n * point < high)) = true) : 0 < n := by
  refine Nat.pos_of_ne_zero fun hn => ?_
  subst hn
  rw [Nat.zero_mul] at h
  split at h
  · simp only [Bool.and_eq_true, decide_eq_true_eq] at h
    omega
  · simp only [Bool.and_eq_true, decide_eq_true_eq] at h
    omega

/-- Zero lies below the interval of a positive double. -/
theorem onGrid?_pos {i : Interval} {k : Int} {j : Nat} (hlow : 0 < i.low) (hscale : 0 < i.scale.1)
    (h : i.onGrid? k = some j) : 0 < j := by
  have hbound : 0 < i.low * (i.scale.1 * (powerOfTen k).2) :=
    Nat.mul_pos hlow (Nat.mul_pos hscale (powerOfTen_pos k))
  simp only [Interval.onGrid?] at h
  split at h
  · next hdown _ =>
    have := pos_of_inside hbound hdown
    cases h
    split <;> omega
  · next hdown _ =>
    cases h
    exact pos_of_inside hbound hdown
  · cases h
    exact Nat.succ_pos _
  · cases h

theorem shortest?_pos {m : Nat} (hm : 0 < m) (e : Int) : 0 < ((shortest? m e).getD (m, 0)).1 := by
  cases h : shortest? m e with
  | none => exact hm
  | some s =>
    simp only [shortest?] at h
    obtain ⟨n, -, hn⟩ := List.exists_of_findSome?_eq_some h
    obtain ⟨j, hj, rfl⟩ := Option.map_eq_some_iff.mp hn
    exact stripZeros_pos _ (onGrid?_pos (interval_low_pos hm e) (powerOfTwo_pos _) hj) _

/-! ### The text of a double -/

/-- The places behind the point of a decimal that is written without an exponent. -/
theorem toDecimal_places {x : Double} {negative : Bool} {c : Nat} {k : Int}
    (hx : x.toDecimal = .finite negative c k)
    (h : (c = 0 || isPositional (Decimal.adjusted c k)) = true) : k ≤ 0 := by
  cases x with
  | infinity s => cases hx
  | nan => cases hx
  | finite s m e =>
    rw [toDecimal] at hx
    split at hx
    · cases hx
      decide
    · next hm =>
      have hpos := shortest?_pos (Nat.pos_of_ne_zero hm) e
      simp only at hx
      split at hx
      · cases hx
        decide
      · next hplain =>
        cases hx
        simp only [Bool.or_eq_true, decide_eq_true_eq, Nat.ne_of_gt hpos, false_or] at h
        simp only [h, Bool.true_and, decide_eq_true_eq, Int.not_le] at hplain
        exact Int.le_of_lt hplain

/-- A NaN is written as the plain one. -/
theorem toDecimal_nan {x : Double} {s q : Bool} {p : Nat} {i : Option Nat}
    (hx : x.toDecimal = .nan s q p i) :
    x.toDecimal = Decimal.quietNaN := by
  cases x with
  | infinity s => cases hx
  | nan i => rfl
  | finite s m e =>
    rw [toDecimal] at hx
    split at hx
    · cases hx
    · simp only at hx
      split at hx <;> cases hx

/-- **Reading back.** The text of a double is read as the decimal the double is written as. -/
theorem read?_text (x : Double) : Decimal.read? x.text = some x.toDecimal := by
  rw [text]
  cases hx : x.toDecimal with
  | infinity negative => cases negative <;> decide +kernel
  | nan s q p i =>
    rw [← hx, toDecimal_nan hx]
    decide +kernel
  | finite negative c k =>
    simp only [Decimal.read?, String.toList_ofList]
    split
    · next h =>
      have hk := toDecimal_places hx h
      rw [Decimal.readChars?_plain, Int.toNat_of_nonneg (by omega), Int.neg_neg]
    · exact Decimal.readChars?_scientific negative c k (.inr rfl) 2

end ItemStore.Double
