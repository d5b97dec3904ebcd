import Mathlib

/-! Numbers in digits of one width.

A number is written in the digits of a base, with zeros in front up to a width. If it fits, the
width is the number of its digits, and no other number that fits has the same ones. -/
namespace ItemStore.Text

/-- A number in the digits of a base, with zeros in front up to a width. -/
def paddedIn (base width n : Nat) : List Char :=
  let digits := Nat.toDigits base n
  List.replicate (width - digits.length) '0' ++ digits

variable {base width n a b : Nat}

theorem paddedIn_one (h : n < base) : paddedIn base 1 n = [Nat.digitChar n] := by
  rw [paddedIn, Nat.toDigits_of_lt_base h]
  rfl

/-- The last digit comes off the end. -/
theorem paddedIn_succ (hbase : 1 < base) (hwidth : 0 < width) (n : Nat) :
    paddedIn base (width + 1) n = paddedIn base width (n / base) ++ [Nat.digitChar (n % base)] := by
  by_cases hn : n < base
  · obtain ⟨k, rfl⟩ : ∃ k, width = k + 1 := ⟨width - 1, by omega⟩
    rw [paddedIn, paddedIn, Nat.div_eq_of_lt hn, Nat.mod_eq_of_lt hn, Nat.toDigits_of_lt_base hn,
      Nat.toDigits_of_lt_base (Nat.zero_lt_of_lt hbase)]
    show List.replicate (k + 1) '0' ++ _ = (List.replicate k '0' ++ ['0']) ++ _
    rw [List.replicate_succ']
  · rw [paddedIn, paddedIn, Nat.toDigits_of_base_le hbase (Nat.le_of_not_lt hn)]
    simp

theorem length_paddedIn (hbase : 1 < base) (hwidth : 0 < width) (hn : n < base ^ width) :
    (paddedIn base width n).length = width := by
  have hle := (Nat.length_toDigits_le_iff hbase hwidth).mpr hn
  rw [paddedIn, List.length_append, List.length_replicate]
  omega

theorem div_lt_pow (h : n < base ^ (width + 1)) : n / base < base ^ width :=
  Nat.div_lt_of_lt_mul (by rwa [Nat.mul_comm, ← pow_succ])

/-- The first digit comes off the front. -/
theorem paddedIn_cons (hbase : 1 < base) (hwidth : 0 < width) (ha : a < base)
    (hn : n < base ^ width) :
    paddedIn base (width + 1) (a * base ^ width + n) =
      Nat.digitChar a :: paddedIn base width n := by
  induction width, hwidth using Nat.le_induction generalizing n with
  | base =>
    rw [pow_one] at hn ⊢
    have hdiv : (a * base + n) / base = a := by
      rw [Nat.mul_comm, Nat.mul_add_div (by omega), Nat.div_eq_of_lt hn, Nat.add_zero]
    have hmod : (a * base + n) % base = n := by
      rw [Nat.mul_add_mod_self_right, Nat.mod_eq_of_lt hn]
    rw [paddedIn_succ hbase Nat.zero_lt_one, hdiv, hmod, paddedIn_one ha, paddedIn_one hn]
    rfl
  | succ k hk ih =>
    have hdiv : (a * base ^ (k + 1) + n) / base = a * base ^ k + n / base := by
      rw [pow_succ, ← mul_assoc, Nat.mul_comm, Nat.mul_add_div (by omega)]
    have hmod : (a * base ^ (k + 1) + n) % base = n % base := by
      rw [pow_succ, ← mul_assoc, Nat.mul_add_mod_self_right]
    rw [paddedIn_succ hbase (by omega), hdiv, hmod, ih (div_lt_pow hn), paddedIn_succ hbase hk]
    rfl

theorem digitChar_injective (ha : a < 16) (hb : b < 16)
    (h : Nat.digitChar a = Nat.digitChar b) : a = b := by
  have hall : ∀ a < 16, ∀ b < 16, Nat.digitChar a = Nat.digitChar b → a = b := by decide
  exact hall a ha b hb h

/-- A number that fits is known by its digits, up to hexadecimal ones. -/
theorem paddedIn_inj (hbase : 1 < base) (hsixteen : base ≤ 16) (hwidth : 0 < width)
    (ha : a < base ^ width) (hb : b < base ^ width) :
    paddedIn base width a = paddedIn base width b ↔ a = b := by
  refine ⟨fun h => ?_, congrArg _⟩
  induction width, hwidth using Nat.le_induction generalizing a b with
  | base =>
    rw [pow_one] at ha hb
    rw [paddedIn_one ha, paddedIn_one hb] at h
    exact digitChar_injective (by omega) (by omega) (List.singleton_inj.mp h)
  | succ k hk ih =>
    have hdigit (n : Nat) : n % base < 16 := (Nat.mod_lt n (by omega)).trans_le hsixteen
    rw [paddedIn_succ hbase hk, paddedIn_succ hbase hk] at h
    obtain ⟨hfront, hlast⟩ := List.append_inj' h rfl
    have hdiv := ih (div_lt_pow ha) (div_lt_pow hb) hfront
    have hmod := digitChar_injective (hdigit a) (hdigit b) (List.singleton_inj.mp hlast)
    rw [← Nat.div_add_mod a base, ← Nat.div_add_mod b base, hdiv, hmod]

end ItemStore.Text
