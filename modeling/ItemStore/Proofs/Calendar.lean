import Mathlib
import ItemStore.Calendar
import ItemStore.Proofs.Text.Digits

/-! Days in order.

The number of a day is cut into spans, each counted by the one before it, so of two days the later
has the larger count where the counts first differ: `ofDayNumber_lt` says this of years, months and
days. Numbers in equally many digits are in the order of their texts, and so then are days. -/
namespace ItemStore.Date

/-! ### Spans -/

/-- What is left behind whole spans of a length, of which no more than three are taken. -/
def afterThree (length r : Nat) : Nat := r - length * min (r / length) 3

variable {r s : Nat}

theorem divMod_lt (length : Nat) (h : r < s) :
    r / length < s / length ∨ r / length = s / length ∧ r % length < s % length := by
  rcases (Nat.div_le_div_right (c := length) h.le).lt_or_eq with hlt | heq
  · exact .inl hlt
  · have hr := Nat.div_add_mod r length
    have hs := Nat.div_add_mod s length
    rw [← heq] at hs
    exact .inr ⟨heq, by omega⟩

theorem afterThree_lt (length : Nat) (h : r < s) :
    min (r / length) 3 < min (s / length) 3 ∨
      min (r / length) 3 = min (s / length) 3 ∧ afterThree length r < afterThree length s := by
  have hle : min (r / length) 3 ≤ min (s / length) 3 :=
    min_le_min_right 3 (Nat.div_le_div_right h.le)
  rcases hle.lt_or_eq with hlt | heq
  · exact .inl hlt
  · have htaken : length * min (r / length) 3 ≤ r :=
      (Nat.mul_le_mul_left length (min_le_left ..)).trans (Nat.mul_div_le r length)
    rw [afterThree, afterThree, ← heq]
    exact .inr ⟨rfl, by omega⟩

/-! ### Years -/

/-- The days since the last cycle of 400 years began. -/
def inCycle (n : Nat) : Nat := n % 146097

/-- The days since the last century of a cycle began. -/
def inCentury (n : Nat) : Nat := afterThree 36524 (inCycle n)

/-- The days since the last four years of a century began. -/
def inLeaps (n : Nat) : Nat := inCentury n % 1461

/-- The days since the year began. -/
def dayOfYear (n : Nat) : Nat := afterThree 365 (inLeaps n)

def yearOf (n : Nat) : Nat :=
  400 * (n / 146097) + 100 * min (inCycle n / 36524) 3 + 4 * (inCentury n / 1461) +
    min (inLeaps n / 365) 3 + 1

theorem ofDayNumber_eq (n : Nat) :
    ofDayNumber n =
      let (month, day) := splitMonths 1 (monthLengths (yearOf n)) (dayOfYear n)
      ⟨yearOf n, month, day + 1⟩ := rfl

theorem inCentury_lt (n : Nat) : inCentury n < 36525 := by
  have h : inCycle n < 146097 := Nat.mod_lt _ (by decide)
  rw [inCentury, afterThree]
  omega

theorem dayOfYear_lt (n : Nat) : dayOfYear n < 366 := by
  have h : inLeaps n < 1461 := Nat.mod_lt _ (by decide)
  rw [dayOfYear, afterThree]
  omega

/-- The last year is 9999. -/
theorem yearOf_lt {n : Nat} (h : n < 3652059) : yearOf n < 10000 := by
  have hcentury := inCentury_lt n
  by_cases hlast : n / 146097 < 24
  · rw [yearOf]
    omega
  · -- The last cycle is a day short, and so are its last century and its last four years.
    have hcycle : n / 146097 = 24 ∧ inCycle n < 145731 := by
      rw [inCycle]
      omega
    have hshort : min (inCycle n / 36524) 3 < 3 ∨ inCentury n < 36159 := by
      rw [inCentury, afterThree]
      omega
    have hyears : inCentury n / 1461 < 24 ∨ 36159 ≤ inCentury n ∨ inLeaps n < 1095 := by
      rw [inLeaps]
      omega
    rw [yearOf]
    omega

/-- A later day is in a later year, or later in its year. -/
theorem yearOf_lt_or {n m : Nat} (h : n < m) :
    yearOf n < yearOf m ∨ yearOf n = yearOf m ∧ dayOfYear n < dayOfYear m := by
  -- The first count that differs decides, for those behind it do not make up for it.
  have hn := inCentury_lt n
  have hm := inCentury_lt m
  rw [yearOf, yearOf]
  rcases divMod_lt 146097 h with hlt | ⟨hcycles, hcycle⟩
  · exact .inl (by omega)
  change inCycle n < inCycle m at hcycle
  rcases afterThree_lt 36524 hcycle with hlt | ⟨hcenturies, hcentury⟩
  · exact .inl (by omega)
  change inCentury n < inCentury m at hcentury
  rcases divMod_lt 1461 hcentury with hlt | ⟨hleaps, hleap⟩
  · exact .inl (by omega)
  change inLeaps n < inLeaps m at hleap
  rcases afterThree_lt 365 hleap with hlt | ⟨hyears, hyear⟩
  · exact .inl (by omega)
  · rw [hcycles, hcenturies, hleaps, hyears]
    exact .inr ⟨rfl, hyear⟩

/-! ### Months -/

theorem le_splitMonths (month : Nat) (lengths : List Nat) (n : Nat) :
    month ≤ (splitMonths month lengths n).1 := by
  induction lengths generalizing month n with
  | nil => exact le_rfl
  | cons length lengths ih =>
    rw [splitMonths]
    split
    · exact le_rfl
    · exact (Nat.le_succ month).trans (ih ..)

/-- A later day of the year is in a later month, or later in its month. -/
theorem splitMonths_lt (lengths : List Nat) {n m : Nat} (h : n < m) (month : Nat) :
    (splitMonths month lengths n).1 < (splitMonths month lengths m).1 ∨
      (splitMonths month lengths n).1 = (splitMonths month lengths m).1 ∧
        (splitMonths month lengths n).2 < (splitMonths month lengths m).2 := by
  induction lengths generalizing month n m with
  | nil => exact .inr ⟨rfl, h⟩
  | cons length lengths ih =>
    rw [splitMonths, splitMonths]
    by_cases hn : n < length
    · rw [if_pos hn]
      split
      · exact .inr ⟨rfl, h⟩
      · exact .inl (Nat.lt_of_succ_le (le_splitMonths ..))
    · rw [if_neg hn, if_neg (by omega)]
      exact ih (by omega) (month + 1)

theorem splitMonths_le (month : Nat) (lengths : List Nat) (n : Nat) :
    (splitMonths month lengths n).1 ≤ month + lengths.length := by
  induction lengths generalizing month n with
  | nil => exact le_rfl
  | cons length lengths ih =>
    rw [splitMonths, List.length_cons]
    split
    · omega
    · have hrest := ih (month + 1) (n - length)
      omega

/-- No month is longer than 31 days, not even what is left after the last. -/
theorem splitMonths_day_lt {lengths : List Nat} (hlengths : ∀ l ∈ lengths, l ≤ 31) {n : Nat}
    (hn : n < lengths.sum + 31) (month : Nat) : (splitMonths month lengths n).2 < 31 := by
  induction lengths generalizing month n with
  | nil => simpa [splitMonths] using hn
  | cons length lengths ih =>
    obtain ⟨hlength, hlengths⟩ := List.forall_mem_cons.mp hlengths
    rw [List.sum_cons] at hn
    rw [splitMonths]
    split
    · omega
    · exact ih hlengths (by omega) (month + 1)

theorem monthLengths_le (year : Nat) : ∀ l ∈ monthLengths year, l ≤ 31 := by
  rw [monthLengths]
  cases isLeap year <;> decide

theorem le_sum_monthLengths (year : Nat) : 365 ≤ (monthLengths year).sum := by
  rw [monthLengths]
  cases isLeap year <;> decide

/-! ### Days -/

/-- A later day has a later date. -/
theorem ofDayNumber_lt {n m : Nat} (h : n < m) :
    (ofDayNumber n).year < (ofDayNumber m).year ∨
      (ofDayNumber n).year = (ofDayNumber m).year ∧
        ((ofDayNumber n).month < (ofDayNumber m).month ∨
          (ofDayNumber n).month = (ofDayNumber m).month ∧
            (ofDayNumber n).day < (ofDayNumber m).day) := by
  rw [ofDayNumber_eq, ofDayNumber_eq]
  dsimp only
  rcases yearOf_lt_or h with hlt | ⟨heq, hlt⟩
  · exact .inl hlt
  · rw [heq]
    refine .inr ⟨rfl, ?_⟩
    rcases splitMonths_lt (monthLengths (yearOf m)) hlt 1 with hmonth | ⟨hmonth, hday⟩
    · exact .inl hmonth
    · exact .inr ⟨hmonth, Nat.succ_lt_succ hday⟩

/-- The numbers in a date have their digits. -/
structure Fits (d : Date) : Prop where
  year : d.year < 10 ^ 4
  month : d.month < 10 ^ 2
  day : d.day < 10 ^ 2

theorem fits_ofDayNumber {n : Nat} (h : n < 3652059) : (ofDayNumber n).Fits := by
  have hday := splitMonths_day_lt (monthLengths_le (yearOf n)) (n := dayOfYear n)
    (by have hsum := le_sum_monthLengths (yearOf n); have hlt := dayOfYear_lt n; omega) 1
  have hmonth := splitMonths_le 1 (monthLengths (yearOf n)) (dayOfYear n)
  have hlength : (monthLengths (yearOf n)).length = 12 := rfl
  rw [ofDayNumber_eq]
  exact ⟨yearOf_lt h, by dsimp only; omega, by dsimp only; omega⟩

/-! ### Numbers of one width -/

theorem digitChar_lt {a b : Nat} (hab : a < b) (hb : b < 10) :
    Nat.digitChar a < Nat.digitChar b := by
  rw [Char.lt_def, UInt32.lt_iff_toNat_lt]
  show (Nat.digitChar a).toNat < (Nat.digitChar b).toNat
  rw [Nat.toNat_digitChar_of_lt_ten hb, Nat.toNat_digitChar_of_lt_ten (hab.trans hb)]
  omega

variable {width a b : Nat}

theorem padded_one (h : a < 10) : padded 1 a = [Nat.digitChar a] := Text.paddedIn_one h

theorem padded_succ (hwidth : 0 < width) (n : Nat) :
    padded (width + 1) n = padded width (n / 10) ++ [Nat.digitChar (n % 10)] :=
  Text.paddedIn_succ (by decide) hwidth n

theorem length_padded (hwidth : 0 < width) (ha : a < 10 ^ width) :
    (padded width a).length = width :=
  Text.length_paddedIn (by decide) hwidth ha

theorem append_lt {xs ys xs' ys' : List Char} (hlength : xs.length = ys.length) (h : xs < ys) :
    xs ++ xs' < ys ++ ys' := by
  induction xs generalizing ys with
  | nil =>
    cases ys with
    | nil => exact absurd h (List.lt_irrefl _)
    | cons y ys => cases hlength
  | cons x xs ih =>
    cases ys with
    | nil => cases hlength
    | cons y ys =>
      rw [List.cons_append, List.cons_append, List.cons_lt_cons_iff]
      rcases List.cons_lt_cons_iff.mp h with hlt | ⟨heq, hlt⟩
      · exact .inl hlt
      · exact .inr ⟨heq, ih (Nat.succ.inj hlength) hlt⟩

theorem padded_lt (hwidth : 0 < width) (hab : a < b) (hb : b < 10 ^ width) :
    padded width a < padded width b := by
  induction width generalizing a b with
  | zero => cases hwidth
  | succ k ih =>
    by_cases hk : k = 0
    · rw [hk] at hb ⊢
      rw [padded_one (by omega), padded_one (by omega), List.cons_lt_cons_iff]
      exact .inl (digitChar_lt hab (by omega))
    · have hpos : 0 < k := Nat.pos_of_ne_zero hk
      have hb' : b / 10 < 10 ^ k := Text.div_lt_pow hb
      rw [padded_succ hpos, padded_succ hpos]
      rcases divMod_lt 10 hab with hlt | ⟨heq, hlt⟩
      · refine append_lt ?_ (ih hpos hlt hb')
        rw [length_padded hpos hb', length_padded hpos (hlt.trans hb')]
      · rw [heq]
        refine List.append_left_lt (List.cons_lt_cons_iff.mpr (.inl ?_))
        exact digitChar_lt hlt (Nat.mod_lt _ (by decide))

/-- Numbers of one width before what follows them. -/
theorem padded_append_lt {xs ys : List Char} (hwidth : 0 < width) (ha : a < 10 ^ width)
    (hb : b < 10 ^ width) (h : a < b ∨ a = b ∧ xs < ys) :
    padded width a ++ xs < padded width b ++ ys := by
  rcases h with hlt | ⟨rfl, hlt⟩
  · refine append_lt ?_ (padded_lt hwidth hlt hb)
    rw [length_padded hwidth ha, length_padded hwidth hb]
  · exact List.append_left_lt hlt

theorem mark_lt {xs ys : List Char} (mark : Char) (h : xs < ys) : mark :: xs < mark :: ys :=
  List.cons_lt_cons_iff.mpr (.inr ⟨rfl, h⟩)

/-! ### The text of a day -/

theorem isoChars_eq (d : Date) :
    d.isoChars = padded 4 d.year ++ ('-' :: (padded 2 d.month ++ '-' :: padded 2 d.day)) :=
  List.append_assoc ..

theorem length_isoChars {d : Date} (h : d.Fits) : d.isoChars.length = 10 := by
  rw [isoChars_eq, List.length_append, List.length_cons, List.length_append, List.length_cons,
    length_padded (by decide) h.year, length_padded (by decide) h.month,
    length_padded (by decide) h.day]

/-- **Texts of days sort as days.** -/
theorem isoChars_lt {n m : Nat} (h : n < m) (hm : m < 3652059) :
    (ofDayNumber n).isoChars < (ofDayNumber m).isoChars := by
  have hfits := fits_ofDayNumber (h.trans hm)
  have hfits' := fits_ofDayNumber hm
  rw [isoChars_eq, isoChars_eq]
  refine padded_append_lt (by decide) hfits.year hfits'.year ?_
  refine (ofDayNumber_lt h).imp_right fun hyear => ⟨hyear.1, mark_lt '-' ?_⟩
  refine padded_append_lt (by decide) hfits.month hfits'.month ?_
  refine hyear.2.imp_right fun hmonth => ⟨hmonth.1, mark_lt '-' ?_⟩
  exact padded_lt (by decide) hmonth.2 hfits'.day

end ItemStore.Date
