import ItemStore.Proofs.Calendar

/-! Days by their numbers.

Cutting the number of a day into a date and counting the days up to that date are inverse to each
other: the spans that are taken off a number are the ones that the count puts on again. The date of
a number is one that the calendar has, because a year of 366 days is a leap year. -/
namespace ItemStore.Date

/-! ### Years -/

/-- The leap days before a year, by the cycles, centuries, leap cycles and years before it. -/
theorem daysBeforeYear_eq {cycles centuries leaps years : Nat} (hcenturies : centuries ≤ 3)
    (hleaps : leaps ≤ 24) (hyears : years ≤ 3) :
    daysBeforeYear (400 * cycles + 100 * centuries + 4 * leaps + years + 1) =
      146097 * cycles + 36524 * centuries + 1461 * leaps + 365 * years := by
  have hfours : (400 * cycles + 100 * centuries + 4 * leaps + years) / 4 =
      100 * cycles + 25 * centuries + leaps := by omega
  have hhundreds : (400 * cycles + 100 * centuries + 4 * leaps + years) / 100 =
      4 * cycles + centuries := by omega
  have hcycles : (400 * cycles + 100 * centuries + 4 * leaps + years) / 400 = cycles := by omega
  rw [daysBeforeYear, Nat.add_sub_cancel, hfours, hhundreds, hcycles]
  omega

/-- The days before a year and the days since it began make up the number. -/
theorem daysBeforeYear_add (n : Nat) : daysBeforeYear (yearOf n) + dayOfYear n = n := by
  have hcentury := inCentury_lt n
  have hn : 146097 * (n / 146097) + inCycle n = n := Nat.div_add_mod ..
  have hleap : 1461 * (inCentury n / 1461) + inLeaps n = inCentury n := Nat.div_add_mod ..
  have hcenturies : 36524 * min (inCycle n / 36524) 3 + inCentury n = inCycle n := by
    rw [inCentury, afterThree]
    omega
  have hyears : 365 * min (inLeaps n / 365) 3 + dayOfYear n = inLeaps n := by
    rw [dayOfYear, afterThree]
    omega
  rw [yearOf, daysBeforeYear_eq (min_le_right ..) (by omega) (min_le_right ..)]
  omega

/-- A year with a 366th day is a leap year. -/
theorem isLeap_yearOf {n : Nat} (h : dayOfYear n = 365) : isLeap (yearOf n) = true := by
  have hcentury := inCentury_lt n
  have hcycle : inCycle n < 146097 := Nat.mod_lt _ (by decide)
  have hinLeaps : inLeaps n < 1461 := Nat.mod_lt _ (by decide)
  have hleap : 1461 * (inCentury n / 1461) + inLeaps n = inCentury n := Nat.div_add_mod ..
  have hyears : min (inLeaps n / 365) 3 = 3 ∧ inLeaps n = 1460 := by
    rw [dayOfYear, afterThree] at h
    omega
  -- The last four years of a century have such a day only in the last century of a cycle.
  have hlast : inCentury n / 1461 = 24 → min (inCycle n / 36524) 3 = 3 := by
    intro hleaps
    have hcenturies : inCentury n = inCycle n - 36524 * min (inCycle n / 36524) 3 := rfl
    omega
  rw [isLeap, Bool.and_eq_true, Bool.or_eq_true, beq_iff_eq, bne_iff_ne, beq_iff_eq, yearOf]
  omega

theorem sum_monthLengths (year : Nat) :
    (monthLengths year).sum = if isLeap year then 366 else 365 := by
  rw [monthLengths]
  cases isLeap year <;> rfl

/-- Every day of a year is in a month of it. -/
theorem dayOfYear_lt_sum (n : Nat) : dayOfYear n < (monthLengths (yearOf n)).sum := by
  have hlt := dayOfYear_lt n
  rw [sum_monthLengths]
  by_cases hlast : dayOfYear n = 365
  · rw [isLeap_yearOf hlast, if_pos rfl]
    exact hlt
  · split <;> omega

/-! ### Months -/

/-- The days of the months that were passed are taken off, and the rest is in the month. -/
theorem splitMonths_spec {lengths : List Nat} {n : Nat} (h : n < lengths.sum) (month : Nat) :
    ∃ k, (splitMonths month lengths n).1 = month + k ∧ k < lengths.length ∧
      (lengths.take k).sum + (splitMonths month lengths n).2 = n ∧
      (splitMonths month lengths n).2 < lengths.getD k 0 := by
  induction lengths generalizing month n with
  | nil => exact absurd h (Nat.not_lt_zero n)
  | cons length lengths ih =>
    rw [List.sum_cons] at h
    by_cases hn : n < length
    · refine ⟨0, ?_⟩
      simp [splitMonths, hn]
    · obtain ⟨k, hmonth, hk, hsum, hday⟩ := ih (n := n - length) (by omega) (month + 1)
      refine ⟨k + 1, ?_⟩
      rw [splitMonths, if_neg hn, List.take_succ_cons, List.sum_cons, List.length_cons,
        List.getD_cons_succ]
      omega

theorem daysIn_eq_sum (lengths : List Nat) : daysIn lengths = lengths.sum :=
  List.sum_eq_foldl_nat.symm

/-! ### Days -/

/-- The month that a day falls on, by its place in the year, and the days of it that are over. -/
theorem ofDayNumber_spec (n : Nat) : ∃ k, (ofDayNumber n).year = yearOf n ∧
    (ofDayNumber n).month = k + 1 ∧ k < 12 ∧
    ((monthLengths (yearOf n)).take k).sum + (ofDayNumber n).day = dayOfYear n + 1 ∧
    1 ≤ (ofDayNumber n).day ∧ (ofDayNumber n).day ≤ (monthLengths (yearOf n)).getD k 0 := by
  obtain ⟨k, hmonth, hk, hsum, hday⟩ := splitMonths_spec (dayOfYear_lt_sum n) 1
  have hlength : (monthLengths (yearOf n)).length = 12 := rfl
  refine ⟨k, ?_⟩
  rw [ofDayNumber_eq]
  dsimp only
  omega

/-- **The number of the date of a number.** -/
theorem dayNumber_ofDayNumber (n : Nat) : (ofDayNumber n).dayNumber = n := by
  obtain ⟨k, hyear, hmonth, -, hday, hfirst, -⟩ := ofDayNumber_spec n
  have hn := daysBeforeYear_add n
  rw [dayNumber, daysIn_eq_sum, hyear, hmonth, Nat.add_sub_cancel]
  omega

/-- The date of a number up to the end of the year 9999 is in the calendar. -/
theorem isValid_ofDayNumber {n : Nat} (h : n < 3652059) : (ofDayNumber n).isValid = true := by
  obtain ⟨k, hyear, hmonth, hk, -, hfirst, hlast⟩ := ofDayNumber_spec n
  have hlt := yearOf_lt h
  have hpos : 1 ≤ yearOf n := Nat.le_add_left ..
  simp only [isValid, hyear, hmonth, Nat.add_sub_cancel, Bool.and_eq_true, decide_eq_true_eq]
  omega

end ItemStore.Date
