import ItemStore.Proofs.Calendar
import ItemStore.Sources
import Mathlib.Data.String.Basic

/-! Timestamps in order.

A timestamp is cut to milliseconds, and every number in it has its own fixed width, so of two times
that differ in their milliseconds the later has the larger text, and two that do not have the same
text (`stampChars_lt`, `stampChars_congr`). A clock that steps forward shows later and later times,
but its zone may take more off them than the step was. Only where that does not happen does the
clock advance in universal time (`Clock.Advances`), and then its timestamps are in order; a clock of
one offset always does. -/
namespace ItemStore

namespace Moment

open Date (padded padded_append_lt mark_lt)

/-! ### The time of day -/

/-- A second of the day with its milliseconds, as a timestamp has them behind the day. -/
def timeChars (second milli : Nat) : List Char :=
  padded 2 (second / 3600) ++ (':' :: (padded 2 (second / 60 % 60) ++
    (':' :: (padded 2 (second % 60) ++ ('.' :: (padded 3 milli ++ ['Z']))))))

theorem stampChars_eq (t : Nat) : stampChars t =
    (Date.ofDayNumber (t / perDay)).isoChars ++
      'T' :: timeChars (t % perDay / perSecond) (t % perSecond / 1000) := by
  simp [stampChars, timeChars]

theorem timeChars_lt {a b m n : Nat} (ha : a < 86400) (hb : b < 86400) (hm : m < 1000)
    (hn : n < 1000) (h : a < b ∨ a = b ∧ m < n) : timeChars a m < timeChars b n := by
  have hparts : a / 3600 < b / 3600 ∨ a / 3600 = b / 3600 ∧ (a / 60 % 60 < b / 60 % 60 ∨
      a / 60 % 60 = b / 60 % 60 ∧ (a % 60 < b % 60 ∨ a % 60 = b % 60 ∧ m < n)) := by
    omega
  refine padded_append_lt (by decide) (by omega) (by omega) ?_
  refine hparts.imp_right fun hhour => ⟨hhour.1, mark_lt ':' ?_⟩
  refine padded_append_lt (by decide) (by omega) (by omega) ?_
  refine hhour.2.imp_right fun hminute => ⟨hminute.1, mark_lt ':' ?_⟩
  refine padded_append_lt (by decide) (by omega) (by omega) ?_
  refine hminute.2.imp_right fun hsecond => ⟨hsecond.1, mark_lt '.' ?_⟩
  exact padded_append_lt (by decide) (by omega) (by omega) (.inl hsecond.2)

/-! ### Timestamps -/

/-- Microseconds do not show. -/
theorem stampChars_congr {t u : Nat} (h : t / 1000 = u / 1000) : stampChars t = stampChars u := by
  have hday : t / perDay = u / perDay := by
    simp only [perDay, perSecond]
    omega
  have hsecond : t % perDay / perSecond = u % perDay / perSecond := by
    simp only [perDay, perSecond]
    omega
  have hmilli : t % perSecond / 1000 = u % perSecond / 1000 := by
    simp only [perSecond]
    omega
  rw [stampChars_eq, stampChars_eq, hday, hsecond, hmilli]

theorem second_lt (t : Nat) : t % perDay / perSecond < 86400 := by
  simp only [perDay, perSecond]
  omega

theorem milli_lt (t : Nat) : t % perSecond / 1000 < 1000 := by
  simp only [perSecond]
  omega

/-- **Timestamps sort as times.** -/
theorem stampChars_lt {t u : Nat} (h : t / 1000 < u / 1000) (hu : u < calendarEnd) :
    stampChars t < stampChars u := by
  have hday : u / perDay < 3652059 := Nat.div_lt_of_lt_mul (Nat.mul_comm .. ▸ hu)
  have hcut : t / perDay < u / perDay ∨ t / perDay = u / perDay ∧
      (t % perDay / perSecond < u % perDay / perSecond ∨
        t % perDay / perSecond = u % perDay / perSecond ∧
          t % perSecond / 1000 < u % perSecond / 1000) := by
    simp only [perDay, perSecond]
    omega
  rw [stampChars_eq, stampChars_eq]
  rcases hcut with hlt | ⟨heq, hcut⟩
  · refine Date.append_lt ?_ (Date.isoChars_lt hlt hday)
    rw [Date.length_isoChars (Date.fits_ofDayNumber (hlt.trans hday)),
      Date.length_isoChars (Date.fits_ofDayNumber hday)]
  · rw [heq]
    refine List.append_left_lt (mark_lt 'T' ?_)
    exact timeChars_lt (second_lt t) (second_lt u) (milli_lt t) (milli_lt u) hcut

/-- Of two times in the calendar the later has no smaller timestamp. -/
theorem stampText_le {t u : Nat} (h : t ≤ u) (hu : u < calendarEnd) :
    String.ofList (stampChars t) ≤ String.ofList (stampChars u) := by
  rcases (Nat.div_le_div_right (c := 1000) h).lt_or_eq with hlt | heq
  · apply le_of_lt
    rw [String.lt_iff_toList_lt, String.toList_ofList, String.toList_ofList]
    exact stampChars_lt hlt hu
  · rw [stampChars_congr heq]

/-- A timestamp shows a time of the calendar. -/
theorem timestamp?_eq_some {m : Moment} {s : String} (h : m.timestamp? = some s) :
    ∃ t : Nat, m.universal = t ∧ t < calendarEnd ∧ s = String.ofList (stampChars t) := by
  obtain ⟨t, ht, rfl⟩ := Option.map_eq_some_iff.mp h
  rw [universal?] at ht
  split at ht
  · next hin =>
    simp only [inCalendar, Bool.and_eq_true, decide_eq_true_eq] at hin
    cases ht
    exact ⟨_, (Int.toNat_of_nonneg hin.1).symm, by omega, rfl⟩
  · cases ht

/-- Of two moments the one that is not earlier has no smaller timestamp. -/
theorem timestamp?_le {m m' : Moment} (hle : m.universal ≤ m'.universal) {s s' : String}
    (h : m.timestamp? = some s) (h' : m'.timestamp? = some s') : s ≤ s' := by
  obtain ⟨t, ht, -, rfl⟩ := timestamp?_eq_some h
  obtain ⟨t', ht', hend, rfl⟩ := timestamp?_eq_some h'
  exact stampText_le (by omega) hend

end Moment

namespace Clock

variable {c : Clock} {n i j : Nat} {m m' : Moment}

/-! ### Readings -/

theorem reading?_eq_some_iff : c.reading? n = some m ↔
    Moment.inCalendar (c.shownAt n) = true ∧ m = ⟨c.shownAt n, c.offsetAt (c.shownAt n)⟩ := by
  constructor
  · intro h
    rw [reading?] at h
    split at h
    · next hin => exact ⟨hin, (Option.some.inj h).symm⟩
    · cases h
  · rintro ⟨hin, rfl⟩
    exact if_pos hin

theorem shownAt_le (hstep : 0 ≤ c.step) (hij : i ≤ j) : c.shownAt i ≤ c.shownAt j := by
  have hsteps : (i : Int) * c.step ≤ j * c.step :=
    Int.mul_le_mul_of_nonneg_right (by omega) hstep
  simp only [shownAt]
  omega

theorem shownAt_succ (c : Clock) (n : Nat) : c.shownAt (n + 1) = c.shownAt n + c.step := by
  rw [shownAt, shownAt, Nat.cast_succ, Int.add_mul, Int.one_mul, Int.add_assoc]

/-- Between two readings the clock does not leave the calendar. -/
theorem exists_reading?_of_le (hstep : 0 ≤ c.step) {k : Nat} (hik : i ≤ k) (hkj : k ≤ j)
    (h : c.reading? i = some m) (h' : c.reading? j = some m') : ∃ r, c.reading? k = some r := by
  obtain ⟨hin, -⟩ := reading?_eq_some_iff.mp h
  obtain ⟨hin', -⟩ := reading?_eq_some_iff.mp h'
  have hlow := shownAt_le hstep hik
  have hhigh := shownAt_le hstep hkj
  refine ⟨_, reading?_eq_some_iff.mpr ⟨?_, rfl⟩⟩
  simp only [Moment.inCalendar, Bool.and_eq_true, decide_eq_true_eq] at hin hin' ⊢
  omega

/-! ### Clocks that advance -/

/-- Whatever time it shows, the clock has the same offset. -/
def HasOneOffset (c : Clock) : Prop := ∀ shown shown', c.offsetAt shown = c.offsetAt shown'

/-- From no reading to the next does the offset grow by more than the step of the clock. -/
def Advances (c : Clock) : Prop :=
  ∀ n m m', c.reading? n = some m → c.reading? (n + 1) = some m' →
    (m'.ahead - m.ahead) * Moment.perSecond ≤ c.step

theorem HasOneOffset.advances (h : c.HasOneOffset) (hstep : 0 ≤ c.step) : c.Advances := by
  intro n m m' hm hm'
  obtain ⟨-, rfl⟩ := reading?_eq_some_iff.mp hm
  obtain ⟨-, rfl⟩ := reading?_eq_some_iff.mp hm'
  have hsame : c.offsetAt (c.shownAt (n + 1)) = c.offsetAt (c.shownAt n) := h ..
  simp only [Moment.ahead, hsame, Int.sub_self, Int.zero_mul]
  exact hstep

/-- A clock that is started at a moment keeps the offset of that, and so it advances if its step
does not go back. -/
theorem advances_of_ofStart {start : Moment} {step : Int} (h : ofStart start step = .ok c)
    (hstep : 0 ≤ step) : c.Advances := by
  rw [ofStart] at h
  split at h
  · cases h
    have hone : HasOneOffset ⟨start.shown, start.offset.map fun offset _ => offset, step⟩ :=
      fun shown shown' => by cases start.offset <;> rfl
    exact hone.advances hstep
  · cases h

theorem Advances.universal_succ (h : c.Advances) (hm : c.reading? n = some m)
    (hm' : c.reading? (n + 1) = some m') : m.universal ≤ m'.universal := by
  have hahead := h n m m' hm hm'
  obtain ⟨-, rfl⟩ := reading?_eq_some_iff.mp hm
  obtain ⟨-, rfl⟩ := reading?_eq_some_iff.mp hm'
  rw [Int.sub_mul] at hahead
  simp only [Moment.universal, shownAt_succ]
  rw [shownAt_succ] at hahead
  omega

/-- Later readings are of later times, where the clock advances. -/
theorem Advances.universal_le (h : c.Advances) (hstep : 0 ≤ c.step) (hij : i ≤ j)
    (hm : c.reading? i = some m) (hm' : c.reading? j = some m') : m.universal ≤ m'.universal := by
  induction j, hij using Nat.le_induction generalizing m' with
  | base =>
    rw [Option.some.inj (hm.symm.trans hm')]
  | succ j hij ih =>
    obtain ⟨r, hr⟩ := exists_reading?_of_le hstep hij (Nat.le_succ j) hm hm'
    exact (ih hr).trans (h.universal_succ hr hm')

/-- A clock that advances gives timestamps in order. -/
theorem Advances.timestamp?_le (h : c.Advances) (hstep : 0 ≤ c.step) (hij : i ≤ j) {s s' : String}
    (hs : (c.reading? i).bind Moment.timestamp? = some s)
    (hs' : (c.reading? j).bind Moment.timestamp? = some s') : s ≤ s' := by
  obtain ⟨m, hm, hs⟩ := Option.bind_eq_some_iff.mp hs
  obtain ⟨m', hm', hs'⟩ := Option.bind_eq_some_iff.mp hs'
  exact Moment.timestamp?_le (h.universal_le hstep hij hm hm') hs hs'

end Clock

end ItemStore
