import ItemStore.Proofs.Calendar.DayNumber
import ItemStore.Proofs.Decimal.Text
import ItemStore.Proofs.Draws
import ItemStore.Proofs.Moment

/-! What a timestamp says.

A timestamp can be read without looking at how it is written: numbers of known widths, each with a
mark behind it, name a date and a time of day, and these name a moment. The moment so read from the
timestamp of a time is that time cut to milliseconds, so timestamps are in the order of the times
that they show. There is one for every time of the calendar, and for no other. -/
namespace ItemStore.Moment

open Date (padded)

/-! ### Numbers with marks behind them -/

/-- The widths of numbers, each with the mark behind it. -/
abbrev Form := List (Nat × Char)

/-- The numbers in a text of this form. -/
def readNumbers? : Form → List Char → Option (List Nat)
  | [], cs => if cs.isEmpty then some [] else none
  | (width, mark) :: form, cs =>
    let ds := cs.take width
    match cs.drop width with
    | [] => none
    | c :: rest =>
      if c = mark ∧ ds.length = width ∧ ds.all Char.isDigit = true then
        (readNumbers? form rest).map (Nat.ofDigitChars 10 ds 0 :: ·)
      else none

/-- `YYYY-MM-DDThh:mm:ss.mmmZ` -/
def stampForm : Form :=
  [(4, '-'), (2, '-'), (2, 'T'), (2, ':'), (2, ':'), (2, '.'), (3, 'Z')]

/-- The moment that a timestamp names. -/
def read? (s : String) : Option Moment :=
  match readNumbers? stampForm s.toList with
  | some [year, month, day, hour, minute, second, milli] =>
    ofParts? ⟨year, month, day⟩ hour minute second (1000 * milli) (some 0)
  | _ => none

/-! ### Writing numbers in a form -/

/-- Numbers in their widths, with their marks. -/
def written : Form → List Nat → List Char
  | (width, mark) :: form, n :: ns => padded width n ++ mark :: written form ns
  | _, _ => []

/-- Every number has a width, and the digits for it. -/
def FitsForm (form : Form) (ns : List Nat) : Prop :=
  List.Forall₂ (fun f n => 0 < f.1 ∧ n < 10 ^ f.1) form ns

theorem allDigits_padded (width n : Nat) : (padded width n).all Char.isDigit = true := by
  rw [List.all_eq_true]
  exact (Decimal.allDigits_zeros _).append (Decimal.allDigits_digits n)

theorem value_padded (width n : Nat) : Nat.ofDigitChars 10 (padded width n) 0 = n :=
  Decimal.value_padded ..

theorem readNumbers?_written {form : Form} {ns : List Nat} (h : FitsForm form ns) :
    readNumbers? form (written form ns) = some ns := by
  induction h with
  | nil => rfl
  | @cons f n form ns hn _ ih =>
    have hlength := Date.length_padded hn.1 hn.2
    have htake : (padded f.1 n ++ f.2 :: written form ns).take f.1 = padded f.1 n :=
      List.take_left' hlength
    have hdrop : (padded f.1 n ++ f.2 :: written form ns).drop f.1 = f.2 :: written form ns :=
      List.drop_left' hlength
    simp only [written, readNumbers?, htake, hdrop, ih, Option.map_some, value_padded, hlength,
      allDigits_padded, and_self, if_true]

/-- A form as it is shown, with a `d` for each digit. -/
def shape (form : Form) : List Char := form.flatMap fun f => List.replicate f.1 'd' ++ [f.2]

/-- The character may stand in this place of a shape. -/
def matchesMark (c mark : Char) : Bool :=
  if mark == 'd' then '0' ≤ c && c ≤ '9' else c == mark

theorem matchesMark_digits {ds : List Char} (h : ds.all Char.isDigit = true) :
    (ds.zip (List.replicate ds.length 'd')).all (fun p => matchesMark p.1 p.2) = true := by
  induction ds with
  | nil => rfl
  | cons c ds ih =>
    rw [List.all_cons, Bool.and_eq_true] at h
    rw [List.length_cons, List.replicate_succ, List.zip_cons_cons, List.all_cons, ih h.2,
      Bool.and_true]
    exact h.1

theorem written_shape {form : Form} {ns : List Nat} (h : FitsForm form ns)
    (hmarks : ∀ f ∈ form, f.2 ≠ 'd') :
    (written form ns).length = (shape form).length ∧
      ((written form ns).zip (shape form)).all (fun p => matchesMark p.1 p.2) = true := by
  induction h with
  | nil => exact ⟨rfl, rfl⟩
  | @cons f n form ns hn _ ih =>
    obtain ⟨hmark, hmarks⟩ := List.forall_mem_cons.mp hmarks
    obtain ⟨hlengths, hmatches⟩ := ih hmarks
    have hlength := Date.length_padded hn.1 hn.2
    have hshape : shape (f :: form) = List.replicate f.1 'd' ++ f.2 :: shape form := by
      simp [shape]
    have hdigits := matchesMark_digits (allDigits_padded f.1 n)
    rw [hlength] at hdigits
    rw [hshape, written]
    constructor
    · simp [hlength, hlengths]
    · rw [List.zip_append (by simp [hlength]), List.zip_cons_cons, List.all_append, List.all_cons,
        hdigits, hmatches, matchesMark, if_neg (by simpa using hmark)]
      simp

/-! ### The timestamp of a time -/

/-- The numbers in a timestamp. -/
def stampNumbers (t : Nat) : List Nat :=
  let date := Date.ofDayNumber (t / perDay)
  let second := t % perDay / perSecond
  [date.year, date.month, date.day, second / 3600, second / 60 % 60, second % 60,
    t % perSecond / 1000]

theorem stampChars_written (t : Nat) : stampChars t = written stampForm (stampNumbers t) := by
  simp [stampChars, written, stampForm, stampNumbers, Date.isoChars]

theorem day_lt {t : Nat} (h : t < calendarEnd) : t / perDay < 3652059 :=
  Nat.div_lt_of_lt_mul (Nat.mul_comm .. ▸ h)

theorem fitsForm_stamp {t : Nat} (h : t < calendarEnd) : FitsForm stampForm (stampNumbers t) := by
  have hdate := Date.fits_ofDayNumber (day_lt h)
  have hsecond := second_lt t
  have hmilli := milli_lt t
  rw [FitsForm, stampForm, stampNumbers]
  simp only [List.forall₂_cons, List.forall₂_nil_left_iff, and_true]
  refine ⟨⟨by decide, hdate.year⟩, ⟨by decide, hdate.month⟩, ⟨by decide, hdate.day⟩, ?_, ?_, ?_, ?_⟩
  all_goals omega

/-- The date and the time of day in a timestamp name its time, cut to milliseconds. -/
theorem ofParts?_stamp {t : Nat} (h : t < calendarEnd) :
    ofParts? (Date.ofDayNumber (t / perDay)) (t % perDay / perSecond / 3600)
      (t % perDay / perSecond / 60 % 60) (t % perDay / perSecond % 60)
      (1000 * (t % perSecond / 1000)) (some 0) = some ⟨(t / 1000 * 1000 : Nat), some 0⟩ := by
  have hvalid := Date.isValid_ofDayNumber (day_lt h)
  have hsecond := second_lt t
  have hmicro : 1000 * (t % perSecond / 1000) < perSecond := by
    simp only [perSecond]
    omega
  have htime : t / perDay * perDay + ((t % perDay / perSecond / 3600 * 60 +
      t % perDay / perSecond / 60 % 60) * 60 + t % perDay / perSecond % 60) * perSecond +
      1000 * (t % perSecond / 1000) = t / 1000 * 1000 := by
    simp only [perDay, perSecond]
    omega
  rw [ofParts?, if_pos, Date.dayNumber_ofDayNumber, htime]
  have hoffset : (some 0 : Option Int).all isOffset = true := rfl
  simp only [hvalid, hmicro, hoffset, decide_true, Bool.true_and, Bool.and_true, Bool.and_eq_true,
    decide_eq_true_eq]
  omega

/-- What a timestamp of a time is to its reader: a text of 24 characters in the one form, which
names the time without what is below a millisecond. -/
structure Shows (s : String) (t : Int) : Prop where
  form : isTimestamp s = true
  length : s.length = 24
  reads : read? s = some ⟨t / 1000 * 1000, some 0⟩

theorem shows_stamp {t : Nat} (h : t < calendarEnd) : Shows (String.ofList (stampChars t)) t := by
  have hfits := fitsForm_stamp h
  obtain ⟨hlength, hmatches⟩ := written_shape hfits (by decide)
  have hshape : shape stampForm = "dddd-dd-ddTdd:dd:dd.dddZ".toList := by decide
  rw [← stampChars_written, hshape] at hlength hmatches
  constructor
  · rw [isTimestamp, String.toList_ofList, hlength, Bool.and_eq_true]
    exact ⟨beq_self_eq_true _, hmatches⟩
  · rw [String.length_ofList, hlength]
    rfl
  · rw [read?, String.toList_ofList, stampChars_written, readNumbers?_written hfits]
    exact ofParts?_stamp h

/-! ### Moments -/

/-- The first time of a year. -/
def yearStart (year : Nat) : Int := (Date.daysBeforeYear year * perDay : Nat)

/-- A time of the years 1 to 9999. -/
def InYears (t : Int) : Prop := yearStart 1 ≤ t ∧ t < yearStart 10000

theorem inYears_iff {t : Int} : InYears t ↔ 0 ≤ t ∧ t < calendarEnd := Iff.rfl

theorem timestamp?_eq_none_iff (m : Moment) : m.timestamp? = none ↔ ¬ InYears m.universal := by
  rw [timestamp?, Option.map_eq_none_iff, inYears_iff]
  have hiff : m.universal? = none ↔ inCalendar m.universal = false := by
    unfold universal?
    simp
  rw [hiff, inCalendar]
  simp only [Bool.and_eq_false_iff, decide_eq_false_iff_not]
  omega

/-- The text of a moment is that of a time of the calendar. -/
theorem exists_stamp {m : Moment} {s : String} (h : m.timestamp? = some s) :
    ∃ t : Nat, m.universal = t ∧ t < calendarEnd ∧ s = String.ofList (stampChars t) :=
  timestamp?_eq_some h

theorem stampText_lt {t u : Nat} (h : t / 1000 < u / 1000) (hu : u < calendarEnd) :
    String.ofList (stampChars t) < String.ofList (stampChars u) := by
  rw [String.lt_iff_toList_lt, String.toList_ofList, String.toList_ofList]
  exact stampChars_lt h hu

/-- **Timestamps sort as time.** A moment has a timestamp exactly if its universal time is in the
years 1 to 9999; a clock that shows any other fails with a time out of range. A timestamp shows the
universal time cut to milliseconds. Of two timestamps the smaller text is that of the earlier
millisecond, and they are equal exactly if these are. -/
theorem timestamps_sort (m m' : Moment) :
    (m.timestamp? = none ↔ ¬ InYears m.universal) ∧
    (∀ (src : Sources) (d : Draws), src.clock d.readings = some m →
      ((src.stamp d).1 = .error .outOfRange ↔ ¬ InYears m.universal)) ∧
    ∀ s s', m.timestamp? = some s → m'.timestamp? = some s' →
      Shows s m.universal ∧ Shows s' m'.universal ∧
      (s < s' ↔ m.universal / 1000 < m'.universal / 1000) ∧
      (s = s' ↔ m.universal / 1000 = m'.universal / 1000) := by
  refine ⟨timestamp?_eq_none_iff m, fun src d hclock => ?_, fun s s' h h' => ?_⟩
  · rw [← timestamp?_eq_none_iff, Lifecycle.stamp_run, Lifecycle.nextStamp, hclock,
      Option.bind_some]
    cases m.timestamp? <;> simp
  · obtain ⟨t, ht, hend, rfl⟩ := exists_stamp h
    obtain ⟨t', ht', hend', rfl⟩ := exists_stamp h'
    rw [ht, ht']
    refine ⟨shows_stamp hend, shows_stamp hend', ?_⟩
    norm_cast
    rcases lt_trichotomy (t / 1000) (t' / 1000) with hlt | heq | hgt
    · have hs := stampText_lt hlt hend'
      exact ⟨iff_of_true hs hlt, iff_of_false hs.ne hlt.ne⟩
    · have hs := congrArg String.ofList (stampChars_congr heq)
      exact ⟨iff_of_false hs.not_lt heq.not_lt, iff_of_true hs heq⟩
    · have hs := stampText_lt hgt hend
      exact ⟨iff_of_false hs.not_gt hgt.not_gt, iff_of_false hs.ne' hgt.ne'⟩

/-- Half an hour into a leap day, an hour east of where it is still the day before by a clock
without an offset; and an hour west of it, at the end of the year 9999, a clock with no time to
show. -/
theorem timestamps_sort_leap_day :
    let m := (ofParts? ⟨2024, 2, 29⟩ 0 30 0 123999 (some 3600)).getD ⟨0, none⟩
    let m' := (ofParts? ⟨2024, 2, 28⟩ 23 30 0 124000 none).getD ⟨0, none⟩
    let late := (ofParts? ⟨9999, 12, 31⟩ 23 30 0 0 (some (-3600))).getD ⟨0, none⟩
    let s := "2024-02-28T23:30:00.123Z"
    let s' := "2024-02-28T23:30:00.124Z"
    let src : Sources := ⟨fun _ => some late, fun _ => ""⟩
    m.timestamp? = some s ∧ m'.timestamp? = some s' ∧ ¬ InYears late.universal ∧
      Shows s m.universal ∧ Shows s' m'.universal ∧ s < s' ∧ s ≠ s' ∧
      (src.stamp ⟨0, 0⟩).1 = .error .outOfRange := by
  intro m m' late s s' src
  have hs : m.timestamp? = some s := by decide +kernel
  have hs' : m'.timestamp? = some s' := by decide +kernel
  have hlate : ¬ InYears late.universal := by
    rw [inYears_iff]
    decide +kernel
  obtain ⟨-, -, htexts⟩ := timestamps_sort m m'
  obtain ⟨hshows, hshows', hlt, heq⟩ := htexts s s' hs hs'
  refine ⟨hs, hs', hlate, hshows, hshows', hlt.mpr (by decide +kernel), ?_, ?_⟩
  · rw [ne_eq, heq]
    decide +kernel
  · exact ((timestamps_sort late late).2.1 src ⟨0, 0⟩ rfl).mpr hlate

end ItemStore.Moment
