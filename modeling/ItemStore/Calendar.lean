/-! The calendar of the years 1 to 9999.

A day is numbered from 0001-01-01, which is day 0. `Date.ofDayNumber` cuts a number into spans of
400, 100, 4 and 1 years; the last span of a century and of a leap cycle is one day longer, so its
count stops at three. -/
namespace ItemStore

/-- A day by its year, month and day of the month. -/
structure Date where
  year : Nat
  month : Nat
  day : Nat
deriving DecidableEq, Repr, Inhabited

namespace Date

def isLeap (year : Nat) : Bool :=
  year % 4 == 0 && (year % 100 != 0 || year % 400 == 0)

/-- The lengths of the months of a year. -/
def monthLengths (year : Nat) : List Nat :=
  [31, if isLeap year then 29 else 28, 31, 30, 31, 30, 31, 31, 30, 31, 30, 31]

/-- Whether there is such a day in the years 1 to 9999. -/
def isValid (d : Date) : Bool :=
  1 ≤ d.year && d.year ≤ 9999 && 1 ≤ d.month && d.month ≤ 12 && 1 ≤ d.day &&
    d.day ≤ (monthLengths d.year).getD (d.month - 1) 0

/-- The days from 0001-01-01 to the first day of a year. -/
def daysBeforeYear (year : Nat) : Nat :=
  let y := year - 1
  365 * y + y / 4 - y / 100 + y / 400

/-- The days in some months. -/
def daysIn (lengths : List Nat) : Nat := lengths.foldl (· + ·) 0

def dayNumber (d : Date) : Nat :=
  daysBeforeYear d.year + daysIn ((monthLengths d.year).take (d.month - 1)) + (d.day - 1)

/-- The month, counted from `month`, and the day in it that a day of the year falls on. -/
def splitMonths (month : Nat) : List Nat → Nat → Nat × Nat
  | length :: rest, n =>
    if n < length then (month, n) else splitMonths (month + 1) rest (n - length)
  | [], n => (month, n)

def ofDayNumber (n : Nat) : Date :=
  let cycles := n / 146097
  let n := n % 146097
  let centuries := min (n / 36524) 3
  let n := n - 36524 * centuries
  let leaps := n / 1461
  let n := n % 1461
  let years := min (n / 365) 3
  let n := n - 365 * years
  let year := 400 * cycles + 100 * centuries + 4 * leaps + years + 1
  let (month, day) := splitMonths 1 (monthLengths year) n
  ⟨year, month, day + 1⟩

/-- A number in at least `width` digits. -/
def padded (width n : Nat) : List Char :=
  let ds := Nat.toDigits 10 n
  List.replicate (width - ds.length) '0' ++ ds

def isoChars (d : Date) : List Char :=
  padded 4 d.year ++ '-' :: padded 2 d.month ++ '-' :: padded 2 d.day

/-- The day as `YYYY-MM-DD`. -/
def iso (d : Date) : String := String.ofList d.isoChars

end Date

end ItemStore
