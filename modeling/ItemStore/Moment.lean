import ItemStore.Fault

/-! Moments and timestamps.

A moment is what a clock on a wall shows, with the offset of that clock from universal time; a clock
without an offset is taken to show universal time. Times are counted in microseconds from the start
of the calendar. A timestamp shows the universal time of a moment, cut to milliseconds, in a form of
fixed width, so that timestamps sort as times. -/
namespace ItemStore

/-- A local time in microseconds since 0001-01-01, and the offset of the zone in seconds, if there
is a zone. -/
structure Moment where
  shown : Int
  offset : Option Int
deriving DecidableEq, Repr, Inhabited

namespace Moment

def perSecond : Nat := 1000000

def perDay : Nat := 86400 * perSecond

/-- The first time after the calendar: the days of the years 1 to 9999. -/
def calendarEnd : Nat := 3652059 * perDay

def inCalendar (t : Int) : Bool := 0 ≤ t && t < calendarEnd

/-- Whether a zone can have this offset: it is less than a day. -/
def isOffset (offset : Int) : Bool := offset.natAbs < 86400

/-- The moment a date and a time of day name; `none` if there is no such time. -/
def ofParts? (date : Date) (hour minute second microsecond : Nat) (offset : Option Int) :
    Option Moment :=
  if date.isValid && hour < 24 && minute < 60 && second < 60 && microsecond < perSecond &&
      offset.all isOffset then
    some ⟨(date.dayNumber * perDay + ((hour * 60 + minute) * 60 + second) * perSecond +
      microsecond : Nat), offset⟩
  else none

/-- Whether a number fits into 32 bits. -/
def isShort (n : Int) : Bool := -(Nat.pow 2 31 : Int) ≤ n && n < Nat.pow 2 31

/-- The moment that numbers name: year, month and day, then as much of the time of day as is given,
down to microseconds. -/
def ofNumbers (numbers : List Int) (offset : Option Int) : Except Fault Moment :=
  let part (i : Nat) : Nat := (numbers.getD i 0).toNat
  if numbers.length < 3 || 7 < numbers.length then .error .wrongType
  else if !numbers.all isShort then .error .outOfRange
  else if numbers.any (· < 0) then .error .malformed
  else
    match ofParts? ⟨part 0, part 1, part 2⟩ (part 3) (part 4) (part 5) (part 6) offset with
    | some m => .ok m
    | none => .error .malformed

/-- How many seconds the clock is ahead of universal time. -/
def ahead (m : Moment) : Int := m.offset.getD 0

/-- The universal time of a moment in microseconds since the start of the calendar, be it in the
calendar or not. -/
def universal (m : Moment) : Int := m.shown - m.ahead * perSecond

/-- The universal time of a moment, if the calendar has it. -/
def universal? (m : Moment) : Option Nat :=
  if inCalendar m.universal then some m.universal.toNat else none

/-- A universal time as `YYYY-MM-DDThh:mm:ss.mmmZ`. -/
def stampChars (t : Nat) : List Char :=
  let second := t % perDay / perSecond
  (Date.ofDayNumber (t / perDay)).isoChars ++
    'T' :: Date.padded 2 (second / 3600) ++
    ':' :: Date.padded 2 (second / 60 % 60) ++
    ':' :: Date.padded 2 (second % 60) ++
    '.' :: Date.padded 3 (t % perSecond / 1000) ++ ['Z']

/-- The timestamp of a moment; `none` if its universal time is outside the calendar. -/
def timestamp? (m : Moment) : Option String :=
  m.universal?.map fun t => String.ofList (stampChars t)

/-- The form of a timestamp: digits, with the marks in their places. -/
def isTimestamp (s : String) : Bool :=
  let shape := "dddd-dd-ddTdd:dd:dd.dddZ".toList
  s.toList.length == shape.length &&
    (s.toList.zip shape).all fun (c, m) => if m == 'd' then '0' ≤ c && c ≤ '9' else c == m

end Moment

end ItemStore
