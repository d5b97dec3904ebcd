import ItemStore.Moment

/-! Where stamps and identifiers come from.

A clock and a generator are sequences: a reading or an identifier is known by how many were drawn
before it. `Draws` counts them, and nothing else about a source changes. A reading counts even if
the clock has left the calendar. -/
namespace ItemStore

/-- A zone by its offset at each time that a clock on a wall shows there. -/
abbrev Zone := Int → Int

/-- A clock that starts at a time and shows the same microseconds more at each reading. If it hangs
in a zone, the offset of a reading is the one the zone has at the time shown. -/
structure Clock where
  start : Int
  zone : Option Zone
  step : Int

namespace Clock

/-- The longest step of a clock, in days. -/
def maxStepDays : Nat := 999999999

/-- A clock that keeps the offset it starts with, unless its step is too long. -/
def ofStart (start : Moment) (step : Int) : Except Fault Clock :=
  if (step / (Moment.perDay : Int)).natAbs ≤ maxStepDays then
    .ok ⟨start.shown, start.offset.map fun offset _ => offset, step⟩
  else .error .outOfRange

/-- The time shown after `n` readings. -/
def shownAt (c : Clock) (n : Nat) : Int := c.start + n * c.step

/-- The offset of the clock when it shows a time. -/
def offsetAt (c : Clock) (shown : Int) : Option Int := c.zone.map fun zone => zone shown

/-- The reading after `n` others; `none` once the clock has left the calendar. -/
def reading? (c : Clock) (n : Nat) : Option Moment :=
  if Moment.inCalendar (c.shownAt n) then some ⟨c.shownAt n, c.offsetAt (c.shownAt n)⟩ else none

end Clock

/-- The identifiers `stem1`, `stem2` and so on. -/
def sequentialIds (stem : String) (n : Nat) : String := stem ++ toString (n + 1)

structure Sources where
  clock : Nat → Option Moment
  ids : Nat → String

/-- How many readings and identifiers were drawn. -/
structure Draws where
  readings : Nat
  ids : Nat
deriving DecidableEq, Repr, Inhabited

/-- A computation that draws from the sources and may fail; what it drew stays drawn. -/
abbrev Drawing := ExceptT Fault (StateM Draws)

namespace Sources

/-- The timestamp of the next reading. -/
def stamp (src : Sources) : Drawing String := do
  let d ← get
  set { d with readings := d.readings + 1 }
  match (src.clock d.readings).bind Moment.timestamp? with
  | some s => return s
  | none => throw .outOfRange

/-- The next identifier. -/
def identifier (src : Sources) : Drawing String := do
  let d ← get
  set { d with ids := d.ids + 1 }
  return src.ids d.ids

end Sources

end ItemStore
