import ItemStore.Json.Read
import ItemStore.Value.Shape

/-! Version numbers.

A release candidate is recorded as three numbers, `-rc`, and a number of its own after an optional
point; `normalize` writes it without the marks. The three numbers may be in the digits of any
script, the last number only in ASCII, and one line feed may end the text. Any other text stays as
it is. -/
namespace ItemStore.Version

open ItemStore.Text (Point Points points isDecimalDigit isAsciiDigit)

/-- A run of at least one point of a class, and the rest. -/
def run? (p : Point → Bool) (ps : Points) : Option (Points × Points) :=
  match ps.takeWhile p with
  | [] => none
  | run => some (run, ps.dropWhile p)

/-- Takes a character off the front. -/
def after? (c : Char) : Points → Option Points
  | p :: ps => if p = .char c then some ps else none
  | [] => none

/-- A decimal digit of any script. -/
def isDigit : Point → Bool := Point.isIn isDecimalDigit

/-- The version and the candidate of a release candidate. -/
def candidate? (ps : Points) : Option (Points × Points) := do
  let (major, ps) ← run? isDigit ps
  let ps ← after? '.' ps
  let (minor, ps) ← run? isDigit ps
  let ps ← after? '.' ps
  let (patch, ps) ← run? isDigit ps
  let ps ← after? '-' ps
  let ps ← after? 'r' ps
  let ps ← after? 'c' ps
  let (number, ps) ← run? (Point.isIn isAsciiDigit) ((after? '.' ps).getD ps)
  if ps = [] ∨ ps = [.char '\n'] then
    return (major ++ .char '.' :: minor ++ .char '.' :: patch, number)
  else none

def normalize (version : Points) : Points :=
  match candidate? version with
  | some (release, number) => release ++ points "rc" ++ number
  | none => version

/-- The version where none is recorded. -/
def unknown : String := "0.0.0"

/-- The version in a record, which is a JSON text; a record that cannot be read has none. -/
def recorded (record : Option String) : Except Fault Value :=
  match record.map Json.read with
  | some (.ok data) => do
    let version := (← data.fields).getD "version"
    return if version.points?.isSome && version.isTruthy then version else .text unknown
  | _ => .ok (.text unknown)

/-- The version of this library. -/
def current : String := "0.1.0"

end ItemStore.Version
