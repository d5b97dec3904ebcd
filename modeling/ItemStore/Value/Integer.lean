import ItemStore.Text.Split
import ItemStore.Text.Whitespace
import ItemStore.Value.Shape

/-! Values taken for integers.

A number loses its fraction. A text has to be a numeral: white space around it, a sign in front
and single underscores between its digits are allowed, and the digits may be of any script. -/
namespace ItemStore.Value

open ItemStore.Text (split trimBy isWhitespace spanDigits numeralValue)

/-- The digits of a run that holds nothing else. -/
def runDigits? (run : List Char) : Option (List Nat) :=
  match spanDigits run with
  | (d :: ds, []) => some (d :: ds)
  | _ => none

/-- The integer a numeral stands for. -/
def readInteger? (cs : List Char) : Option Int := do
  let (negative, rest) := Decimal.readSign (trimBy isWhitespace cs)
  let digits := (← (split '_' rest).mapM runDigits?).flatten
  if Decimal.maxDigits < digits.length then none
  else
    let n : Int := numeralValue digits
    return if negative then -n else n

/-- A numeral as an integer. -/
def numeral (cs : List Char) : Except Fault Int :=
  match readInteger? cs with
  | some n => .ok n
  | none => .error .malformed

/-- A decimal without its fraction. -/
def wholePart (d : Decimal) : Except Fault Int :=
  match d.truncate?, d with
  | some n, _ => .ok n
  | none, .infinity _ => .error .outOfRange
  | none, _ => .error .malformed

def toInteger : Value → Except Fault Int
  | .text s => numeral s.toList
  | .torn _ => .error .malformed
  | .bytes form data =>
    if form.wrapped then .error .wrongType
    else if data.all (· < 0x80) then numeral (data.map fun b => Char.ofNat b.toNat)
    else .error .malformed
  | v =>
    match v.number? with
    | some d => wholePart d
    | none => .error .wrongType

end ItemStore.Value
