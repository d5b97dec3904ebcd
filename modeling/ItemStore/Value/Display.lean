import ItemStore.Text.Literal
import ItemStore.Value.Basic

/-! Values in messages.

`literal` writes a value so that its type shows: texts and bytes are quoted, decimals, dates and
wrapped bytes name their type. `shown?` writes a text, a decimal and a date as they are, and
anything else as its literal; wrapped bytes have no such form. Neither can be had of a value with an
integer in it of more digits than are written out: `isWritable` tells, and whoever writes a value
into a text asks it first. -/
namespace ItemStore.Value

open ItemStore.Text (Points points quoted quotedPoints quotedBytes quotedBuffer)

/-- A text in parentheses behind a name. -/
def named (name inside : String) : String := name ++ "(" ++ inside ++ ")"

def bytesLiteral (form : BytesForm) (data : List UInt8) : String :=
  let held := if form.mutable then named "bytearray" (quotedBuffer data) else quotedBytes data
  if form.wrapped then named "Binary" held else held

def dateLiteral (d : Date) : String :=
  named "datetime.date" (s!"{d.year}, {d.month}, {d.day}")

def join (parts : List String) : String := ", ".intercalate parts

/-- Members between braces, which an empty set goes without. -/
def setLiteral (frozen : Bool) (members : List String) : String :=
  let braces := "\x7b" ++ join members ++ "\x7d"
  match frozen, members with
  | false, [] => "set()"
  | true, [] => "frozenset()"
  | false, _ => braces
  | true, _ => named "frozenset" braces

/-- A tuple of one keeps a comma. -/
def tupleLiteral : List String → String
  | [x] => "(" ++ x ++ ",)"
  | xs => "(" ++ join xs ++ ")"

mutual

def literal : Value → String
  | .null => "None"
  | .bool b => if b then "True" else "False"
  | .int n => toString n
  | .decimal d => named "Decimal" ("'" ++ d.text ++ "'")
  | .float x => x.text
  | .text s => quoted s
  | .torn t => quotedPoints t.points
  | .bytes form data => bytesLiteral form data
  | .list xs => "[" ++ join (literals xs) ++ "]"
  | .tuple xs => tupleLiteral (literals xs)
  | .set frozen xs => setLiteral frozen (literals xs)
  | .map es => "\x7b" ++ join (entryLiterals es) ++ "\x7d"
  | .date d => dateLiteral d
  | .wildcard => "ANY"

def literals : List Value → List String
  | [] => []
  | v :: vs => literal v :: literals vs

def entryLiterals : List (Value × Value) → List String
  | [] => []
  | (k, v) :: es => (literal k ++ ": " ++ literal v) :: entryLiterals es

end

/-- The value as a text of its own; wrapped bytes have none. -/
def shown? : Value → Option Points
  | .text s => some (points s)
  | .torn t => some t.points
  | .decimal d => some (points d.text)
  | .date d => some (points d.iso)
  | .bytes form data => if form.wrapped then none else some (points (bytesLiteral form data))
  | v => some (points (literal v))

/-! ### Integers that are not written out -/

mutual

/-- Whether every integer in the value has few enough digits to be written out. -/
def isWritable : Value → Bool
  | .int n => n.natAbs < Decimal.tenTo Decimal.maxDigits
  | .list xs => areWritable xs
  | .tuple xs => areWritable xs
  | .set _ xs => areWritable xs
  | .map es => entriesWritable es
  | _ => true

def areWritable : List Value → Bool
  | [] => true
  | v :: vs => isWritable v && areWritable vs

def entriesWritable : List (Value × Value) → Bool
  | [] => true
  | (k, v) :: es => isWritable k && isWritable v && entriesWritable es

end

end ItemStore.Value
