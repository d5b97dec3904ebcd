import ItemStore.Text.Literal
import ItemStore.Value.Shape
import ItemStore.Value.Writing

/-! Values into JSON texts.

A text is written without space, in ASCII, with the entries of a map sorted by their keys. A value
that JSON has no form for is written as the text it is displayed as, so a decimal becomes a string.
-/
namespace ItemStore.Json

open ItemStore.Text (Point Points points hexPadded)

/-! ### Strings -/

/-- A unit of sixteen bits as an escape. -/
def unitEscape (u : Nat) : List Char := '\\' :: 'u' :: hexPadded 4 u

def escapeChar (c : Char) : List Char :=
  match c with
  | '"' => ['\\', '"']
  | '\\' => ['\\', '\\']
  | '\n' => ['\\', 'n']
  | '\r' => ['\\', 'r']
  | '\t' => ['\\', 't']
  | '\x08' => ['\\', 'b']
  | '\x0c' => ['\\', 'f']
  | c =>
    let n := c.toNat
    if 0x20 ≤ n && n < 0x7F then [c]
    else if n < 0x10000 then unitEscape n
    else unitEscape (0xD800 + (n - 0x10000) / 0x400) ++ unitEscape (0xDC00 + (n - 0x10000) % 0x400)

def escapePoint : Point → List Char
  | .char c => escapeChar c
  | .half u => unitEscape u

/-- A text between quotes. -/
def quotePoints (ps : Points) : String :=
  String.ofList (['"'] ++ ps.flatMap escapePoint ++ ['"'])

def quote (s : String) : String := quotePoints (points s)

/-! ### Keys -/

def floatText : Double → String
  | .infinity negative => if negative then "-Infinity" else "Infinity"
  | .nan _ => "NaN"
  | x => x.text

/-- An integer, unless it has too many digits to be written out. -/
def intText (n : Int) : Except Fault String :=
  if (Value.int n).isWritable then .ok (toString n) else .error .malformed

/-- The name an entry is written under. -/
def keyText : Value → Except Fault Points
  | .text s => .ok (points s)
  | .torn t => .ok t.points
  | .float x => .ok (points (floatText x))
  | .bool b => .ok (points (if b then "true" else "false"))
  | .null => .ok (points "null")
  | .int n => (intText n).map points
  | _ => .error .wrongType

def isDecimal : Value → Bool
  | .decimal _ => true
  | _ => false

/-- Checks that one of two keys precedes the other: texts have an order, and so have numbers, but
a NaN has none with a decimal. -/
def checkPair (a b : Value) : Except Fault Unit :=
  match a.number?, b.number? with
  | some x, some y =>
    if (isDecimal a || isDecimal b) && (x.isNaN || y.isNaN) then .error .incomparable else .ok ()
  | _, _ => if a.points?.isSome && b.points?.isSome then .ok () else .error .wrongType

/-- Checks that keys can be put in order. Keys that can are all texts or all numbers, so it is
enough to look at neighbours. -/
def checkOrdered : List Value → Except Fault Unit
  | a :: b :: keys => do
    checkPair a b
    checkOrdered (b :: keys)
  | _ => .ok ()

/-- The order of keys: texts by their points, numbers by what they stand for. -/
def keyLe (a b : Value) : Bool :=
  match a.points?, b.points? with
  | some ps, some qs => !decide (qs.map Point.number < ps.map Point.number)
  | _, _ =>
    match a.number?, b.number? with
    | some x, some y => !(y.precedes x)
    | _, _ => true

/-! ### Values -/

/-- A key with its value as it is written, if it can be written. -/
abbrev Entry := Value × Except Fault String

/-- Puts an entry in front of the first whose key does not precede its own. -/
def insertEntry (e : Entry) : List Entry → List Entry
  | [] => [e]
  | f :: fs => if keyLe e.1 f.1 then e :: f :: fs else f :: insertEntry e fs

/-- Entries in the order of their keys. -/
def sortEntries (entries : List Entry) : List Entry := entries.foldr insertEntry []

/-- An entry: its name and its value. -/
def member (e : Entry) : Except Fault String := do
  return quotePoints (← keyText e.1) ++ ":" ++ (← e.2)

/-- An object of some entries. A fault in the order of the keys comes before one in an entry. -/
def object (entries : List Entry) : Except Fault String := do
  checkOrdered (entries.map (·.1))
  let parts ← (sortEntries entries).mapM member
  return "\x7b" ++ ",".intercalate parts ++ "\x7d"

def array (parts : List String) : String := "[" ++ ",".intercalate parts ++ "]"

mutual

def write : Value → Except Fault String
  | .null => .ok "null"
  | .bool b => .ok (if b then "true" else "false")
  | .int n => intText n
  | .float x => .ok (floatText x)
  | .text s => .ok (quote s)
  | .torn t => .ok (quotePoints t.points)
  | .list xs => do return array (← writeAll xs)
  | .tuple xs => do return array (← writeAll xs)
  | .map es => object (writeEntries es)
  | v => v.shown.map quotePoints

def writeAll : List Value → Except Fault (List String)
  | [] => .ok []
  | v :: vs => do return (← write v) :: (← writeAll vs)

def writeEntries : List (Value × Value) → List Entry
  | [] => []
  | (k, v) :: es => (k, write v) :: writeEntries es

end

end ItemStore.Json
