import ItemStore.Calendar
import ItemStore.Decimal.Text
import ItemStore.Double.Shortest
import ItemStore.Text.Point

/-! Values.

A document, the wire form of a document, a request and a reply are all built from the same values.
A map keeps its entries in order, and its keys are values themselves; a set keeps its members in
the order in which they came. -/
namespace ItemStore

/-- How binary data is held: as it is or in a buffer that can be written to, and perhaps in the
wrapper in which it comes off the wire. -/
structure BytesForm where
  mutable : Bool
  wrapped : Bool
deriving DecidableEq, Repr, Inhabited

inductive Value where
  | null
  | bool (b : Bool)
  | int (n : Int)
  | decimal (d : Decimal)
  | float (x : Double)
  | text (s : String)
  | torn (t : Text.Torn)
  | bytes (form : BytesForm) (data : List UInt8)
  | list (items : List Value)
  | tuple (items : List Value)
  | set (frozen : Bool) (members : List Value)
  | map (entries : List (Value × Value))
  | date (d : Date)
  /-- Stands in an expected request for anything at all. -/
  | wildcard
deriving Repr, Inhabited

/-- The entries of a map. -/
abbrev Fields := List (Value × Value)

namespace Value

/-- Whether a condition takes the value for true. -/
def isTruthy : Value → Bool
  | .null => false
  | .bool b => b
  | .int n => n != 0
  | .decimal d => !d.isZero
  | .float x => !x.isZero
  | .text s => s != ""
  | .torn _ => true
  | .bytes form data => form.wrapped || !data.isEmpty
  | .list xs => !xs.isEmpty
  | .tuple xs => !xs.isEmpty
  | .set _ xs => !xs.isEmpty
  | .map es => !es.isEmpty
  | .date _ => true
  | .wildcard => true

/-- The text of some points. -/
def ofPoints (ps : Text.Points) : Value :=
  if h : ps.any Text.Point.isHalf = true then .torn ⟨ps, h⟩
  else .text (String.ofList (ps.map Text.Point.shown))

/-- The points of a text. -/
def points? : Value → Option Text.Points
  | .text s => some (Text.points s)
  | .torn t => some t.points
  | _ => none

/-- The value if it is truthy. -/
def truthy? (v : Value) : Option Value := if v.isTruthy then some v else none

/-- The decimal a number stands for; a truth value counts as 0 or 1. -/
def number? : Value → Option Decimal
  | .bool b => some (Decimal.ofInt (if b then 1 else 0))
  | .int n => some (Decimal.ofInt n)
  | .decimal d => some d
  | .float x => some x.exact
  | _ => none

/-- Binary data out of its wrapper. -/
def unwrap : Value → Value
  | .bytes form data => .bytes { form with wrapped := false } data
  | v => v

/-- The empty text, which asks for an attribute to be removed. -/
def isDeleteSentinel : Value → Bool
  | .text s => s == ""
  | _ => false

/-- The word for the type of a value in a message. -/
def typeName : Value → String
  | .null => "NoneType"
  | .bool _ => "bool"
  | .int _ => "int"
  | .decimal _ => "Decimal"
  | .float _ => "float"
  | .text _ => "str"
  | .torn _ => "str"
  | .bytes form _ =>
    if form.wrapped then "Binary" else if form.mutable then "bytearray" else "bytes"
  | .list _ => "list"
  | .tuple _ => "tuple"
  | .set frozen _ => if frozen then "frozenset" else "set"
  | .map _ => "dict"
  | .date _ => "date"
  | .wildcard => "_AnySentinel"

/-- Whether the value can be a member of a set or a key of a map. -/
def isHashable : Value → Bool
  | .decimal d => !d.isSignalling
  | .bytes form _ => !form.mutable
  | .list _ => false
  | .tuple xs => allHashable xs
  | .set frozen _ => frozen
  | .map _ => false
  | _ => true
where
  allHashable : List Value → Bool
    | [] => true
    | v :: vs => v.isHashable && allHashable vs

end Value

end ItemStore
