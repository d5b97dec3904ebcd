import ItemStore.Value.Shape

/-! The wire form of values.

On the wire a value is a map of one entry whose key, the tag, names its type. A number travels as
its text. -/
namespace ItemStore

/-- The types of the wire. -/
inductive WireType where
  | null
  | bool
  | number
  | text
  | binary
  | numberSet
  | textSet
  | binarySet
  | list
  | map
deriving DecidableEq, Repr, Inhabited

namespace WireType

def tag : WireType → String
  | .null => "NULL"
  | .bool => "BOOL"
  | .number => "N"
  | .text => "S"
  | .binary => "B"
  | .numberSet => "NS"
  | .textSet => "SS"
  | .binarySet => "BS"
  | .list => "L"
  | .map => "M"

/-- The type a tag names, in any letter case. -/
def ofTag? (tag : String) : Option WireType :=
  match tag.toLower with
  | "null" => some .null
  | "bool" => some .bool
  | "n" => some .number
  | "s" => some .text
  | "b" => some .binary
  | "ns" => some .numberSet
  | "ss" => some .textSet
  | "bs" => some .binarySet
  | "l" => some .list
  | "m" => some .map
  | _ => none

theorem ofTag?_tag (t : WireType) : ofTag? t.tag = some t := by
  cases t <;> decide +kernel

/-- A value under the tag of its type. -/
def wrap (t : WireType) (v : Value) : Value := .map [(.text t.tag, v)]

end WireType

end ItemStore
