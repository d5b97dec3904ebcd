import ItemStore.Value.Shape
import ItemStore.Value.Writing

/-! Keys.

A key names one record: one or two fields, each a text that is not empty, a number or binary data.
The first field that offends decides what is said of a key; the number of fields is looked at
last. What is said of a name that is none quotes it, and fails if it cannot be written out. -/
namespace ItemStore.Key

open ItemStore.Text (Points points)

/-- What is wrong with the value of a field. -/
def valueFault? (name : Points) : Value → Option CallerFault
  | .text s => if s == "" then some (.keyEmpty name) else none
  | .torn _ => none
  | .int _ => none
  | .decimal _ => none
  | .bytes .. => none
  | _ => some (.keyValue name)

/-- What is wrong with a field of a key. -/
def fieldFault? : Value × Value → Option CallerFault
  | (.text name, v) =>
    if name == "" then some (.keyName (.text name)) else valueFault? (points name) v
  | (.torn name, v) => valueFault? name.points v
  | (name, _) => some (.keyName name)

/-- What is said of a key. -/
def refusal : CallerFault → Fault
  | .keyName name => name.quotedIn (.caller (.keyName name))
  | c => .caller c

/-- The fields of a key, if it is well-formed. -/
def validate : Value → Except Fault Fields
  | .map [] => .error (.caller .keyShape)
  | .map es =>
    match es.findSome? fieldFault? with
    | some c => .error (refusal c)
    | none => if 2 < es.length then .error (.caller .keyCount) else .ok es
  | _ => .error (.caller .keyShape)

end ItemStore.Key
