import ItemStore.Fault

/-! Values written into texts.

A text that quotes a value comes about only if the value can be written out. -/
namespace ItemStore.Value

open ItemStore.Text (Points)

/-- A fault that quotes a value, unless the value cannot be written out. -/
def quotedIn (v : Value) (f : Fault) : Fault := if v.isWritable then f else .malformed

/-- The value as a text of its own. -/
def shown (v : Value) : Except Fault Points :=
  match v.shown? with
  | some ps => if v.isWritable then .ok ps else .error .malformed
  | none => .error .wrongType

end ItemStore.Value
