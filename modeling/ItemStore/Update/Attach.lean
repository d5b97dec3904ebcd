import ItemStore.Amendment
import ItemStore.Update.Basic

/-! Updates in a request.

A caller's request may hold placeholders of its own. The placeholders of the update are added to
them, and none may be there already. Names are compared before any value is put into wire form. -/
namespace ItemStore.Update

/-- Adds new placeholders; the first that is there already is an error. -/
def addNew (collision : Text.Points → CallerFault) : Fields → References → Except Fault Fields
  | fs, [] => .ok fs
  | fs, (ref, v) :: rs =>
    if Fields.has fs ref then .error (.caller (collision (Text.points ref)))
    else addNew collision (Fields.put fs ref v) rs

/-- The wire form of what placeholders stand for. -/
def encodeReferences : References → Except Fault References
  | [] => .ok []
  | (ref, v) :: rs => do return (ref, ← Wire.encodeValue v) :: (← encodeReferences rs)

/-- The entries of a map, or none if the value is falsy. -/
def callerValues (v : Value) : Except Fault Fields :=
  if v.isTruthy then v.fields else .ok []

/-- The tables of names and of values that a request has with the update in it. -/
def tables (u : Update) (req : Fields) : Except Fault (Fields × Fields) := do
  let names ←
    addNew .nameCollision (← (req.getD "ExpressionAttributeNames").toFieldsOrEmpty) u.names
  let present ← Wire.encodeFields (← callerValues (req.getD "ExpressionAttributeValues"))
  let values ← addNew .valueCollision present (← encodeReferences u.values)
  return (names, values)

/-- Writes the text of the update and the two tables; no table of values is left if it is empty. -/
def write (u : Update) (found : Fields × Fields) (req : Fields) : Fields :=
  let (names, values) := found
  let req := req.put "UpdateExpression" (.text u.expression)
  let req := req.put "ExpressionAttributeNames" (.map names)
  if values.isEmpty then req.erase "ExpressionAttributeValues"
  else req.put "ExpressionAttributeValues" (.map values)

/-- Puts an update into a request. -/
def attach (u : Update) : Amendment Unit := .checked u.tables u.write

end ItemStore.Update
