import ItemStore.Memory.Request
import ItemStore.Update.Attach

/-! Updates in memory.

An update is put into a request itself. Its names and its values are added to new tables, which take
the place of those that the request shares with its caller once nothing can fail any more. -/
namespace ItemStore.Memory

/-- Adds new placeholders to a table, one after the other. -/
def addNew (collision : Text.Points → CallerFault) (n : Nat) : References → InMemory Unit
  | [] => return ()
  | (ref, v) :: rs => do
    if ((← get).table n).has ref then throw (.caller (collision (Text.points ref)))
    else
      writeTable n (·.put ref v)
      addNew collision n rs

/-- A new table of the names that the request has and those of the update. -/
def namesTable (u : Update) (r : Nat) : InMemory Nat := do
  let names ← newTable (← (← parameter r "ExpressionAttributeNames").toFieldsOrEmpty)
  addNew .nameCollision names u.names
  return names

/-- A new table of the values that the request has and those of the update, in wire form. -/
def valuesTable (u : Update) (r : Nat) : InMemory Nat := do
  let present ← Update.callerValues (← parameter r "ExpressionAttributeValues")
  let values ← newTable (← Wire.encodeFields present)
  addNew .valueCollision values (← Update.encodeReferences u.values)
  return values

/-- Puts an update into a request. -/
def attach (u : Update) (r : Nat) : InMemory Unit := do
  let names ← namesTable u r
  let values ← valuesTable u r
  putParameter r "UpdateExpression" (.value (.text u.expression))
  putParameter r "ExpressionAttributeNames" (.table names)
  if ((← get).table values).isEmpty then writeRequest r (·.erase "ExpressionAttributeValues")
  else putParameter r "ExpressionAttributeValues" (.table values)

end ItemStore.Memory
