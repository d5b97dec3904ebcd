import ItemStore.Key
import ItemStore.Wire.Decode
import ItemStore.Wire.Encode

/-! Requests of a batch.

A batch is a list of requests, each to put an item or to delete the record of a key. What the
service leaves undone comes back in wire form and is handed to the caller as it was passed. -/
namespace ItemStore.Batch

def single (name : String) (v : Value) : Value := .map [(.text name, v)]

/-- A request on the wire. -/
def encodeRequest (op : Value) : Except Fault Value := do
  if ← op.mentions (.text "PutRequest") then
    let item ← (← op.entry "PutRequest").entry "Item"
    return single "PutRequest" (single "Item" (← Wire.encodeItem item))
  else if ← op.mentions (.text "DeleteRequest") then
    let key ← Key.validate (← (← op.entry "DeleteRequest").entry "Key")
    return single "DeleteRequest" (single "Key" (← Wire.encodeItem (.map key)))
  else throw (.caller .writeRequest)

/-- A request off the wire. -/
def decodeRequest (op : Value) : Except Fault Value := do
  if ← op.mentions (.text "PutRequest") then
    let item ← (← op.entry "PutRequest").entry "Item"
    return single "PutRequest" (single "Item" (.map (← Wire.decodeItem item)))
  else
    let key ← (← op.entry "DeleteRequest").entry "Key"
    return single "DeleteRequest" (single "Key" (.map (← Wire.decodeItem key)))

/-- The requests of a batch on the wire, in order. -/
def encodeRequests (ops : Value) : Except Fault Value := do
  return .list (← (← ops.elements).mapM encodeRequest)

/-- The requests left undone for each table. -/
def decodeTables : Fields → Except Fault Fields
  | [] => .ok []
  | (table, ops) :: rest => do
    return (table, .list (← (← ops.elements).mapM decodeRequest)) :: (← decodeTables rest)

/-- A response with the requests left undone off the wire; there is always a table of them. -/
def decodeResponse (response : Fields) : Except Fault Fields := do
  let undone ←
    match (response.getD "UnprocessedItems").truthy? with
    | none => pure []
    | some v => decodeTables (← v.fields)
  return response.put "UnprocessedItems" (.map undone)

end ItemStore.Batch
