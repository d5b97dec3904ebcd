import ItemStore.Table.Basic
import ItemStore.Table.Batch
import ItemStore.Update.Attach

/-! What an operation does before its call.

An operation checks its arguments, says in the log what it is about, and builds its request. It
may fail at any point; what it drew and what it announced by then stand. -/
namespace ItemStore.Table

/-- How far an operation has come before its call. -/
structure Progress where
  draws : Draws
  /-- What the operation has announced to be about. -/
  context : Option Fields

abbrev Preparing := ExceptT Fault (StateM Progress)

/-- A request, and what a write answers once it is made. -/
structure Prepared where
  request : Fields
  result : Fields

/-- Draws from the sources. -/
def draw {α : Type} (x : Drawing α) : Preparing α :=
  fun p =>
    let (r, d) := x p.draws
    (r, { p with draws := d })

def announce (context : Fields) : Preparing Unit :=
  modify fun p => { p with context := some context }

/-- An argument that has to be a map. -/
def requireMap (v : Value) (fault : CallerFault) : Except Fault Unit :=
  match v with
  | .map _ => .ok ()
  | _ => .error (.caller fault)

/-- The account that the values of a query name. -/
def queriedAccount (accountField : String) (params : Value) : Except Fault Value := do
  let values ← Update.callerValues ((← params.fields).getD "ExpressionAttributeValues")
  return values.getD (":" ++ accountField)

def prepare (t : Table) : Operation → Preparing Prepared
  | .get key params => do
    let key ← Key.validate key
    announce (t.context key .null .null)
    let req := t.extend (← ReadRequest.build params)
    return ⟨req.put "Key" (← Wire.encodeItem (.map key)), []⟩
  | .query params => do
    announce (t.context [] .null (← queriedAccount t.accountField params))
    return ⟨t.extend (← ReadRequest.build params), []⟩
  | .scan params => do
    announce (t.context [] .null .null)
    return ⟨t.extend (← ReadRequest.build params), []⟩
  | .create item id params => do
    requireMap item .itemShape
    let stamped ← draw (Lifecycle.stampWrite t.schema t.sources (.create item id))
    let id := (stamped.record.get? "id").getD id
    announce (t.context stamped.record id .null)
    let req := t.extend (← conditionParams params)
    return ⟨req.put "Item" (← Wire.encodeItem (.map stamped.record)), stamped.result⟩
  | .replace key item params => do
    let key ← Key.validate key
    requireMap item .itemShape
    announce (t.context key .null .null)
    let stamped ← draw (Lifecycle.stampWrite t.schema t.sources (.replace (.map key) item))
    let req := t.extend (← conditionParams params)
    return ⟨req.put "Item" (← Wire.encodeItem (.map stamped.record)), stamped.result⟩
  | .update key attributes params => do
    let key ← Key.validate key
    requireMap attributes .attributesShape
    announce (t.context key .null .null)
    let stamped ← draw (Lifecycle.stampWrite t.schema t.sources (.update (.map key) attributes))
    let update ← Update.compile key stamped.record
    let req ← update.attach.result (← freeParams params ["Key", "UpdateExpression"])
    return ⟨(t.extend req).put "Key" (← Wire.encodeItem (.map key)), stamped.result⟩
  | .delete key params => do
    let key ← Key.validate key
    announce (t.context key .null .null)
    let req := t.extend (← conditionParams params)
    return ⟨req.put "Key" (← Wire.encodeItem (.map key)), []⟩
  | .batchWrite requests account => do
    announce (t.context [] .null account)
    let requests ← Batch.encodeRequests requests
    return ⟨[(.text "RequestItems", .map [(.text t.name, requests)]),
      (.text "ReturnConsumedCapacity", .text "INDEXES")], []⟩
  | .listTables params => do
    return ⟨← params.toFieldsOrEmpty, []⟩
  | .createTable params => do
    return ⟨t.withTableName (← params.toFields), []⟩
  | .deleteTable params => do
    return ⟨t.withTableName (← params.toFieldsOrEmpty), []⟩

end ItemStore.Table
