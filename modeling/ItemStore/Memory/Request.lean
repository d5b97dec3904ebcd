import ItemStore.Memory.Basic
import ItemStore.ReadRequest

/-! Requests in memory.

A request that reads is built in a copy of the parameters, which shares the caller's tables. The
projection is spelled out in the copy itself, with a new table of names in the place of the shared
one. -/
namespace ItemStore.Memory

/-- The value of a parameter of a request, or null. -/
def parameter (r : Nat) (name : String) : InMemory Value := do
  return ((← get).view r).getD name

def putParameter (r : Nat) (name : String) (s : Slot) : InMemory Unit :=
  writeRequest r (·.put name s)

/-- Adds placeholders to a table of names, one after the other. -/
def addNames (n : Nat) : Fields → InMemory Unit
  | [] => return ()
  | (ref, field) :: es => do
    if ((((← get).table n).getKey? ref).getD field).same field then
      writeTable n (·.putKey ref field)
      addNames n es
    else throw (.caller (.nameCollision (ref.points?.getD [])))

/-- Spells out the projection of a request. -/
def spellOut (r : Nat) : InMemory Unit := do
  match ← Projection.requested? (← parameter r "ProjectionExpression") with
  | none => writeRequest r (·.erase "ProjectionExpression")
  | some p =>
    let names ← newTable (← (← parameter r "ExpressionAttributeNames").toFieldsOrEmpty)
    addNames names p.names
    putParameter r "ProjectionExpression" (.value p.expression)
    putParameter r "ExpressionAttributeNames" (.table names)

/-- Spells out the projection of a request that has one. -/
def spelled (r : Nat) : InMemory Unit := do
  if ((← get).view r).has "ProjectionExpression" then spellOut r

/-- Puts a parameter into wire form if it is truthy. -/
def encodeParam (r : Nat) (name : String) (encode : Value → Except Fault Value) :
    InMemory Unit := do
  match (← parameter r name).truthy? with
  | none => return ()
  | some v => putParameter r name (.value (← encode v))

/-- Parameters as they are passed: a request, or any other value. -/
inductive Params where
  | value (v : Value)
  | request (r : Nat)

/-- The value that was passed, as it is now. -/
def passed (m : Memory) : Params → Value
  | .value v => v
  | .request r => .map (m.view r)

/-- A new request with the parameters that were passed. -/
def copyParams : Params → InMemory Nat
  | .value v => do newRequest ((← v.toFieldsOrEmpty).map fun e => (e.1, .value e.2))
  | .request r => do newRequest ((← get).request r)

/-- Brings the parameters of a read into the form of a request. -/
def prepareRead (r : Nat) : InMemory Unit := do
  spelled r
  encodeParam r "ExpressionAttributeValues" ReadRequest.encodeEntries
  encodeParam r "ExclusiveStartKey" Wire.encodeItem

/-- The request behind the parameters of a read. -/
def buildRead (params : Params) : InMemory Nat := do
  let r ← copyParams params
  prepareRead r
  return r

end ItemStore.Memory
