import ItemStore.Projection
import ItemStore.Wire.Encode

/-! Requests that read.

A caller writes the parameters of a read as values. In the request the projection is spelled out,
and the values of expressions and the key to start from are in wire form. -/
namespace ItemStore.ReadRequest

/-- Puts a parameter into wire form if it is truthy. -/
def encodeParam (name : String) (encode : Value → Except Fault Value) (req : Fields) :
    Except Fault Fields :=
  match (req.getD name).truthy? with
  | none => .ok req
  | some v => do return req.put name (← encode v)

/-- The entries of a map with their values in wire form. -/
def encodeEntries (v : Value) : Except Fault Value := do
  return .map (← Wire.encodeFields (← v.fields))

def encodeValues : Fields → Except Fault Fields :=
  encodeParam "ExpressionAttributeValues" encodeEntries

/-- The request behind the parameters of a read. -/
def build (params : Value) : Except Fault Fields := do
  let req ← params.toFieldsOrEmpty
  let req ← if req.has "ProjectionExpression" then Projection.spellOut.result req else pure req
  let req ← encodeValues req
  encodeParam "ExclusiveStartKey" Wire.encodeItem req

end ItemStore.ReadRequest
