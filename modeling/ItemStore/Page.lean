import ItemStore.Value.Integer
import ItemStore.Wire.Decode

/-! Pages of a read.

The service answers a query or a scan with a page: its items, how many it counted and looked at,
and the key to go on from if there is more. -/
namespace ItemStore

structure Page where
  items : List Fields
  last : Option Fields
  count : Int
  scanned : Int
  capacity : Value
deriving DecidableEq, Repr, Inhabited

namespace Page

/-- A count that a response may leave out. -/
def countOf (response : Fields) (name : String) (default : Nat) : Except Fault Int :=
  match response.get? name with
  | none => .ok default
  | some v => v.toInteger

/-- The items in a response, in order. -/
def itemsOf (response : Fields) : Except Fault (List Fields) :=
  match response.get? "Items" with
  | none => .ok []
  | some v => do (← v.elements).mapM Wire.decodeItem

/-- The key a response says to go on from. -/
def lastOf (response : Fields) : Except Fault (Option Fields) :=
  match (response.getD "LastEvaluatedKey").truthy? with
  | none => .ok none
  | some key => (Wire.decodeItem key).map some

def ofResponse (response : Fields) : Except Fault Page := do
  let items ← itemsOf response
  let last ← lastOf response
  return {
    items := items
    last := last
    count := ← countOf response "Count" items.length
    scanned := ← countOf response "ScannedCount" items.length
    capacity := response.getD "ConsumedCapacity"
  }

end Page

end ItemStore
