import ItemStore.Fault
import ItemStore.Value.Fields

/-! Comparisons that fail.

`same` tells of any two values whether they are the same, but a comparison may fail before it comes
to that: a NaN that signals cannot be compared with a number at all. Parts are compared in order up
to the first that differ, and two lists or maps of different size are told apart without looking at
their parts; so a comparison fails only if it gets as far as the NaN. What stands in a collection is
found again without a comparison if it is one and the same; two numbers on their own are compared
in any case (`equals`), so there no NaN equals itself. -/
namespace ItemStore

namespace Value

def isSignalling : Value → Bool
  | .decimal d => d.isSignalling
  | _ => false

/-- Whether two values without parts cannot be compared. -/
def scalarsClash (a b : Value) : Bool :=
  a.number?.isSome && b.number?.isSome && (isSignalling a || isSignalling b)

mutual

/-- Whether looking for one value in the place of another fails. -/
def clash : Value → Value → Bool
  | .list xs, .list ys => xs.length == ys.length && itemsClash xs ys
  | .tuple xs, .tuple ys => itemsClash xs ys
  | .map es, .map fs => es.length == fs.length && entriesClash es fs
  | a, b => !isShared a b && scalarsClash a b

def itemsClash : List Value → List Value → Bool
  | x :: xs, y :: ys => clash x y || (same x y && itemsClash xs ys)
  | _, _ => false

def entriesClash : List (Value × Value) → Fields → Bool
  | [], _ => false
  | (k, v) :: es, fs =>
    match fs.getKey? k with
    | none => false
    | some w => clash v w || (same v w && entriesClash es fs)

end

/-- Whether one value has its like in another, if they can be compared. -/
def isLike (a b : Value) : Except Fault Bool :=
  if clash a b then .error .incomparable else .ok (same a b)

/-- Whether two values are equal, if they can be compared. -/
def equals (a b : Value) : Except Fault Bool :=
  match a.number?, b.number? with
  | some x, some y => if scalarsClash a b then .error .incomparable else .ok (x.sameNumber y)
  | _, _ => isLike a b

/-- Whether a value has its like among some others, looked at one after the other. -/
def hasLike (v : Value) : List Value → Except Fault Bool
  | [] => .ok false
  | u :: us => do if ← u.isLike v then return true else hasLike v us

/-- Whether a number is below zero. No NaN of the decimals has an answer. -/
def isNegative : Value → Except Fault Bool
  | .decimal (.nan ..) => .error .incomparable
  | v =>
    match v.number? with
    | some d => .ok (d.precedes (Decimal.ofInt 0))
    | none => .error .wrongType

end Value

end ItemStore
