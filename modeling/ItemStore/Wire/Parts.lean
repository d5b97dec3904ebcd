import ItemStore.Value.Shape

/-! Numbers in parts.

A number on the wire may also be given in three parts: its sign as 0 or 1, its digits, and its
exponent. In the place of the exponent a letter makes it an infinity or a NaN, whose payload are
the digits. Integers have to fit into 64 bits before anything else is asked of them. -/
namespace ItemStore.Wire

/-- An integer that a part is; truth values count as 0 and 1. -/
def wholePart (v : Value) : Except Fault Int := do
  let n ←
    match v with
    | .int n => pure n
    | .bool b => pure (if b then 1 else 0)
    | _ => throw .malformed
  let bound : Int := Nat.pow 2 63
  if -bound ≤ n && n < bound then return n else throw .outOfRange

def signPart (v : Value) : Except Fault Bool := do
  match ← wholePart v with
  | 0 => return false
  | 1 => return true
  | _ => throw .malformed

def digitPart (v : Value) : Except Fault Nat := do
  let n ← wholePart v
  if 0 ≤ n && n ≤ 9 then return n.toNat else throw .malformed

def digitParts : Value → Except Fault (List Nat)
  | .list xs => xs.mapM digitPart
  | .tuple xs => xs.mapM digitPart
  | _ => .error .malformed

/-- What the last part makes of a sign and a coefficient. -/
def lastPart : Value → Except Fault (Bool → Nat → Decimal)
  | .text "F" => .ok fun negative _ => .infinity negative
  | .text "n" => .ok fun negative payload => .nan negative false payload none
  | .text "N" => .ok fun negative payload => .nan negative true payload none
  | v => do
    let e ← wholePart v
    return fun negative c => .finite negative c e

/-- The number in three parts. The digits are looked at last. -/
def ofParts : List Value → Except Fault Decimal
  | [sign, digits, last] => do
    let negative ← signPart sign
    let make ← lastPart last
    return make negative (Text.numeralValue (← digitParts digits))
  | _ => .error .malformed

end ItemStore.Wire
