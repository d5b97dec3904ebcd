import ItemStore.Wire.Basic

/-! Values onto the wire.

`encode` gives a value its type. A float has none: `settle` first replaces floats by the decimals
they are written as, but reaches only through lists, maps and sets, not through tuples and frozen
sets. A number goes on the wire as it is or not at all. -/
namespace ItemStore.Wire

/-! ### Floats -/

mutual

/-- Replaces each float in lists, maps and sets by the decimal it is written as. -/
def settle : Value → Value
  | .float x => .decimal x.toDecimal
  | .list xs => .list (settleAll xs)
  | .map es => .map (settleEntries es)
  | .set false xs => .set false (Value.distinct (settleAll xs))
  | v => v

def settleAll : List Value → List Value
  | [] => []
  | v :: vs => settle v :: settleAll vs

def settleEntries : List (Value × Value) → List (Value × Value)
  | [] => []
  | (k, v) :: es => (k, settle v) :: settleEntries es

end

/-! ### Numbers and sets -/

/-- The text of a number; the plain infinity and the plain NaN are refused. -/
def numberText (d : Decimal) : Except Fault String :=
  match d.accept with
  | .error s => .error (.number s)
  | .ok d =>
    if d = .infinity false ∨ d = Decimal.quietNaN then .error (.caller .nonFinite) else .ok d.text

/-- Whether all values are numbers; a float that is reached first is an error. -/
def allNumbers : List Value → Except Fault Bool
  | [] => .ok true
  | v :: vs =>
    match v with
    | .float _ => .error (.caller .floatValue)
    | v => if v.number?.isSome then allNumbers vs else .ok false

def isText (v : Value) : Bool := v.points?.isSome

def isBytes : Value → Bool
  | .bytes .. => true
  | _ => false

/-- The text of a number that belongs to a set. -/
def memberText (v : Value) : Except Fault Value :=
  match v.number? with
  | some d => (numberText d).map .text
  | none => .error (.caller (.unsupported v))

/-- A set has one type of member; an empty set counts as a set of numbers. -/
def encodeSet (frozen : Bool) (xs : List Value) : Except Fault Value := do
  if ← allNumbers xs then
    return WireType.numberSet.wrap (.list (← xs.mapM memberText))
  else if xs.all isText then
    return WireType.textSet.wrap (.list xs)
  else if xs.all isBytes then
    return WireType.binarySet.wrap (.list (xs.map Value.unwrap))
  else
    throw (.caller (.unsupported (.set frozen xs)))

/-! ### Values -/

mutual

def encode : Value → Except Fault Value
  | .null => .ok (WireType.null.wrap (.bool true))
  | .bool b => .ok (WireType.bool.wrap (.bool b))
  | .int n => do return WireType.number.wrap (.text (← numberText (Decimal.ofInt n)))
  | .decimal d => do return WireType.number.wrap (.text (← numberText d))
  | .float _ => .error (.caller .floatValue)
  | .text s => .ok (WireType.text.wrap (.text s))
  | .torn t => .ok (WireType.text.wrap (.torn t))
  | .bytes form data => .ok (WireType.binary.wrap (Value.unwrap (.bytes form data)))
  | .list xs => do return WireType.list.wrap (.list (← encodeAll xs))
  | .tuple xs => do return WireType.list.wrap (.list (← encodeAll xs))
  | .set frozen xs => encodeSet frozen xs
  | .map es => do return WireType.map.wrap (.map (← encodeEntries es))
  | .date d => .error (.caller (.unsupported (.date d)))
  | .wildcard => .error (.caller (.unsupported .wildcard))

def encodeAll : List Value → Except Fault (List Value)
  | [] => .ok []
  | v :: vs => do return (← encode v) :: (← encodeAll vs)

def encodeEntries : List (Value × Value) → Except Fault (List (Value × Value))
  | [] => .ok []
  | (k, v) :: es => do return (k, ← encode v) :: (← encodeEntries es)

end

/-- The wire form of a value. -/
def encodeValue (v : Value) : Except Fault Value := encode (settle v)

/-- The entries of a map with their values in wire form. -/
def encodeFields : Fields → Except Fault Fields
  | [] => .ok []
  | (k, v) :: fs => do return (k, ← encodeValue v) :: (← encodeFields fs)

/-- The wire form of an item, which has to be a map. -/
def encodeItem : Value → Except Fault Value
  | .map es => (encodeFields es).map .map
  | _ => .error (.caller .itemShape)

end ItemStore.Wire
