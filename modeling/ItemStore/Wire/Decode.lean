import ItemStore.Value.Writing
import ItemStore.Wire.Basic
import ItemStore.Wire.Parts

/-! Values off the wire.

`decode` goes by the tag of the first entry. Binary data comes in a wrapper, which only
`decodeValue` takes off, and only from the value as a whole: inside a list, a map or a set the
wrapper stays. -/
namespace ItemStore.Wire

/-- The number in a wire value; a text that is no numeral is a NaN. -/
def decodeNumber : Value → Except Fault Value
  | .text s => lift (Decimal.acceptText s)
  | .torn _ => .ok (.decimal Decimal.quietNaN)
  | .list parts => do lift (← ofParts parts).accept
  | .tuple parts => do lift (← ofParts parts).accept
  | v =>
    match v.number? with
    | some d => lift d.accept
    | none => .error .wrongType
where
  lift : Except Decimal.Signal Decimal → Except Fault Value
    | .ok d => .ok (.decimal d)
    | .error s => .error (.number s)

/-- Plain binary data in its wrapper. -/
def decodeBinary : Value → Except Fault Value
  | .bytes form data =>
    if form.wrapped then .error .notBinary else .ok (.bytes { form with wrapped := true } data)
  | _ => .error .notBinary

/-- The members of a set, each read by `member`. -/
def decodeSet (member : Value → Except Fault Value) (v : Value) : Except Fault Value := do
  let members ← (← v.elements).mapM fun x => do
    let x ← member x
    if x.isHashable then return x else throw .wrongType
  return .set false (Value.distinct members)

/-- What is wrong with a wire value that is no map. -/
def shapeFault (v : Value) : Fault := if v.isTruthy then .noEntries else .untyped

/-- What is wrong with a key that is no tag. -/
def tagFault (k : Value) : Fault :=
  match k.shown with
  | .ok name => .unknownType name
  | .error f => f

def tagType? : Value → Option WireType
  | .text tag => WireType.ofTag? tag
  | _ => none

mutual

def decode : Value → Except Fault Value
  | .map ((k, v) :: _) =>
    match tagType? k with
    | none => .error (tagFault k)
    | some .null => .ok .null
    | some .bool => .ok v
    | some .text => .ok v
    | some .number => decodeNumber v
    | some .binary => decodeBinary v
    | some .numberSet => decodeSet decodeNumber v
    | some .textSet => decodeSet .ok v
    | some .binarySet => decodeSet decodeBinary v
    | some .list => decodeList v
    | some .map => decodeMap v
  | v => .error (shapeFault v)

/-- The parts of a value that stands for a list. Characters and bytes are no wire values. -/
def decodeList : Value → Except Fault Value
  | .list xs => do return .list (← decodeAll xs)
  | .tuple xs => do return .list (← decodeAll xs)
  | .set _ xs => do return .list (← decodeAll xs)
  | .map es => do return .list (← decodeKeys es)
  | v => do
    match ← v.elements with
    | [] => return .list []
    | part :: _ => throw (shapeFault part)

def decodeMap : Value → Except Fault Value
  | .map es => do return .map (← decodeEntries es)
  | _ => .error .noEntries

def decodeAll : List Value → Except Fault (List Value)
  | [] => .ok []
  | v :: vs => do return (← decode v) :: (← decodeAll vs)

def decodeKeys : List (Value × Value) → Except Fault (List Value)
  | [] => .ok []
  | (k, _) :: es => do return (← decode k) :: (← decodeKeys es)

def decodeEntries : List (Value × Value) → Except Fault (List (Value × Value))
  | [] => .ok []
  | (k, v) :: es => do return (k, ← decode v) :: (← decodeEntries es)

end

/-- The value of a wire form, without the wrapper of binary data. -/
def decodeValue (v : Value) : Except Fault Value := do return (← decode v).unwrap

/-- The entries of a map with their values off the wire. -/
def decodeFields : Fields → Except Fault Fields
  | [] => .ok []
  | (k, v) :: fs => do return (k, ← decodeValue v) :: (← decodeFields fs)

/-- The fields of an item. -/
def decodeItem (v : Value) : Except Fault Fields := do decodeFields (← v.fields)

end ItemStore.Wire
