import ItemStore.Value.Comparison

/-! Values taken for what they should be.

A value is taken for a map, for a sequence or for a table of entries. Each reading says with which
fault it fails. -/
namespace ItemStore.Value

/-- The entries of a map. -/
def fields : Value → Except Fault Fields
  | .map es => .ok es
  | _ => .error .noEntries

/-- The parts of a value, one after the other: the items of a list, the members of a set, the keys
of a map, the characters of a text, the bytes of plain binary data. -/
def elements : Value → Except Fault (List Value)
  | .list xs => .ok xs
  | .tuple xs => .ok xs
  | .set _ xs => .ok xs
  | .map es => .ok (es.map (·.1))
  | .text s => .ok (s.toList.map fun c => .text (String.singleton c))
  | .torn t => .ok (t.points.map fun p => ofPoints [p])
  | .bytes form data =>
    if form.wrapped then .error .wrongType else .ok (data.map fun b => .int b.toNat)
  | _ => .error .wrongType

/-- Writes an entry given as a pair of parts. -/
def putPair (fs : Fields) (pair : Value) : Except Fault Fields := do
  match ← pair.elements with
  | [k, v] => if k.isHashable then return fs.putKey k v else throw .wrongType
  | _ => throw .malformed

/-- The map a value stands for: a map itself, or a sequence of pairs. -/
def toFields : Value → Except Fault Fields
  | .map es => .ok es
  | v => do (← v.elements).foldlM putPair []

/-- As `toFields`, where a falsy value stands for the empty map. -/
def toFieldsOrEmpty (v : Value) : Except Fault Fields :=
  if v.isTruthy then v.toFields else .ok []

/-- Whether `part` stands in a sequence without gaps. -/
def isRunOf {α : Type} [BEq α] (part : List α) : List α → Bool
  | [] => part.isEmpty
  | x :: xs => part.isPrefixOf (x :: xs) || isRunOf part xs

theorem isRunOf_iff {α : Type} [BEq α] [LawfulBEq α] {part whole : List α} :
    isRunOf part whole = true ↔ part <:+: whole := by
  induction whole with
  | nil => simp [isRunOf]
  | cons x xs ih => simp [isRunOf, ih, List.infix_cons_iff, List.isPrefixOf_iff_prefix]

/-- Whether bytes hold a byte, given as an integer, or a run of bytes. -/
def bytesMention (data : List UInt8) : Value → Except Fault Bool
  | .bool b => .ok (data.contains (if b then 1 else 0))
  | .int n =>
    if 0 ≤ n && n < 256 then .ok (data.contains (UInt8.ofNat n.toNat)) else .error .malformed
  | .bytes form run => if form.wrapped then .error .wrongType else .ok (isRunOf run data)
  | _ => .error .wrongType

/-- Whether a value is a key of a map, an item of a sequence, a member of a set, a run of
characters of a text, or part of plain binary data. -/
def mentions (v part : Value) : Except Fault Bool :=
  match v, part with
  | .map es, k => .ok (Fields.hasKey es k)
  | .list xs, x => x.hasLike xs
  | .tuple xs, x => x.hasLike xs
  | .set _ xs, x => .ok (xs.any fun y => y.same x)
  | .bytes form data, x => if form.wrapped then .error .wrongType else bytesMention data x
  | v, x =>
    match v.points?, x.points? with
    | some whole, some part => .ok (isRunOf part whole)
    | _, _ => .error .wrongType

/-- The value under a name that has to be there. -/
def entry (v : Value) (name : String) : Except Fault Value :=
  match v with
  | .map es =>
    match Fields.get? es name with
    | some x => .ok x
    | none => .error (.missingEntry name)
  | _ => .error .wrongType

end ItemStore.Value
