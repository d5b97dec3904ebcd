import ItemStore.Value.Basic

/-! Identity of values.

Values are trees, so it can be decided whether two are one and the same tree. This is finer than
`Value.same`: there the numbers `1` and `1.0` agree, here they differ. -/
namespace ItemStore.Value

mutual

/-- Whether two values are one and the same tree. -/
def isIdentical : Value → Value → Bool
  | .null, .null => true
  | .bool a, .bool b => decide (a = b)
  | .int a, .int b => decide (a = b)
  | .decimal a, .decimal b => decide (a = b)
  | .float a, .float b => decide (a = b)
  | .text a, .text b => decide (a = b)
  | .torn a, .torn b => decide (a = b)
  | .bytes f a, .bytes g b => decide (f = g) && decide (a = b)
  | .list xs, .list ys => areIdentical xs ys
  | .tuple xs, .tuple ys => areIdentical xs ys
  | .set f xs, .set g ys => decide (f = g) && areIdentical xs ys
  | .map es, .map fs => areIdenticalEntries es fs
  | .date a, .date b => decide (a = b)
  | .wildcard, .wildcard => true
  | _, _ => false

def areIdentical : List Value → List Value → Bool
  | [], [] => true
  | x :: xs, y :: ys => isIdentical x y && areIdentical xs ys
  | _, _ => false

def areIdenticalEntries : List (Value × Value) → List (Value × Value) → Bool
  | [], [] => true
  | (k, v) :: es, (l, w) :: fs => isIdentical k l && isIdentical v w && areIdenticalEntries es fs
  | _, _ => false

end

mutual

theorem isIdentical_iff : ∀ a b : Value, isIdentical a b = true ↔ a = b
  | .list xs, b => by cases b <;> simp [isIdentical, areIdentical_iff xs]
  | .tuple xs, b => by cases b <;> simp [isIdentical, areIdentical_iff xs]
  | .set _ xs, b => by cases b <;> simp [isIdentical, areIdentical_iff xs]
  | .map es, b => by cases b <;> simp [isIdentical, areIdenticalEntries_iff es]
  | .null, b => by cases b <;> simp [isIdentical]
  | .bool _, b => by cases b <;> simp [isIdentical]
  | .int _, b => by cases b <;> simp [isIdentical]
  | .decimal _, b => by cases b <;> simp [isIdentical]
  | .float _, b => by cases b <;> simp [isIdentical]
  | .text _, b => by cases b <;> simp [isIdentical]
  | .torn _, b => by cases b <;> simp [isIdentical]
  | .bytes .., b => by cases b <;> simp [isIdentical]
  | .date _, b => by cases b <;> simp [isIdentical]
  | .wildcard, b => by cases b <;> simp [isIdentical]

theorem areIdentical_iff : ∀ xs ys : List Value, areIdentical xs ys = true ↔ xs = ys
  | [], ys => by cases ys <;> simp [areIdentical]
  | x :: xs, ys => by
    cases ys <;> simp [areIdentical, isIdentical_iff x, areIdentical_iff xs]

theorem areIdenticalEntries_iff :
    ∀ es fs : List (Value × Value), areIdenticalEntries es fs = true ↔ es = fs
  | [], fs => by cases fs <;> simp [areIdenticalEntries]
  | (k, v) :: es, fs => by
    cases fs <;> simp [areIdenticalEntries, Prod.ext_iff, isIdentical_iff k, isIdentical_iff v,
      areIdenticalEntries_iff es]

end

instance : DecidableEq Value := fun a b => decidable_of_iff _ (isIdentical_iff a b)

end ItemStore.Value
