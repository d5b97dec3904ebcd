import ItemStore.Value.Basic

/-! Values in values.

A value may hold others: a list or a tuple its items, a set its members, a map the values of its
entries, and each of them may hold others again. `Within` says that a value stands in another one
at any depth, and `induct` is induction on what a value holds. The keys of a map do not count. -/
namespace ItemStore.Value

/-- The values that a value holds itself. -/
def inner : Value → List Value
  | .list xs => xs
  | .tuple xs => xs
  | .set _ xs => xs
  | .map es => es.map (·.2)
  | _ => []

/-- Whether a value is built of others. -/
def isContainer : Value → Bool
  | .list _ => true
  | .tuple _ => true
  | .set .. => true
  | .map _ => true
  | _ => false

theorem inner_eq_nil {v : Value} (h : v.isContainer = false) : v.inner = [] := by
  cases v with
  | list | tuple | set | map => cases h
  | _ => rfl

theorem mem_inner_map {es : Fields} {e : Value × Value} (h : e ∈ es) : e.2 ∈ (map es).inner :=
  List.mem_map_of_mem h

theorem sizeOf_lt_of_mem_inner {v x : Value} (h : x ∈ v.inner) : sizeOf x < sizeOf v := by
  cases v with
  | list xs =>
    have := List.sizeOf_lt_of_mem (show x ∈ xs from h)
    rw [list.sizeOf_spec]
    omega
  | tuple xs =>
    have := List.sizeOf_lt_of_mem (show x ∈ xs from h)
    rw [tuple.sizeOf_spec]
    omega
  | set frozen xs =>
    have := List.sizeOf_lt_of_mem (show x ∈ xs from h)
    rw [set.sizeOf_spec]
    omega
  | map es =>
    obtain ⟨e, he, rfl⟩ := List.mem_map.mp (show x ∈ es.map (·.2) from h)
    have := List.sizeOf_lt_of_mem he
    have : sizeOf e.2 < sizeOf e := by
      obtain ⟨k, v⟩ := e
      simp only [Prod.mk.sizeOf_spec]
      omega
    rw [map.sizeOf_spec]
    omega
  | _ => cases h

/-- Induction on what a value holds. -/
theorem induct {P : Value → Prop} (step : ∀ v, (∀ x ∈ v.inner, P x) → P v) (v : Value) : P v :=
  step v fun x hx =>
    have := sizeOf_lt_of_mem_inner hx
    induct step x
termination_by sizeOf v

/-- The value `u` is `v` itself or stands in it at some depth. -/
inductive Within (u : Value) : Value → Prop
  | refl : Within u u
  | inner {v x : Value} (hx : x ∈ v.inner) (h : Within u x) : Within u v

theorem within_iff {u v : Value} : u.Within v ↔ u = v ∨ ∃ x ∈ v.inner, u.Within x := by
  constructor
  · intro h
    cases h with
    | refl => exact .inl rfl
    | inner hx h => exact .inr ⟨_, hx, h⟩
  · rintro (rfl | ⟨x, hx, h⟩)
    · exact .refl
    · exact .inner hx h

theorem within_iff_eq {u v : Value} (h : v.isContainer = false) : u.Within v ↔ u = v := by
  rw [within_iff, inner_eq_nil h]
  simp

theorem Within.trans {u v w : Value} (h : u.Within v) (h' : v.Within w) : u.Within w := by
  induction h' with
  | refl => exact h
  | inner hx _ ih => exact .inner hx ih

end ItemStore.Value
