import ItemStore.Proofs.Value.Within
import ItemStore.Proofs.Wire.Canonical

/-! The numerals on the wire.

Every number that goes on the wire is the text of a number of the value, and apart from those that
a set already has, every number of the value goes there. Which ones get through is decided by their
text: a finite number has to fit, and of the others only the plain infinity and the plain NaN are
refused. An infinity below zero, and a NaN with a sign, a signal or a payload, are written in
another way, and get through (`Decimal.IsMarked`).

Replacing the floats keeps the numbers of a value. A set may lose some of them, when two of its
members are the same number in the end, but none that is not finite: a NaN is the same as no other
number, and an infinity is written in one way. -/
namespace ItemStore

open Outcome

/-- A number that is not finite, and not written as the plain infinity or the plain NaN. -/
def Decimal.IsMarked : Decimal → Prop
  | .finite .. => False
  | .infinity negative => negative = true
  | .nan negative signalling payload _ =>
    digitCount payload ≤ 38 ∧ (negative = true ∨ signalling = true ∨ payload ≠ 0)

namespace Value

/-- The number stands in the value at some depth, or counts as a number in a set of it. -/
inductive Holds (d : Decimal) : Value → Prop
  | number {v : Value} (h : v.asDecimal? = some d) : Holds d v
  | member {frozen : Bool} {xs : List Value} {x : Value} (hx : x ∈ xs)
    (h : x.memberDecimal? = some d) : Holds d (.set frozen xs)
  | inner {v x : Value} (hx : x ∈ v.inner) (h : Holds d x) : Holds d v

variable {u v : Value} {d : Decimal}

theorem holds_iff_of_not_isContainer (hv : v.isContainer = false) :
    v.Holds d ↔ v.asDecimal? = some d := by
  constructor
  · intro h
    cases h with
    | number h => exact h
    | member => cases hv
    | inner hx =>
      rw [inner_eq_nil hv] at hx
      cases hx
  · exact .number

/-- A value whose numbers are those of the values in it. -/
theorem holds_iff_exists (hv : v.asDecimal? = none) (hset : ∀ frozen xs, v ≠ .set frozen xs) :
    v.Holds d ↔ ∃ x ∈ v.inner, x.Holds d := by
  constructor
  · intro h
    cases h with
    | number h =>
      rw [hv] at h
      cases h
    | member => exact absurd rfl (hset _ _)
    | inner hx h => exact ⟨_, hx, h⟩
  · rintro ⟨x, hx, h⟩
    exact .inner hx h

theorem holds_list_iff {xs : List Value} : (list xs).Holds d ↔ ∃ x ∈ xs, x.Holds d :=
  holds_iff_exists rfl nofun

theorem holds_tuple_iff {xs : List Value} : (tuple xs).Holds d ↔ ∃ x ∈ xs, x.Holds d :=
  holds_iff_exists rfl nofun

theorem holds_map_iff {es : Fields} : (map es).Holds d ↔ ∃ e ∈ es, e.2.Holds d := by
  have hset : ∀ frozen xs, map es ≠ .set frozen xs := by
    rintro frozen xs ⟨⟩
  rw [holds_iff_exists rfl hset]
  simp only [inner, List.mem_map, exists_exists_and_eq_and]

theorem memberDecimal?_of_asDecimal? (h : v.asDecimal? = some d) : v.memberDecimal? = some d := by
  cases v with
  | bool b => cases h
  | _ => exact h

/-- A set whose members are not built of others. -/
theorem holds_set_iff {frozen : Bool} {xs : List Value} (hxs : ∀ x ∈ xs, x.isContainer = false) :
    (set frozen xs).Holds d ↔ ∃ x ∈ xs, x.memberDecimal? = some d := by
  constructor
  · intro h
    cases h with
    | number h => cases h
    | member hx h => exact ⟨_, hx, h⟩
    | inner hx h =>
      have hnumber := (holds_iff_of_not_isContainer (hxs _ hx)).mp h
      exact ⟨_, hx, memberDecimal?_of_asDecimal? hnumber⟩
  · rintro ⟨x, hx, h⟩
    exact .member hx h

/-- A number that is not finite makes a value truthy. -/
theorem Holds.isTruthy (h : v.Holds d) (hd : d.isFinite = false) : v.isTruthy = true := by
  have hne {xs : List Value} {x : Value} (hx : x ∈ xs) : (!xs.isEmpty) = true := by
    simpa using List.ne_nil_of_mem hx
  cases h with
  | number h =>
    cases v with
    | int n =>
      cases h
      cases hd
    | decimal e =>
      cases h
      cases d with
      | finite => cases hd
      | _ => rfl
    | float x =>
      cases x with
      | finite negative m e =>
        rw [asDecimal?, Double.read?_text, Option.some.injEq] at h
        rw [← h, Wire.toDecimal_isFinite] at hd
        cases hd
      | _ => rfl
    | _ => cases h
  | member hx h => exact hne hx
  | inner hx h =>
    cases v with
    | list | tuple | set => exact hne hx
    | map es =>
      obtain ⟨e, he, -⟩ := List.mem_map.mp hx
      simpa [isTruthy] using List.ne_nil_of_mem he
    | _ => cases hx

end Value

namespace Wire

open Value

/-! ### Numbers that get through -/

/-- The text of a number is refused for what it says; a NaN with too long a payload is taken for
the plain one. -/
theorem numberText_ok_iff {d : Decimal} {s : String} :
    numberText d = .ok s ↔ (d.Fits ∨ d.IsMarked) ∧ s = d.text := by
  cases d with
  | finite negative c e => simpa [Decimal.IsMarked] using numberText_ok rfl
  | infinity negative =>
    cases negative <;> simp [numberText, Decimal.accept, Decimal.quietNaN, Decimal.Fits,
      Decimal.IsMarked, eq_comm]
  | nan negative signalling payload object =>
    rw [numberText, Decimal.accept, Decimal.precision]
    dsimp only
    by_cases hlong : 38 < Decimal.digitCount payload
    · simp [if_pos hlong, Decimal.Fits, Decimal.IsMarked, Nat.not_le.mpr hlong]
    · have htext : (Decimal.nan negative signalling payload none).text =
          (Decimal.nan negative signalling payload object).text := rfl
      rw [if_neg hlong, htext]
      cases negative <;> cases signalling <;> simp [Decimal.quietNaN, Decimal.Fits,
        Decimal.IsMarked, Nat.le_of_not_lt hlong, ite_eq_iff, @eq_comm _ s]

/-! ### Numerals -/

/-- The numeral stands on the wire, at some depth. -/
inductive Numeral (x : Value) : Value → Prop
  | number : Numeral x (WireType.number.wrap x)
  | member {xs : List Value} (hx : x ∈ xs) : Numeral x (WireType.numberSet.wrap (.list xs))
  | item {ws : List Value} {w : Value} (hw : w ∈ ws) (h : Numeral x w) :
    Numeral x (WireType.list.wrap (.list ws))
  | entry {es : Fields} {e : Value × Value} (he : e ∈ es) (h : Numeral x e.2) :
    Numeral x (WireType.map.wrap (.map es))

/-- What a numeral stands in, by its type. -/
def numeralsUnder (x : Value) : WireType → Value → Prop
  | .number, v => x = v
  | .numberSet, v => ∃ xs, v = .list xs ∧ x ∈ xs
  | .list, v => ∃ ws, v = .list ws ∧ ∃ w ∈ ws, Numeral x w
  | .map, v => ∃ es, v = .map es ∧ ∃ e ∈ es, Numeral x e.2
  | _, _ => False

theorem numeral_wrap_iff {x v : Value} {t : WireType} :
    Numeral x (t.wrap v) ↔ numeralsUnder x t v := by
  constructor
  · intro h
    generalize hw : t.wrap v = w at h
    cases h with
    | number =>
      obtain ⟨rfl, rfl⟩ := WireType.wrap_inj.mp hw
      rfl
    | member hx =>
      obtain ⟨rfl, rfl⟩ := WireType.wrap_inj.mp hw
      exact ⟨_, rfl, hx⟩
    | item hw' h =>
      obtain ⟨rfl, rfl⟩ := WireType.wrap_inj.mp hw
      exact ⟨_, rfl, _, hw', h⟩
    | entry he h =>
      obtain ⟨rfl, rfl⟩ := WireType.wrap_inj.mp hw
      exact ⟨_, rfl, _, he, h⟩
  · intro h
    cases t with
    | number =>
      obtain rfl := h
      exact .number
    | numberSet =>
      obtain ⟨xs, rfl, hx⟩ := h
      exact .member hx
    | list =>
      obtain ⟨ws, rfl, w, hw, h⟩ := h
      exact .item hw h
    | map =>
      obtain ⟨es, rfl, e, he, h⟩ := h
      exact .entry he h
    | _ => cases h

/-! ### Values -/

/-- The numerals on the wire are the texts of the numbers in the value, and each gets through. -/
structure Carried (u w : Value) : Prop where
  numeral_iff : ∀ x, Numeral x w ↔ ∃ d, u.Holds d ∧ x = .text d.text
  passes : ∀ d, u.Holds d → d.Fits ∨ d.IsMarked

/-- Neither numbers nor numerals. -/
theorem carried_of_none {u v : Value} {t : WireType} (hu : ∀ d, ¬ u.Holds d)
    (ht : ∀ x, ¬ numeralsUnder x t v) : Carried u (t.wrap v) := by
  refine ⟨fun x => ?_, fun d hd => absurd hd (hu d)⟩
  rw [numeral_wrap_iff]
  refine iff_of_false (ht x) ?_
  rintro ⟨d, hd, -⟩
  exact hu d hd

/-- A value that is not built of others, and is no number. -/
theorem carried_scalar {u v : Value} {t : WireType} (hu : u.isContainer = false)
    (hnumber : u.asDecimal? = none) (ht : ∀ x, ¬ numeralsUnder x t v) : Carried u (t.wrap v) := by
  refine carried_of_none (fun d => ?_) ht
  rw [holds_iff_of_not_isContainer hu, hnumber]
  exact Option.some_ne_none d ∘ Eq.symm

theorem carried_number {u w : Value} {d : Decimal} (hu : u.isContainer = false)
    (hnumber : u.asDecimal? = some d)
    (h : (do return WireType.number.wrap (.text (← numberText d))) = Except.ok (ε := Fault) w) :
    Carried u w := by
  obtain ⟨s, hs, h⟩ := bind_ok.mp h
  obtain ⟨hpasses, rfl⟩ := numberText_ok_iff.mp hs
  cases h
  have hholds (e : Decimal) : u.Holds e ↔ e = d := by
    rw [holds_iff_of_not_isContainer hu, hnumber, Option.some.injEq, eq_comm]
  refine ⟨fun x => ?_, fun e he => ?_⟩
  · rw [numeral_wrap_iff]
    simp only [hholds, exists_eq_left]
    rfl
  · rw [(hholds e).mp he]
    exact hpasses

/-- A value whose numbers are those of some others, on the wire beside each other. -/
theorem carried_of_forall₂ {α β : Type} {value : α → Value} {wire : β → Value} {us : List α}
    {ws : List β} {u w : Value} (hu : ∀ d, u.Holds d ↔ ∃ a ∈ us, (value a).Holds d)
    (hw : ∀ x, Numeral x w ↔ ∃ b ∈ ws, Numeral x (wire b))
    (h : List.Forall₂ (fun a b => Carried (value a) (wire b)) us ws) : Carried u w := by
  refine ⟨fun x => ?_, fun d hd => ?_⟩
  · rw [hw]
    constructor
    · rintro ⟨b, hb, hx⟩
      obtain ⟨a, ha, hab⟩ := exists_of_mem_right h b hb
      obtain ⟨d, hd, hxd⟩ := (hab.numeral_iff x).mp hx
      exact ⟨d, (hu d).mpr ⟨a, ha, hd⟩, hxd⟩
    · rintro ⟨d, hd, hxd⟩
      obtain ⟨a, ha, hd⟩ := (hu d).mp hd
      obtain ⟨b, hb, hab⟩ := exists_of_mem_left h a ha
      exact ⟨b, hb, (hab.numeral_iff x).mpr ⟨d, hd, hxd⟩⟩
  · obtain ⟨a, ha, hd⟩ := (hu d).mp hd
    obtain ⟨b, -, hab⟩ := exists_of_mem_left h a ha
    exact hab.passes d hd

theorem carried_items {u : Value} {us ws : List Value}
    (hu : ∀ d, u.Holds d ↔ ∃ x ∈ us, x.Holds d) (h : List.Forall₂ Carried us ws) :
    Carried u (WireType.list.wrap (.list ws)) := by
  refine carried_of_forall₂ hu (fun x => ?_) h
  rw [numeral_wrap_iff]
  constructor
  · rintro ⟨_, ⟨⟩, hx⟩
    exact hx
  · exact fun hx => ⟨ws, rfl, hx⟩

theorem carried_entries {es ws : Fields}
    (h : List.Forall₂ (fun e w => Carried e.2 w.2) es ws) :
    Carried (.map es) (WireType.map.wrap (.map ws)) := by
  refine carried_of_forall₂ (fun d => holds_map_iff) (fun x => ?_) h
  rw [numeral_wrap_iff]
  constructor
  · rintro ⟨_, ⟨⟩, hx⟩
    exact hx
  · exact fun hx => ⟨ws, rfl, hx⟩

/-! ### Sets -/

theorem number?_eq_memberDecimal? {u : Value} (hu : ∀ x, u ≠ .float x) :
    u.number? = u.memberDecimal? := by
  cases u with
  | float x => exact absurd rfl (hu x)
  | _ => rfl

/-- What can be a member of a set on the wire is not built of other values. -/
theorem not_isContainer_of_setWire {us : List Value} {w : Value} (h : SetWire us w) :
    ∀ u ∈ us, u.isContainer = false := by
  intro u hu
  cases h with
  | numbers hfloat h =>
    obtain ⟨t, -, ht⟩ := exists_of_mem_left h u hu
    obtain ⟨d, s, hd, -⟩ := memberText_ok.mp ht
    cases u with
    | list | tuple | set | map => cases hd
    | _ => rfl
  | texts hne h => rcases isText_iff.mp (h u hu) with ⟨s, rfl⟩ | ⟨t, rfl⟩ <;> rfl
  | binaries hne h =>
    obtain ⟨form, data, rfl⟩ := isBytes_iff.mp (h u hu)
    rfl

theorem carried_set {frozen : Bool} {us : List Value} {w : Value} (h : SetWire us w) :
    Carried (.set frozen us) w := by
  have hholds (d : Decimal) :
      (Value.set frozen us).Holds d ↔ ∃ u ∈ us, u.memberDecimal? = some d :=
    holds_set_iff (not_isContainer_of_setWire h)
  cases h with
  | @numbers ts hfloat h =>
    -- Member by member the number is there and has this text.
    have hmember : ∀ u ∈ us, ∀ t, memberText u = .ok t →
        ∃ d, u.memberDecimal? = some d ∧ (d.Fits ∨ d.IsMarked) ∧ t = .text d.text := by
      intro u hu t ht
      obtain ⟨d, s, hd, hs, rfl⟩ := memberText_ok.mp ht
      obtain ⟨hpasses, rfl⟩ := numberText_ok_iff.mp hs
      exact ⟨d, number?_eq_memberDecimal? (hfloat u hu) ▸ hd, hpasses, rfl⟩
    refine ⟨fun x => ?_, fun d hd => ?_⟩
    · rw [numeral_wrap_iff]
      constructor
      · rintro ⟨_, ⟨⟩, hx⟩
        obtain ⟨u, hu, ht⟩ := exists_of_mem_right h x hx
        obtain ⟨d, hd, -, hxd⟩ := hmember u hu x ht
        exact ⟨d, (hholds d).mpr ⟨u, hu, hd⟩, hxd⟩
      · rintro ⟨d, hd, rfl⟩
        obtain ⟨u, hu, hd⟩ := (hholds d).mp hd
        obtain ⟨t, hmem, ht⟩ := exists_of_mem_left h u hu
        obtain ⟨e, he, -, rfl⟩ := hmember u hu t ht
        rw [hd] at he
        cases he
        exact ⟨ts, rfl, hmem⟩
    · obtain ⟨u, hu, hd⟩ := (hholds d).mp hd
      obtain ⟨t, -, ht⟩ := exists_of_mem_left h u hu
      obtain ⟨e, he, hpasses, -⟩ := hmember u hu t ht
      rw [hd] at he
      cases he
      exact hpasses
  | texts hne h =>
    refine carried_of_none (fun d hd => ?_) fun x => id
    obtain ⟨u, hu, hd⟩ := (hholds d).mp hd
    rcases isText_iff.mp (h u hu) with ⟨s, rfl⟩ | ⟨t, rfl⟩ <;> cases hd
  | binaries hne h =>
    refine carried_of_none (fun d hd => ?_) fun x => id
    obtain ⟨u, hu, hd⟩ := (hholds d).mp hd
    obtain ⟨form, data, rfl⟩ := isBytes_iff.mp (h u hu)
    cases hd

/-- What goes on the wire for a value without floats. -/
theorem carried_of_encode {u w : Value} (h : encode u = .ok w) : Carried u w := by
  induction u using Value.induct generalizing w with
  | step u ih => cases u with
  | null | bool b | text s | torn t | bytes form data =>
    cases h
    exact carried_scalar rfl rfl fun x => id
  | int n => exact carried_number rfl rfl h
  | decimal d => exact carried_number rfl rfl h
  | list xs =>
    obtain ⟨ws, hws, rfl⟩ := encode_list_ok.mp h
    exact carried_items (fun d => holds_list_iff) (forall₂_of_mem (fun x hx w => ih x hx) hws)
  | tuple xs =>
    obtain ⟨ws, hws, rfl⟩ := encode_tuple_ok.mp h
    exact carried_items (fun d => holds_tuple_iff) (forall₂_of_mem (fun x hx w => ih x hx) hws)
  | set frozen xs =>
    rw [encode] at h
    exact carried_set (encodeSet_ok.mp h)
  | map es =>
    obtain ⟨ws, hws, rfl⟩ := encode_map_ok.mp h
    refine carried_entries (forall₂_of_mem (fun e he w hew => ?_) hws)
    exact ih e.2 (mem_inner_map he) hew.2
  | _ => cases h

/-! ### Floats -/

theorem asDecimal?_settle (v : Value) : (settle v).asDecimal? = v.asDecimal? := by
  cases v with
  | float x => exact (Double.read?_text x).symm
  | set frozen xs => cases frozen <;> rfl
  | _ => rfl

theorem memberDecimal?_settle (v : Value) : (settle v).memberDecimal? = v.memberDecimal? := by
  cases v with
  | float x => exact (Double.read?_text x).symm
  | set frozen xs => cases frozen <;> rfl
  | _ => rfl

theorem isContainer_settle (v : Value) : (settle v).isContainer = v.isContainer := by
  cases v with
  | set frozen xs => cases frozen <;> rfl
  | _ => rfl

theorem settle_ne_float (v : Value) (x : Double) : settle v ≠ .float x := by
  cases v with
  | set frozen xs => cases frozen <;> exact nofun
  | _ => exact nofun

/-- The numbers of a value with its floats replaced were there before. -/
theorem holds_of_settle {v : Value} {d : Decimal} (h : (settle v).Holds d) : v.Holds d := by
  induction v using Value.induct with
  | step v ih => cases v with
  | float x =>
    rw [settle, holds_iff_of_not_isContainer rfl] at h
    exact .number ((asDecimal?_settle (.float x)).symm.trans h)
  | list xs =>
    rw [settle, settleAll_eq, holds_list_iff] at h
    obtain ⟨_, hu, h⟩ := h
    obtain ⟨x, hx, rfl⟩ := List.mem_map.mp hu
    exact .inner hx (ih x hx h)
  | map es =>
    rw [settle, settleEntries_eq, holds_map_iff] at h
    obtain ⟨_, hu, h⟩ := h
    obtain ⟨e, he, rfl⟩ := List.mem_map.mp hu
    exact .inner (mem_inner_map he) (ih e.2 (mem_inner_map he) h)
  | set frozen xs =>
    cases frozen with
    | true => exact h
    | false =>
      rw [settle, settleAll_eq] at h
      cases h with
      | number h => cases h
      | member hu h =>
        obtain ⟨x, hx, rfl⟩ := List.mem_map.mp (mem_of_mem_distinct hu)
        exact .member hx ((memberDecimal?_settle x).symm.trans h)
      | inner hu h =>
        obtain ⟨x, hx, rfl⟩ := List.mem_map.mp (mem_of_mem_distinct hu)
        exact .inner hx (ih x hx h)
  | _ => exact h

/-- What is one NaN in two places is one value. -/
theorem eq_of_isShared {u v : Value} (h : u.isShared v = true) : u = v := by
  cases u <;> cases v <;> simp_all [isShared]

/-- What is the same as a number that is not finite is that number. -/
theorem number?_of_same {u v : Value} {d : Decimal} (h : u.same v = true)
    (hv : v.number? = some d) (hd : d.isFinite = false) : u.number? = some d := by
  have hscalar : u.number? = none → u.same v = false := by
    intro hu
    cases v <;> cases hv <;> cases u <;> cases hu <;> simp [same, sameScalar, number?]
  cases hu : u.number? with
  | none =>
    rw [hscalar hu] at h
    cases h
  | some e =>
    rw [same_numbers hu hv, Bool.or_eq_true] at h
    rcases h with hshared | hsame
    · rw [← hu, eq_of_isShared hshared, hv]
    · cases e <;> cases d <;> simp_all [Decimal.sameNumber, Decimal.isFinite]

theorem isContainer_of_same {u v : Value} (h : u.same v = true) (hu : u.isContainer = false) :
    v.isContainer = false := by
  cases v with
  | list | tuple | set | map =>
    cases u <;> cases hu <;> simp [same, sameScalar, number?] at h
  | _ => rfl

/-- Whether a member of a set stays or its like, no member is built of others. -/
theorem not_isContainer_of_settle_set {xs : List Value} {w : Value}
    (hw : encode (settle (.set false xs)) = .ok w) : ∀ x ∈ xs, x.isContainer = false := by
  rw [settle, settleAll_eq, encode] at hw
  have hmembers := not_isContainer_of_setWire (encodeSet_ok.mp hw)
  intro x hx
  rw [← isContainer_settle]
  rcases mem_or_same_distinct (List.mem_map_of_mem hx) with hmem | ⟨u, hu, hs⟩
  · exact hmembers _ hmem
  · exact isContainer_of_same hs (hmembers u hu)

/-- A set that goes on the wire keeps its numbers that are not finite. -/
theorem holds_settle_set {xs : List Value} {d : Decimal} {w : Value}
    (hw : encode (settle (.set false xs)) = .ok w) (hd : d.isFinite = false)
    (h : (Value.set false xs).Holds d) : (settle (.set false xs)).Holds d := by
  obtain ⟨x, hx, h⟩ := (holds_set_iff (not_isContainer_of_settle_set hw)).mp h
  rw [← memberDecimal?_settle] at h
  rw [settle, settleAll_eq]
  rcases mem_or_same_distinct (List.mem_map_of_mem hx) with hmem | ⟨u, hu, hs⟩
  · exact .member hmem h
  · obtain ⟨y, -, rfl⟩ := List.mem_map.mp (mem_of_mem_distinct hu)
    rw [← number?_eq_memberDecimal? (settle_ne_float x)] at h
    refine .member hu ?_
    rw [← number?_eq_memberDecimal? (settle_ne_float y)]
    exact number?_of_same hs h hd

/-- A value that goes on the wire keeps its numbers that are not finite. -/
theorem holds_settle {v w : Value} {d : Decimal} (hw : encode (settle v) = .ok w)
    (hd : d.isFinite = false) (h : v.Holds d) : (settle v).Holds d := by
  induction v using Value.induct generalizing w with
  | step v ih => cases v with
  | float x =>
    exact .number ((asDecimal?_settle (.float x)).trans ((holds_iff_of_not_isContainer rfl).mp h))
  | list xs =>
    rw [settle, settleAll_eq] at hw ⊢
    obtain ⟨ws, hws, -⟩ := encode_list_ok.mp hw
    obtain ⟨x, hx, h⟩ := holds_list_iff.mp h
    have hmem : settle x ∈ xs.map settle := List.mem_map_of_mem hx
    obtain ⟨w', -, hxw⟩ := exists_of_mem_left hws _ hmem
    exact .inner hmem (ih x hx hxw h)
  | map es =>
    rw [settle, settleEntries_eq] at hw ⊢
    obtain ⟨ws, hws, -⟩ := encode_map_ok.mp hw
    obtain ⟨e, he, h⟩ := holds_map_iff.mp h
    have hmem : (e.1, settle e.2) ∈ es.map fun e => (e.1, settle e.2) := List.mem_map_of_mem he
    obtain ⟨w', -, hew⟩ := exists_of_mem_left hws _ hmem
    exact holds_map_iff.mpr ⟨_, hmem, ih e.2 (mem_inner_map he) hew.2 h⟩
  | set frozen xs =>
    cases frozen with
    | true => exact h
    | false => exact holds_settle_set hw hd h
  | _ => exact h

/-- **Numerals.** A numeral on the wire is the text of a number of the value that fits or is marked,
and a number of the value that is not finite is marked, and goes on the wire as it is. -/
theorem numerals_of_encodeValue {v w : Value} (h : encodeValue v = .ok w) :
    (∀ x, Numeral x w → ∃ d, v.Holds d ∧ x = .text d.text ∧ (d.Fits ∨ d.IsMarked)) ∧
      ∀ d, v.Holds d → d.isFinite = false → d.IsMarked ∧ Numeral (.text d.text) w := by
  have hcarried := carried_of_encode h
  constructor
  · intro x hx
    obtain ⟨d, hd, hxd⟩ := (hcarried.numeral_iff x).mp hx
    exact ⟨d, holds_of_settle hd, hxd, hcarried.passes d hd⟩
  · intro d hd hfinite
    have hsettled := holds_settle h hfinite hd
    refine ⟨(hcarried.passes d hsettled).resolve_left fun hfits => ?_, ?_⟩
    · rw [isFinite_of_fits hfits] at hfinite
      cases hfinite
    · exact (hcarried.numeral_iff _).mpr ⟨d, hsettled, rfl⟩

end Wire

end ItemStore
