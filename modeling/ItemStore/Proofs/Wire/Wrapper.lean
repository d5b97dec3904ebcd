import ItemStore.Proofs.Value.Distinct
import ItemStore.Proofs.Wire.Parts

/-! Binary data off the wire.

Binary data comes off the wire in a wrapper, wherever it stands, and the wrapper is taken off the
value as a whole only. So what is read is plain at the top, and below it holds a wrapper exactly
where the wire value holds binary data: `wrappedAt_decodeValue_iff` says so depth by depth. Both
sides go by the depth alone, and the proof is by induction on it. -/
namespace ItemStore

open Outcome

namespace Value

/-- The values right inside a value: the items of a list, the members of a set, the keys and the
values of a map. -/
def parts : Value → List Value
  | .list xs => xs
  | .tuple xs => xs
  | .set _ xs => xs
  | .map es => es.map (·.1) ++ es.map (·.2)
  | _ => []

/-- Binary data that is still in its wrapper. -/
def isWrapped : Value → Bool
  | .bytes form _ => form.wrapped
  | _ => false

/-- At this depth there is binary data in its wrapper; the value itself is at depth 0. -/
def WrappedAt : Nat → Value → Prop
  | 0, v => v.isWrapped = true
  | d + 1, v => ∃ x ∈ v.parts, WrappedAt d x

/-- Nowhere in the value is there binary data in its wrapper. -/
def IsPlain (v : Value) : Prop := ∀ d, ¬ v.WrappedAt d

theorem not_wrappedAt_succ {v : Value} (h : v.parts = []) (d : Nat) : ¬ v.WrappedAt (d + 1) := by
  rintro ⟨x, hx, -⟩
  rw [h] at hx
  cases hx

/-- A value with no parts and no data in a wrapper. -/
theorem not_wrappedAt {v : Value} (hplain : v.isWrapped = false) (h : v.parts = []) (d : Nat) :
    ¬ v.WrappedAt d := by
  cases d with
  | zero => exact fun hw => Bool.false_ne_true (hplain.symm.trans hw)
  | succ d => exact not_wrappedAt_succ h d

theorem wrappedAt_bytes_iff {form : BytesForm} {data : List UInt8} {d : Nat} :
    (bytes form data).WrappedAt d ↔ d = 0 ∧ form.wrapped = true := by
  cases d with
  | zero => exact (and_iff_right rfl).symm
  | succ d => exact iff_of_false (not_wrappedAt_succ rfl d) fun h => Nat.succ_ne_zero d h.1

/-- The wrapper of the value itself is the only one that is taken off. -/
theorem wrappedAt_unwrap_iff {v : Value} {d : Nat} :
    v.unwrap.WrappedAt d ↔ 0 < d ∧ v.WrappedAt d := by
  cases v with
  | bytes form data =>
    rw [unwrap, wrappedAt_bytes_iff, wrappedAt_bytes_iff]
    constructor
    · rintro ⟨-, h⟩
      cases h
    · rintro ⟨hpos, rfl, -⟩
      cases hpos
  | _ =>
    refine ⟨fun h => ⟨Nat.pos_of_ne_zero ?_, h⟩, And.right⟩
    rintro rfl
    cases h

end Value

namespace Wire

open Value

/-- At this depth the wire value brings binary data, itself at depth 0. What comes off the wire as
it stands there, a text, a truth value or a key, brings what it holds. -/
def BinaryAt : Nat → Value → Prop
  | 0, .map ((k, v) :: _) =>
    match tagType? k with
    | some .binary => True
    | some .text => v.WrappedAt 0
    | some .bool => v.WrappedAt 0
    | _ => False
  | d + 1, .map ((k, v) :: _) =>
    match tagType? k with
    | some .text => v.WrappedAt (d + 1)
    | some .bool => v.WrappedAt (d + 1)
    | some .textSet => ∃ xs, v.elements = .ok xs ∧ ∃ x ∈ Value.distinct xs, x.WrappedAt d
    | some .binarySet => d = 0 ∧ ∃ x xs, v.elements = .ok (x :: xs)
    | some .list => ∃ xs, v.elements = .ok xs ∧ ∃ x ∈ xs, BinaryAt d x
    | some .map => ∃ es, v = .map es ∧ ∃ e ∈ es, e.1.WrappedAt d ∨ BinaryAt d e.2
    | _ => False
  | _, _ => False

/-! ### Numbers, binary data and sets -/

theorem decodeNumber_eq {v r : Value} (h : decodeNumber v = .ok r) : ∃ d, r = .decimal d := by
  have hlift {x : Except Decimal.Signal Decimal} (h : decodeNumber.lift x = .ok r) :
      ∃ d, r = .decimal d := by
    cases x with
    | error s => cases h
    | ok d => exact ⟨d, (Except.ok.inj h).symm⟩
  unfold decodeNumber at h
  split at h
  · exact hlift h
  · exact ⟨_, (Except.ok.inj h).symm⟩
  · obtain ⟨d, -, h⟩ := bind_ok.mp h
    exact hlift h
  · obtain ⟨d, -, h⟩ := bind_ok.mp h
    exact hlift h
  · split at h
    · exact hlift h
    · cases h

theorem decodeBinary_eq {v r : Value} (h : decodeBinary v = .ok r) :
    ∃ form data, r = .bytes form data ∧ form.wrapped = true := by
  unfold decodeBinary at h
  split at h
  · split at h
    · cases h
    · exact ⟨_, _, (Except.ok.inj h).symm, rfl⟩
  · cases h

/-- The members of a set are what is read from its elements. -/
theorem decodeSet_eq {member : Value → Except Fault Value} {v r : Value}
    (h : decodeSet member v = .ok r) :
    ∃ xs ys, v.elements = .ok xs ∧ List.Forall₂ (fun x y => member x = .ok y) xs ys ∧
      r = .set false (Value.distinct ys) := by
  obtain ⟨xs, hxs, h⟩ := bind_ok.mp h
  obtain ⟨ys, hys, h⟩ := bind_ok.mp h
  refine ⟨xs, ys, hxs, (mapM_ok.mp hys).imp fun x y hy => ?_, (pure_ok.mp h).symm⟩
  obtain ⟨z, hz, hy⟩ := bind_ok.mp hy
  split at hy
  · cases hy
    exact hz
  · cases hy

theorem not_wrapped_numberSet {v r : Value} (h : decodeSet decodeNumber v = .ok r) (d : Nat) :
    ¬ r.WrappedAt d := by
  obtain ⟨xs, ys, -, hys, rfl⟩ := decodeSet_eq h
  cases d with
  | zero => exact Bool.false_ne_true
  | succ d =>
    rintro ⟨y, hy, hwrapped⟩
    obtain ⟨x, -, hx⟩ := exists_of_mem_right hys y (mem_of_mem_distinct hy)
    obtain ⟨n, rfl⟩ := decodeNumber_eq hx
    exact not_wrappedAt rfl rfl d hwrapped

/-- Every member of a set of binary data is in its wrapper. -/
theorem wrapped_binarySet_iff {v r : Value} (h : decodeSet decodeBinary v = .ok r) (d : Nat) :
    r.WrappedAt (d + 1) ↔ d = 0 ∧ ∃ x xs, v.elements = .ok (x :: xs) := by
  obtain ⟨xs, ys, hxs, hys, rfl⟩ := decodeSet_eq h
  constructor
  · rintro ⟨y, hy, hwrapped⟩
    obtain ⟨x, hx, hread⟩ := exists_of_mem_right hys y (mem_of_mem_distinct hy)
    obtain ⟨form, data, rfl, -⟩ := decodeBinary_eq hread
    obtain ⟨x', xs', rfl⟩ := List.exists_cons_of_ne_nil (List.ne_nil_of_mem hx)
    exact ⟨(wrappedAt_bytes_iff.mp hwrapped).1, x', xs', hxs⟩
  · rintro ⟨rfl, x, xs', hcons⟩
    rw [hxs] at hcons
    cases hcons
    obtain ⟨y, hy, hread⟩ := exists_of_mem_left hys x (List.mem_cons_self ..)
    obtain ⟨form, data, rfl, -⟩ := decodeBinary_eq hread
    -- The member itself may be gone: the one kept in its place holds the same data.
    have hself : (Value.bytes form data).same (.bytes form data) = true := by
      simp only [same, sameScalar, beq_self_eq_true]
    obtain ⟨z, hz, -⟩ := exists_same_mem_distinct hself hy
    obtain ⟨x', -, hx'⟩ := exists_of_mem_right hys z (mem_of_mem_distinct hz)
    obtain ⟨form', data', rfl, hform⟩ := decodeBinary_eq hx'
    exact ⟨_, hz, hform⟩

theorem wrapped_textSet_iff {v r : Value} (h : decodeSet .ok v = .ok r) (d : Nat) :
    r.WrappedAt (d + 1) ↔
      ∃ xs, v.elements = .ok xs ∧ ∃ x ∈ Value.distinct xs, x.WrappedAt d := by
  obtain ⟨xs, ys, hxs, hys, rfl⟩ := decodeSet_eq h
  obtain rfl : xs = ys := by
    rw [← List.forall₂_eq_eq_eq]
    exact hys.imp fun _ _ => Except.ok.inj
  constructor
  · rintro ⟨x, hx, hwrapped⟩
    exact ⟨xs, hxs, x, hx, hwrapped⟩
  · rintro ⟨xs', hxs', x, hx, hwrapped⟩
    rw [hxs] at hxs'
    cases hxs'
    exact ⟨x, hx, hwrapped⟩

/-! ### Lists and maps -/

theorem decodeKeys_eq (es : Fields) : decodeKeys es = decodeAll (es.map (·.1)) := by
  induction es with
  | nil => rfl
  | cons e es ih => rw [decodeKeys, ih, List.map_cons, decodeAll]

/-- A list is what is read from the elements of its payload. -/
theorem decodeList_eq {v r : Value} (h : decodeList v = .ok r) :
    ∃ xs ys, v.elements = .ok xs ∧ List.Forall₂ (fun x y => decode x = .ok y) xs ys ∧
      r = .list ys := by
  have hread {xs : List Value} (h : (do return .list (← decodeAll xs)) = Except.ok r) :
      ∃ ys, List.Forall₂ (fun x y => decode x = .ok y) xs ys ∧ r = .list ys := by
    obtain ⟨ys, hys, h⟩ := bind_ok.mp h
    exact ⟨ys, decodeAll_ok.mp hys, (pure_ok.mp h).symm⟩
  unfold decodeList at h
  split at h
  · next xs => exact ⟨xs, (hread h).imp fun ys hys => ⟨rfl, hys⟩⟩
  · next xs => exact ⟨xs, (hread h).imp fun ys hys => ⟨rfl, hys⟩⟩
  · next xs => exact ⟨xs, (hread h).imp fun ys hys => ⟨rfl, hys⟩⟩
  · next es =>
    rw [decodeKeys_eq] at h
    exact ⟨es.map (·.1), (hread h).imp fun ys hys => ⟨rfl, hys⟩⟩
  · obtain ⟨xs, hxs, h⟩ := bind_ok.mp h
    split at h
    · exact ⟨[], [], hxs, .nil, (pure_ok.mp h).symm⟩
    · cases h

theorem decodeMap_eq {v r : Value} (h : decodeMap v = .ok r) :
    ∃ es fs, v = .map es ∧ List.Forall₂ (KeepsKey decode) es fs ∧ r = .map fs := by
  unfold decodeMap at h
  split at h
  · next es =>
    obtain ⟨fs, hfs, h⟩ := bind_ok.mp h
    exact ⟨es, fs, rfl, decodeEntries_ok.mp hfs, (pure_ok.mp h).symm⟩
  · cases h

section Parts
variable {d : Nat} (hread : ∀ {w v : Value}, decode w = .ok v → (v.WrappedAt d ↔ BinaryAt d w))
include hread

theorem wrapped_list_iff {v r : Value} (h : decodeList v = .ok r) :
    r.WrappedAt (d + 1) ↔ ∃ xs, v.elements = .ok xs ∧ ∃ x ∈ xs, BinaryAt d x := by
  obtain ⟨xs, ys, hxs, hys, rfl⟩ := decodeList_eq h
  constructor
  · rintro ⟨y, hy, hwrapped⟩
    obtain ⟨x, hx, hdecode⟩ := exists_of_mem_right hys y hy
    exact ⟨xs, hxs, x, hx, (hread hdecode).mp hwrapped⟩
  · rintro ⟨xs', hxs', x, hx, hbinary⟩
    rw [hxs] at hxs'
    cases hxs'
    obtain ⟨y, hy, hdecode⟩ := exists_of_mem_left hys x hx
    exact ⟨y, hy, (hread hdecode).mpr hbinary⟩

theorem wrapped_map_iff {v r : Value} (h : decodeMap v = .ok r) :
    r.WrappedAt (d + 1) ↔
      ∃ es, v = .map es ∧ ∃ e ∈ es, e.1.WrappedAt d ∨ BinaryAt d e.2 := by
  obtain ⟨es, fs, rfl, hfs, rfl⟩ := decodeMap_eq h
  constructor
  · rintro ⟨x, hx, hwrapped⟩
    refine ⟨es, rfl, ?_⟩
    rcases List.mem_append.mp hx with hx | hx
    · obtain ⟨f, hf, rfl⟩ := List.mem_map.mp hx
      obtain ⟨e, he, hkey, -⟩ := exists_of_mem_right hfs f hf
      exact ⟨e, he, .inl (hkey ▸ hwrapped)⟩
    · obtain ⟨f, hf, rfl⟩ := List.mem_map.mp hx
      obtain ⟨e, he, -, hdecode⟩ := exists_of_mem_right hfs f hf
      exact ⟨e, he, .inr ((hread hdecode).mp hwrapped)⟩
  · rintro ⟨es', heq, e, he, hholds⟩
    cases heq
    obtain ⟨f, hf, hkey, hdecode⟩ := exists_of_mem_left hfs e he
    rcases hholds with hwrapped | hbinary
    · exact ⟨f.1, List.mem_append_left _ (List.mem_map_of_mem hf), hkey ▸ hwrapped⟩
    · exact ⟨f.2, List.mem_append_right _ (List.mem_map_of_mem hf), (hread hdecode).mpr hbinary⟩

end Parts

/-! ### Values -/

/-- A value comes off the wire by the tag of its first entry. -/
theorem decode_eq {w v : Value} (h : decode w = .ok v) :
    ∃ k p rest t, w = .map ((k, p) :: rest) ∧ tagType? k = some t ∧ readUnder t p = .ok v := by
  unfold decode at h
  split at h
  · next k p rest =>
    cases hk : tagType? k with
    | none =>
      rw [hk] at h
      cases h
    | some t =>
      rw [hk] at h
      refine ⟨k, p, rest, t, rfl, hk, ?_⟩
      cases t <;> exact h
  · cases h

theorem isWrapped_readUnder {t : WireType} {p v : Value} (h : readUnder t p = .ok v) :
    v.WrappedAt 0 ↔ t = .binary ∨ (t = .text ∨ t = .bool) ∧ p.WrappedAt 0 := by
  cases t with
  | null =>
    cases h
    simp [WrappedAt, isWrapped]
  | bool =>
    cases h
    simp
  | text =>
    cases h
    simp
  | number =>
    obtain ⟨n, rfl⟩ := decodeNumber_eq h
    simp [WrappedAt, isWrapped]
  | binary =>
    obtain ⟨form, data, rfl, hform⟩ := decodeBinary_eq h
    simp [wrappedAt_bytes_iff, hform]
  | numberSet =>
    obtain ⟨xs, ys, -, -, rfl⟩ := decodeSet_eq h
    simp [WrappedAt, isWrapped]
  | textSet =>
    obtain ⟨xs, ys, -, -, rfl⟩ := decodeSet_eq h
    simp [WrappedAt, isWrapped]
  | binarySet =>
    obtain ⟨xs, ys, -, -, rfl⟩ := decodeSet_eq h
    simp [WrappedAt, isWrapped]
  | list =>
    obtain ⟨xs, ys, -, -, rfl⟩ := decodeList_eq h
    simp [WrappedAt, isWrapped]
  | map =>
    obtain ⟨es, fs, rfl, -, rfl⟩ := decodeMap_eq h
    simp [WrappedAt, isWrapped]

/-- Before the outermost wrapper is taken off, all binary data is in one. -/
theorem wrappedAt_decode_iff {w v : Value} (h : decode w = .ok v) (d : Nat) :
    v.WrappedAt d ↔ BinaryAt d w := by
  induction d generalizing w v with
  | zero =>
    obtain ⟨k, p, rest, t, rfl, hk, hp⟩ := decode_eq h
    rw [isWrapped_readUnder hp, BinaryAt, hk]
    cases t <;> simp
  | succ d ih =>
    obtain ⟨k, p, rest, t, rfl, hk, hp⟩ := decode_eq h
    rw [BinaryAt, hk]
    cases t with
    | null =>
      cases hp
      exact iff_of_false (not_wrappedAt_succ rfl d) id
    | bool =>
      cases hp
      exact Iff.rfl
    | text =>
      cases hp
      exact Iff.rfl
    | number =>
      obtain ⟨n, rfl⟩ := decodeNumber_eq hp
      exact iff_of_false (not_wrappedAt_succ rfl d) id
    | binary =>
      obtain ⟨form, data, rfl, -⟩ := decodeBinary_eq hp
      exact iff_of_false (not_wrappedAt_succ rfl d) id
    | numberSet => exact iff_of_false (not_wrapped_numberSet hp _) id
    | textSet => exact wrapped_textSet_iff hp d
    | binarySet => exact wrapped_binarySet_iff hp d
    | list => exact wrapped_list_iff ih hp
    | map => exact wrapped_map_iff ih hp

theorem wrappedAt_decodeValue_iff {w v : Value} (h : decodeValue w = .ok v) (d : Nat) :
    v.WrappedAt d ↔ 0 < d ∧ BinaryAt d w := by
  obtain ⟨u, hu, h⟩ := bind_ok.mp h
  obtain rfl := pure_ok.mp h
  rw [wrappedAt_unwrap_iff, wrappedAt_decode_iff hu]

/-- A value comes back plain exactly if its wire value holds binary data at the top only. -/
theorem isPlain_decodeValue_iff {w v : Value} (h : decodeValue w = .ok v) :
    v.IsPlain ↔ ∀ d, 0 < d → ¬ BinaryAt d w := by
  constructor
  · exact fun hplain d hpos hbinary =>
      hplain d ((wrappedAt_decodeValue_iff h d).mpr ⟨hpos, hbinary⟩)
  · intro hnone d hwrapped
    obtain ⟨hpos, hbinary⟩ := (wrappedAt_decodeValue_iff h d).mp hwrapped
    exact hnone d hpos hbinary

/-- **Wrappers.** A value that comes off the wire is no wrapper itself. Inside it there is a wrapper
at exactly those depths at which the wire value holds binary data, so it is plain if there are none;
and so it is with the fields of an item, one by one. -/
theorem wrapped_within (w v : Value) (es fs : Fields) :
    (decodeValue w = .ok v → (∀ d, v.WrappedAt d ↔ 0 < d ∧ BinaryAt d w) ∧
      (v.IsPlain ↔ ∀ d, 0 < d → ¬ BinaryAt d w)) ∧
    (decodeItem (.map es) = .ok fs →
      List.Forall₂ (fun e f => e.1 = f.1 ∧ (∀ d, f.2.WrappedAt d ↔ 0 < d ∧ BinaryAt d e.2) ∧
        (f.2.IsPlain ↔ ∀ d, 0 < d → ¬ BinaryAt d e.2)) es fs) := by
  refine ⟨fun h => ⟨wrappedAt_decodeValue_iff h, isPlain_decodeValue_iff h⟩, fun h => ?_⟩
  refine (decodeFields_ok.mp h).imp fun e f hef => ⟨hef.1, ?_⟩
  exact ⟨wrappedAt_decodeValue_iff hef.2, isPlain_decodeValue_iff hef.2⟩

/-- Binary data as a field, and in a list that is a field. The same two as the fields of an item
come back plain and in a wrapper. -/
theorem wrapped_within_list :
    let plain : Value := WireType.binary.wrap (.bytes ⟨false, false⟩ [1])
    let es : Fields := [(.text "a", plain), (.text "b", WireType.list.wrap (.list [plain]))]
    let data (wrapped : Bool) : Value := .bytes ⟨false, wrapped⟩ [1]
    let v : Value := .map [(.text "a", data true), (.text "b", .list [data true])]
    let fs : Fields := [(.text "a", data false), (.text "b", .list [data true])]
    decodeValue (WireType.map.wrap (.map es)) = .ok v ∧ decodeItem (.map es) = .ok fs ∧
      ¬ v.WrappedAt 0 ∧ BinaryAt 1 (WireType.map.wrap (.map es)) ∧ v.WrappedAt 1 ∧ ¬ v.IsPlain ∧
      List.Forall₂ (fun e f => e.1 = f.1 ∧ (∀ d, f.2.WrappedAt d ↔ 0 < d ∧ BinaryAt d e.2) ∧
        (f.2.IsPlain ↔ ∀ d, 0 < d → ¬ BinaryAt d e.2)) es fs := by
  intro plain es data v fs
  have hv : decodeValue (WireType.map.wrap (.map es)) = .ok v := by decide +kernel
  have hfs : decodeItem (.map es) = .ok fs := by decide +kernel
  obtain ⟨hvalue, hitem⟩ := wrapped_within (WireType.map.wrap (.map es)) v es fs
  obtain ⟨hdepth, hplain⟩ := hvalue hv
  have hwrapped : v.WrappedAt 1 := ⟨data true, List.mem_append_right _ (List.mem_cons_self ..), rfl⟩
  have hbinary := (hdepth 1).mp hwrapped
  refine ⟨hv, hfs, fun h => ?_, hbinary.2, hwrapped, fun h => ?_, hitem hfs⟩
  · exact Nat.lt_irrefl 0 ((hdepth 0).mp h).1
  · exact hplain.mp h 1 hbinary.1 hbinary.2

/-- Not all wrappers are taken off: one in a list stays. -/
theorem not_plain_within : ¬ ∀ w v, decodeValue w = .ok v → v.IsPlain := by
  intro h
  have hv : decodeValue (WireType.list.wrap (.list [WireType.binary.wrap
      (.bytes ⟨false, false⟩ [1])])) = .ok (.list [.bytes ⟨false, true⟩ [1]]) := by decide +kernel
  exact h _ _ hv 1 ⟨_, List.mem_singleton_self _, rfl⟩

end Wire

end ItemStore
