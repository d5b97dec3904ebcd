import ItemStore.Proofs.Fields
import ItemStore.Proofs.Outcome
import ItemStore.Wire.Decode

/-! Parts onto the wire and off it.

Lists and maps are put on the wire and taken off it part by part, and keys are left as they are:
each such computation succeeds exactly if it does for every part. What is taken off the wire is
read as its tag says (`decode_wrap`). -/
namespace ItemStore

theorem WireType.wrap_inj {t t' : WireType} {v v' : Value} :
    t.wrap v = t'.wrap v' ↔ t = t' ∧ v = v' := by
  constructor
  · intro h
    simp only [wrap, Value.map.injEq, List.cons.injEq, Prod.mk.injEq, Value.text.injEq,
      and_true] at h
    have htag := congrArg ofTag? h.1
    rw [ofTag?_tag, ofTag?_tag] at htag
    exact ⟨Option.some.inj htag, h.2⟩
  · rintro ⟨rfl, rfl⟩
    rfl

namespace Wire

open Outcome

/-- Entries of the same key, where `f` makes one value of the other. -/
def KeepsKey {κ : Type} (f : Value → Except Fault Value) (e w : κ × Value) : Prop :=
  e.1 = w.1 ∧ f e.2 = .ok w.2

theorem settleAll_eq (xs : List Value) : settleAll xs = xs.map settle := by
  induction xs with
  | nil => rfl
  | cons x xs ih => rw [settleAll, ih, List.map_cons]

theorem settleEntries_eq (es : Fields) :
    settleEntries es = es.map fun e => (e.1, settle e.2) := by
  induction es with
  | nil => rfl
  | cons e es ih => rw [settleEntries, ih, List.map_cons]

theorem encodeAll_ok {xs ws : List Value} :
    encodeAll xs = .ok ws ↔ List.Forall₂ (fun x w => encode x = .ok w) xs ws := by
  rw [← mapM_ok]
  suffices encodeAll xs = xs.mapM encode by rw [this]
  induction xs with
  | nil => rfl
  | cons x xs ih => rw [encodeAll, ih, List.mapM_cons]

theorem decodeAll_ok {ws xs : List Value} :
    decodeAll ws = .ok xs ↔ List.Forall₂ (fun w x => decode w = .ok x) ws xs := by
  rw [← mapM_ok]
  suffices decodeAll ws = ws.mapM decode by rw [this]
  induction ws with
  | nil => rfl
  | cons w ws ih => rw [decodeAll, ih, List.mapM_cons]

/-- Entries that are treated one after the other, each by `f`. -/
theorem entries_ok {κ : Type} {f : Value → Except Fault Value}
    {go : List (κ × Value) → Except Fault (List (κ × Value))} (hnil : go [] = .ok [])
    (hcons : ∀ k v es, go ((k, v) :: es) = do return (k, ← f v) :: (← go es))
    {es ws : List (κ × Value)} :
    go es = .ok ws ↔ List.Forall₂ (KeepsKey f) es ws := by
  induction es generalizing ws with
  | nil => cases ws <;> simp [hnil]
  | cons e es ih =>
    rw [hcons]
    simp only [bind_ok, pure_ok, ih]
    constructor
    · intro h
      obtain ⟨w, hw, ws, hws, rfl⟩ := h
      exact .cons ⟨rfl, hw⟩ hws
    · intro h
      obtain _ | ⟨⟨hk, hw⟩, hws⟩ := h
      exact ⟨_, hw, _, hws, by rw [hk]⟩

theorem encodeEntries_ok {es ws : Fields} :
    encodeEntries es = .ok ws ↔ List.Forall₂ (KeepsKey encode) es ws :=
  entries_ok (by rw [encodeEntries]) fun k v es => by rw [encodeEntries]

theorem decodeEntries_ok {ws es : Fields} :
    decodeEntries ws = .ok es ↔ List.Forall₂ (KeepsKey decode) ws es :=
  entries_ok (by rw [decodeEntries]) fun k v es => by rw [decodeEntries]

theorem encodeFields_ok {fs ws : Fields} :
    encodeFields fs = .ok ws ↔ List.Forall₂ (KeepsKey encodeValue) fs ws :=
  entries_ok (by rw [encodeFields]) fun k v es => by rw [encodeFields]

theorem decodeFields_ok {ws fs : Fields} :
    decodeFields ws = .ok fs ↔ List.Forall₂ (KeepsKey decodeValue) ws fs :=
  entries_ok (by rw [decodeFields]) fun k v es => by rw [decodeFields]

/-! ### Values under their tags -/

/-- How a value under a tag is read. -/
def readUnder : WireType → Value → Except Fault Value
  | .null => fun _ => .ok .null
  | .bool => .ok
  | .text => .ok
  | .number => decodeNumber
  | .binary => decodeBinary
  | .numberSet => decodeSet decodeNumber
  | .textSet => decodeSet .ok
  | .binarySet => decodeSet decodeBinary
  | .list => decodeList
  | .map => decodeMap

theorem decode_wrap (t : WireType) (v : Value) : decode (t.wrap v) = readUnder t v := by
  have htag : tagType? (.text t.tag) = some t := WireType.ofTag?_tag t
  rw [WireType.wrap, decode, htag]
  cases t <;> rfl

/-- Items that go on the wire as a list. -/
theorem encode_items_ok {v w : Value} {xs : List Value}
    (hv : encode v = do return WireType.list.wrap (.list (← encodeAll xs))) :
    encode v = .ok w ↔ ∃ ws, List.Forall₂ (fun x w => encode x = .ok w) xs ws ∧
      w = WireType.list.wrap (.list ws) := by
  simp only [hv, bind_ok, pure_ok, encodeAll_ok, @eq_comm _ w]

theorem encode_list_ok {xs : List Value} {w : Value} : encode (.list xs) = .ok w ↔
    ∃ ws, List.Forall₂ (fun x w => encode x = .ok w) xs ws ∧ w = WireType.list.wrap (.list ws) :=
  encode_items_ok (by rw [encode])

theorem encode_tuple_ok {xs : List Value} {w : Value} : encode (.tuple xs) = .ok w ↔
    ∃ ws, List.Forall₂ (fun x w => encode x = .ok w) xs ws ∧ w = WireType.list.wrap (.list ws) :=
  encode_items_ok (by rw [encode])

theorem encode_map_ok {es : Fields} {w : Value} : encode (.map es) = .ok w ↔
    ∃ ws, List.Forall₂ (KeepsKey encode) es ws ∧ w = WireType.map.wrap (.map ws) := by
  rw [encode]
  simp only [bind_ok, pure_ok, encodeEntries_ok, @eq_comm _ w]

theorem encode_list {xs ws : List Value} (h : encodeAll xs = .ok ws) :
    encode (.list xs) = .ok (WireType.list.wrap (.list ws)) :=
  encode_list_ok.mpr ⟨ws, encodeAll_ok.mp h, rfl⟩

theorem decode_list {ws xs : List Value} (h : decodeAll ws = .ok xs) :
    decode (WireType.list.wrap (.list ws)) = .ok (.list xs) := by
  rw [decode_wrap, readUnder, decodeList, h]
  rfl

theorem encode_map {es ws : Fields} (h : encodeEntries es = .ok ws) :
    encode (.map es) = .ok (WireType.map.wrap (.map ws)) :=
  encode_map_ok.mpr ⟨ws, encodeEntries_ok.mp h, rfl⟩

theorem decode_map {ws es : Fields} (h : decodeEntries ws = .ok es) :
    decode (WireType.map.wrap (.map ws)) = .ok (.map es) := by
  rw [decode_wrap, readUnder, decodeMap, h]
  rfl

/-! ### Fields in wire form -/

theorem encodeItem_ok {v w : Value} : encodeItem v = .ok w ↔
    ∃ fs ws, v = .map fs ∧ encodeFields fs = .ok ws ∧ w = .map ws := by
  cases v with
  | map fs =>
    rw [encodeItem, map_ok]
    constructor
    · intro h
      obtain ⟨ws, hws, rfl⟩ := h
      exact ⟨fs, ws, rfl, hws, rfl⟩
    · intro h
      obtain ⟨_, ws, hfs, hws, rfl⟩ := h
      cases hfs
      exact ⟨ws, hws, rfl⟩
  | _ => simp [encodeItem]

/-- As the value of a field an item goes on the wire under the tag of a map. -/
theorem encodeValue_map {fs : Fields} {w : Value} : encodeValue (.map fs) = .ok w ↔
    ∃ ws, encodeFields fs = .ok ws ∧ w = WireType.map.wrap (.map ws) := by
  rw [encodeValue, settle, encode_map_ok, settleEntries_eq]
  simp only [encodeFields_ok, List.forall₂_map_left_iff]
  rfl

theorem keys_eq {κ : Type} {R : κ × Value → κ × Value → Prop} (hR : ∀ e w, R e w → e.1 = w.1)
    {fs ws : List (κ × Value)} (h : List.Forall₂ R fs ws) : ws.map (·.1) = fs.map (·.1) := by
  induction h with
  | nil => rfl
  | cons he _ ih => rw [List.map_cons, List.map_cons, ih, hR _ _ he]

theorem isMap_encodeFields {fs ws : Fields} (h : encodeFields fs = .ok ws) (hmap : fs.IsMap) :
    ws.IsMap := by
  rw [Fields.isMap_iff_keys] at hmap ⊢
  rw [keys_eq (fun _ _ he => he.1) (encodeFields_ok.mp h)]
  exact hmap

theorem isNamed_encodeFields {fs ws : Fields} (h : encodeFields fs = .ok ws)
    (hnamed : fs.IsNamed) : ws.IsNamed := by
  rw [Fields.isNamed_iff_keys] at hnamed ⊢
  rw [keys_eq (fun _ _ he => he.1) (encodeFields_ok.mp h)]
  exact hnamed

/-- Under each key stands what `f` makes of what stood there. -/
theorem getKey?_of_keepsKey {f : Value → Except Fault Value} {fs ws : Fields}
    (h : List.Forall₂ (KeepsKey f) fs ws) (k : Value) :
    ws.getKey? k = (fs.getKey? k).bind fun v => (f v).toOption := by
  induction h with
  | nil => rfl
  | @cons e w fs ws he hs ih =>
    rw [Fields.getKey?_cons, Fields.getKey?_cons, he.1, ih]
    split
    · rw [Option.bind_some, he.2]
      rfl
    · rfl

theorem getKey?_encodeFields {fs ws : Fields} (h : encodeFields fs = .ok ws) (k : Value) :
    ws.getKey? k = (fs.getKey? k).bind fun v => (encodeValue v).toOption :=
  getKey?_of_keepsKey (encodeFields_ok.mp h) k

end Wire

end ItemStore
