import ItemStore.Proofs.Double.Text
import ItemStore.Proofs.Wire.Sets

/-! Values there and back.

A storable value goes on the wire and comes off it again as the value it was. Numbers come back as
decimals of the same sign, coefficient and exponent, a float as the decimal that its text spells;
texts and truth values come back unchanged, lists and maps in order. Binary data comes back with
its bytes, held in one way or another. The members of a set come back as a set: floats may be the
same number as another member once they are decimals, and are then one member with it.

The proof is by induction on what makes a value storable. `settle` has to replace every float
before the value is encoded, and the sets it rebuilds are of one type as the old ones were. -/
namespace ItemStore

/-- The decimal that a number stands for to the last digit. A float is taken at its text. -/
def Value.asDecimal? : Value → Option Decimal
  | .int n => some (Decimal.ofInt n)
  | .decimal d => some d
  | .float x => Decimal.read? x.text
  | _ => none

/-- As `asDecimal?`, for the members of a set: there truth values count as 0 and 1. -/
def Value.memberDecimal? : Value → Option Decimal
  | .bool b => some (Decimal.ofInt (if b then 1 else 0))
  | v => v.asDecimal?

namespace Wire

open Outcome Value

/-- A value that the store takes without loss. -/
inductive Storable : Value → Prop
  | null : Storable .null
  | bool (b : Bool) : Storable (.bool b)
  | text {v : Value} (h : isText v = true) : Storable v
  | bytes (form : BytesForm) (data : List UInt8) : Storable (.bytes form data)
  | number {v : Value} {d : Decimal} (hd : v.asDecimal? = some d) (h : d.Fits) : Storable v
  | list {xs : List Value} (h : ∀ x ∈ xs, Storable x) : Storable (.list xs)
  | map {es : Fields} (hnames : es.IsNamed) (h : ∀ e ∈ es, Storable e.2) : Storable (.map es)
  | numberSet {xs : List Value} (h : ∀ x ∈ xs, ∃ d, x.memberDecimal? = some d ∧ d.Fits) :
    Storable (.set false xs)
  | textSet {xs : List Value} (h : ∀ x ∈ xs, isText x = true) : Storable (.set false xs)
  | byteSet {xs : List Value} (h : ∀ x ∈ xs, IsBinary x) : Storable (.set false xs)

/-- A member of a set and what comes back for it. -/
inductive RestoresMember : Value → Value → Prop
  | number {x : Value} {d : Decimal} (h : x.memberDecimal? = some d) :
    RestoresMember x (.decimal d)
  | text {x : Value} (h : isText x = true) : RestoresMember x x
  | bytes (f g : BytesForm) (data : List UInt8) :
    RestoresMember (.bytes f data) (.bytes g data)

/-- A value and what comes back for it. -/
inductive Restores : Value → Value → Prop
  | null : Restores .null .null
  | bool (b : Bool) : Restores (.bool b) (.bool b)
  | text {v : Value} (h : isText v = true) : Restores v v
  | bytes (f g : BytesForm) (data : List UInt8) : Restores (.bytes f data) (.bytes g data)
  | number {v : Value} {d : Decimal} (h : v.asDecimal? = some d) : Restores v (.decimal d)
  | list {xs ys : List Value} (h : List.Forall₂ Restores xs ys) : Restores (.list xs) (.list ys)
  | map {es fs : Fields} (hkeys : fs.map (·.1) = es.map (·.1))
    (h : List.Forall₂ Restores (es.map (·.2)) (fs.map (·.2))) : Restores (.map es) (.map fs)
  /-- The members are pairwise different, each comes from an old one, and each old one is there. -/
  | set {xs ys : List Value} (hdistinct : Distinct ys)
    (hfrom : ∀ y ∈ ys, ∃ x ∈ xs, RestoresMember x y)
    (hto : ∀ x ∈ xs, ∃ z, RestoresMember x z ∧ ∃ y ∈ ys, y.same z = true) :
    Restores (.set false xs) (.set false ys)

/-- What goes on the wire for a value comes off it as another one. -/
def Travels (v r : Value) : Prop := ∃ w, encode (settle v) = .ok w ∧ decode w = .ok r

/-! ### Scalars -/

theorem travels_null : Travels .null .null := by
  refine ⟨WireType.null.wrap (.bool true), rfl, ?_⟩
  rw [decode_wrap, readUnder]

theorem travels_bool (b : Bool) : Travels (.bool b) (.bool b) := by
  refine ⟨WireType.bool.wrap (.bool b), rfl, ?_⟩
  rw [decode_wrap, readUnder]

theorem travels_text {v : Value} (h : isText v = true) : Travels v v := by
  rcases isText_iff.mp h with ⟨s, rfl⟩ | ⟨t, rfl⟩
  · refine ⟨WireType.text.wrap (.text s), rfl, ?_⟩
    rw [decode_wrap, readUnder]
  · refine ⟨WireType.text.wrap (.torn t), rfl, ?_⟩
    rw [decode_wrap, readUnder]

theorem encode_number {v : Value} {d : Decimal} (hd : v.asDecimal? = some d) (h : d.Fits) :
    encode (settle v) = .ok (WireType.number.wrap (.text d.text)) := by
  have htext := (numberText_ok (isFinite_of_fits h)).mpr ⟨h, rfl⟩
  cases v with
  | int n =>
    cases hd
    show encode (.int n) = _
    rw [encode, htext]
    rfl
  | decimal e =>
    cases hd
    show encode (.decimal d) = _
    rw [encode, htext]
    rfl
  | float x =>
    have hx : x.toDecimal = d := Option.some.inj ((Double.read?_text x).symm.trans hd)
    rw [settle, hx, encode, htext]
    rfl
  | _ => cases hd

theorem travels_number {v : Value} {d : Decimal} (hd : v.asDecimal? = some d) (h : d.Fits) :
    Travels v (.decimal d) := by
  refine ⟨_, encode_number hd h, ?_⟩
  rw [decode_wrap, readUnder, decodeNumber_text h]

/-! ### Lists and maps -/

/-- A value for each one, and what goes on the wire between them. -/
theorem exists_wires {xs rs : List Value} (h : List.Forall₂ Travels xs rs) :
    ∃ ws, encodeAll (settleAll xs) = .ok ws ∧ decodeAll ws = .ok rs := by
  simp only [settleAll_eq, encodeAll_ok, decodeAll_ok, List.forall₂_map_left_iff]
  induction h with
  | nil => exact ⟨[], .nil, .nil⟩
  | cons hx _ ih =>
    obtain ⟨w, hw, hr⟩ := hx
    obtain ⟨ws, hws, hrs⟩ := ih
    exact ⟨w :: ws, .cons hw hws, .cons hr hrs⟩

theorem travels_list {xs rs : List Value} (h : List.Forall₂ Travels xs rs) :
    Travels (.list xs) (.list rs) := by
  obtain ⟨ws, hws, hrs⟩ := exists_wires h
  refine ⟨WireType.list.wrap (.list ws), ?_, decode_list hrs⟩
  rw [settle, encode_list hws]

theorem travels_map {es rs : Fields}
    (h : List.Forall₂ (fun e r => e.1 = r.1 ∧ Travels e.2 r.2) es rs) :
    Travels (.map es) (.map rs) := by
  suffices ∃ ws, encodeEntries (settleEntries es) = .ok ws ∧ decodeEntries ws = .ok rs by
    obtain ⟨ws, hws, hrs⟩ := this
    refine ⟨WireType.map.wrap (.map ws), ?_, decode_map hrs⟩
    rw [settle, encode_map hws]
  simp only [settleEntries_eq, encodeEntries_ok, decodeEntries_ok, List.forall₂_map_left_iff]
  induction h with
  | nil => exact ⟨[], .nil, .nil⟩
  | @cons e r _ _ he _ ih =>
    obtain ⟨hkey, w, hw, hr⟩ := he
    obtain ⟨ws, hws, hrs⟩ := ih
    exact ⟨(e.1, w) :: ws, .cons ⟨rfl, hw⟩ hws, .cons ⟨hkey, hr⟩ hrs⟩

/-! ### Sets -/

/-- A member that is a number, once it is settled. -/
theorem settle_number {x : Value} {d : Decimal} (hd : x.memberDecimal? = some d)
    (h : d.Fits) : (settle x).number? = some d ∧ IsNumber (settle x) := by
  suffices hs : (settle x).number? = some d ∧ ∀ y, settle x ≠ .float y from
    ⟨hs.1, d, hs.1, h, hs.2⟩
  cases x with
  | bool b => exact ⟨hd, fun y hy => by cases hy⟩
  | int n => exact ⟨hd, fun y hy => by cases hy⟩
  | decimal e => exact ⟨hd, fun y hy => by cases hy⟩
  | float x => exact ⟨(Double.read?_text x).symm.trans hd, fun y hy => by cases hy⟩
  | _ => cases hd

theorem settle_text {x : Value} (h : isText x = true) : settle x = x := by
  rcases isText_iff.mp h with ⟨s, rfl⟩ | ⟨t, rfl⟩
  · rfl
  · rfl

/-- A set of one type, once its floats are decimals. -/
theorem travels_set {k : WireType} {xs : List Value} (h : Uniform k (xs.map settle)) :
    Travels (.set false xs) (.set false ((distinct (xs.map settle)).map readMember)) := by
  have hd := distinct_distinct (xs.map settle)
  refine ⟨_, ?_, decode_of_uniform h.distinct hd⟩
  rw [settle, settleAll_eq, encode, encodeSet_of_uniform h.distinct]

/-- The members that come back are those of the set. -/
theorem restores_set {k : WireType} {xs : List Value} (h : Uniform k (xs.map settle))
    (hmembers : ∀ x ∈ xs, RestoresMember x (readMember (settle x))) :
    Restores (.set false xs) (.set false ((distinct (xs.map settle)).map readMember)) := by
  refine .set (distinct_readMember h.distinct (distinct_distinct _)) ?_ ?_
  · intro y hy
    obtain ⟨u, hu, rfl⟩ := List.mem_map.mp hy
    obtain ⟨x, hx, rfl⟩ := List.mem_map.mp (mem_of_mem_distinct hu)
    exact ⟨x, hx, hmembers x hx⟩
  · intro x hx
    refine ⟨_, hmembers x hx, ?_⟩
    -- `x` itself may be gone: the member kept in its place is like it once both are settled.
    have hsettled : settle x ∈ xs.map settle := List.mem_map_of_mem hx
    obtain ⟨u, hu, hs⟩ := exists_same_mem_distinct (h.same_self _ hsettled) hsettled
    refine ⟨readMember u, List.mem_map_of_mem hu, ?_⟩
    rw [same_readMember h (mem_of_mem_distinct hu) hsettled, hs]

theorem travels_numberSet {xs : List Value}
    (h : ∀ x ∈ xs, ∃ d, x.memberDecimal? = some d ∧ d.Fits) :
    ∃ r, Travels (.set false xs) r ∧ Restores (.set false xs) r := by
  have huniform : Uniform .numberSet (xs.map settle) := by
    refine .numbers (List.forall_mem_map.mpr fun x hx => ?_)
    obtain ⟨d, hd, hfits⟩ := h x hx
    exact (settle_number hd hfits).2
  refine ⟨_, travels_set huniform, restores_set huniform fun x hx => ?_⟩
  obtain ⟨d, hd, hfits⟩ := h x hx
  rw [readMember_number (settle_number hd hfits).1]
  exact .number hd

theorem travels_textSet {xs : List Value} (h : ∀ x ∈ xs, isText x = true) :
    ∃ r, Travels (.set false xs) r ∧ Restores (.set false xs) r := by
  -- An empty set goes on the wire as one of numbers, whatever it was meant to hold.
  rcases eq_or_ne xs [] with rfl | hne
  · exact travels_numberSet (by simp)
  have huniform : Uniform .textSet (xs.map settle) := by
    refine .texts (by simpa using hne) (List.forall_mem_map.mpr fun x hx => ?_)
    rw [settle_text (h x hx)]
    exact h x hx
  refine ⟨_, travels_set huniform, restores_set huniform fun x hx => ?_⟩
  rw [settle_text (h x hx), readMember_text (h x hx)]
  exact .text (h x hx)

theorem travels_byteSet {xs : List Value} (h : ∀ x ∈ xs, IsBinary x) :
    ∃ r, Travels (.set false xs) r ∧ Restores (.set false xs) r := by
  rcases eq_or_ne xs [] with rfl | hne
  · exact travels_numberSet (by simp)
  have huniform : Uniform .binarySet (xs.map settle) := by
    refine .binaries (by simpa using hne) (List.forall_mem_map.mpr fun x hx => ?_)
    obtain ⟨form, data, rfl, hform⟩ := h x hx
    exact ⟨form, data, rfl, hform⟩
  refine ⟨_, travels_set huniform, restores_set huniform fun x hx => ?_⟩
  obtain ⟨form, data, rfl, -⟩ := h x hx
  exact .bytes form _ data

/-! ### There and back -/

theorem Storable.travels {v : Value} (h : Storable v) : ∃ r, Travels v r ∧ Restores v r := by
  induction h with
  | null => exact ⟨_, travels_null, .null⟩
  | bool b => exact ⟨_, travels_bool b, .bool b⟩
  | text h => exact ⟨_, travels_text h, .text h⟩
  | bytes form data =>
    refine ⟨.bytes { form with wrapped := true } data,
      ⟨WireType.binary.wrap (.bytes { form with wrapped := false } data), rfl, ?_⟩, .bytes ..⟩
    rw [decode_wrap]
    rfl
  | number hd h => exact ⟨_, travels_number hd h, .number hd⟩
  | list _ ih =>
    obtain ⟨rs, hrs⟩ := exists_forall₂ ih
    exact ⟨.list rs, travels_list (hrs.imp fun _ _ h => h.1), .list (hrs.imp fun _ _ h => h.2)⟩
  | @map es _ _ ih =>
    obtain ⟨rs, hrs⟩ : ∃ rs : Fields, List.Forall₂
        (fun e r => e.1 = r.1 ∧ Travels e.2 r.2 ∧ Restores e.2 r.2) es rs :=
      exists_forall₂ fun e he => by
        obtain ⟨r, hr⟩ := ih e he
        exact ⟨(e.1, r), rfl, hr⟩
    refine ⟨.map rs, travels_map (hrs.imp fun _ _ h => ⟨h.1, h.2.1⟩), .map ?_ ?_⟩
    · exact keys_eq (fun _ _ h => h.1) hrs
    · rw [List.forall₂_map_left_iff, List.forall₂_map_right_iff]
      exact hrs.imp fun _ _ h => h.2.2
  | numberSet h => exact travels_numberSet h
  | textSet h => exact travels_textSet h
  | byteSet h => exact travels_byteSet h

/-- Binary data is restored with or without its wrapper. -/
theorem Restores.unwrap {v r : Value} (h : Restores v r) : Restores v r.unwrap := by
  cases r with
  | bytes form data =>
    cases h with
    | bytes f => exact .bytes ..
    | text h => cases h
  | _ => exact h

/-- **There and back.** Every storable value has a wire form, and the value of that wire form
restores it. -/
theorem decodeValue_encodeValue {v : Value} (h : Storable v) :
    ∃ w r, encodeValue v = .ok w ∧ decodeValue w = .ok r ∧ Restores v r := by
  obtain ⟨r, ⟨w, hw, hr⟩, hrestores⟩ := h.travels
  refine ⟨w, r.unwrap, hw, ?_, hrestores.unwrap⟩
  rw [decodeValue, hr]
  rfl

/-- A list and a set side by side. The float in the set is `0.1` once it is settled, as the decimal
next to it is, so two of its three members come back. -/
theorem decodeValue_encodeValue_nested :
    let v : Value := .map [
      (.text "list", .list [.null, .float (.finite true 7205759403792794 (-56))]),
      (.text "set", .set false [.float (.finite false 7205759403792794 (-56)),
        .decimal (.finite false 1 (-1)), .bool true])]
    Storable v ∧ ∃ w r, encodeValue v = .ok w ∧ decodeValue w = .ok r ∧ Restores v r := by
  intro v
  suffices h : Storable v from ⟨h, decodeValue_encodeValue h⟩
  have htenth (negative : Bool) : Decimal.read? (Double.text (.finite negative 7205759403792794
      (-56))) = some (.finite negative 1 (-1)) := by
    cases negative <;> decide +kernel
  have hfits (negative : Bool) : (Decimal.finite negative 1 (-1)).Fits := by
    cases negative <;> decide
  refine .map (by decide) ?_
  simp only [List.forall_mem_cons, List.not_mem_nil, false_imp_iff, forall_const, and_true]
  constructor
  · refine .list ?_
    simp only [List.forall_mem_cons, List.not_mem_nil, false_imp_iff, forall_const, and_true]
    exact ⟨.null, .number (htenth true) (hfits true)⟩
  · refine .numberSet ?_
    simp only [List.forall_mem_cons, List.not_mem_nil, false_imp_iff, forall_const, and_true]
    exact ⟨⟨_, htenth false, hfits false⟩, ⟨_, rfl, hfits false⟩, ⟨_, rfl, by decide⟩⟩

end Wire

end ItemStore
