import ItemStore.Proofs.Wire.RoundTrip

/-! Wire values that go back as they came.

What goes on the wire for a value of a caller is canonical: the value that is read from it has the
very same wire form. Types may have changed on the way, a number is a decimal now, a tuple a list,
binary data is in its wrapper, but none of this shows on the wire, and numbers are written in one
way only. `Native` is what the callers' language sees to, for finite numbers: the members of a set
are of types that can be members, and no two of them are the same. -/
namespace ItemStore.Wire

open Outcome Value

/-- Values without parts, other than decimals and floats. -/
def isScalar : Value → Bool
  | .null => true
  | .bool _ => true
  | .int _ => true
  | .text _ => true
  | .torn _ => true
  | .bytes .. => true
  | .date _ => true
  | .wildcard => true
  | _ => false

/-- A value as callers build it, where all numbers are finite. -/
inductive Native : Value → Prop
  | scalar {v : Value} (h : isScalar v = true) : Native v
  | decimal {d : Decimal} (h : d.isFinite = true) : Native (.decimal d)
  | float (negative : Bool) (m : Nat) (e : Int) : Native (.float (.finite negative m e))
  | list {xs : List Value} (h : ∀ x ∈ xs, Native x) : Native (.list xs)
  | tuple {xs : List Value} (h : ∀ x ∈ xs, Native x) : Native (.tuple xs)
  | set {frozen : Bool} {xs : List Value} (h : ∀ x ∈ xs, Native x)
    (hhashable : ∀ x ∈ xs, x.isHashable = true) (hdistinct : Distinct xs) :
    Native (.set frozen xs)
  | map {es : Fields} (h : ∀ e ∈ es, Native e.2) : Native (.map es)

theorem toDecimal_isFinite (negative : Bool) (m : Nat) (e : Int) :
    (Double.finite negative m e).toDecimal.isFinite = true := by
  rw [Double.toDecimal]
  split
  · rfl
  · simp only
    split <;> rfl

/-- Numbers in a native value are finite. -/
theorem Native.number?_isFinite {v : Value} (h : Native v) {d : Decimal}
    (hd : v.number? = some d) : d.isFinite = true := by
  cases h with
  | scalar h => cases v <;> cases h <;> cases hd <;> rfl
  | decimal h =>
    cases hd
    exact h
  | float =>
    cases hd
    rfl
  | list => cases hd
  | tuple => cases hd
  | set => cases hd
  | map => cases hd

theorem isHashable_settle {v : Value} (hv : Native v) (h : v.isHashable = true) :
    (settle v).isHashable = true := by
  cases v with
  | float x =>
    cases hv with
    | scalar h => cases h
    | float negative m e =>
      have := toDecimal_isFinite negative m e
      rw [settle]
      cases hx : (Double.finite negative m e).toDecimal with
      | finite => rfl
      | infinity => rfl
      | nan =>
        rw [hx] at this
        cases this
  | list xs => cases h
  | map es => cases h
  | set frozen xs =>
    cases frozen with
    | true => rfl
    | false => cases h
  | _ => exact h

/-- Floats make way for decimals, and no more changes. -/
theorem Native.settle {v : Value} (h : Native v) : Native (settle v) := by
  induction h with
  | @scalar v h =>
    suffices Wire.settle v = v by
      rw [this]
      exact .scalar h
    cases v <;> cases h <;> rfl
  | decimal h => exact .decimal h
  | float negative m e => exact .decimal (toDecimal_isFinite negative m e)
  | list _ ih =>
    rw [Wire.settle, settleAll_eq]
    exact .list (List.forall_mem_map.mpr ih)
  | tuple h _ => exact .tuple h
  | @set frozen xs h hhashable hdistinct ih =>
    cases frozen with
    | true => exact .set h hhashable hdistinct
    | false =>
      rw [Wire.settle, settleAll_eq]
      refine .set ?_ ?_ (distinct_distinct _)
      · intro u hu
        obtain ⟨x, hx, rfl⟩ := List.mem_map.mp (mem_of_mem_distinct hu)
        exact ih x hx
      · intro u hu
        obtain ⟨x, hx, rfl⟩ := List.mem_map.mp (mem_of_mem_distinct hu)
        exact isHashable_settle (h x hx) (hhashable x hx)
  | map _ ih =>
    rw [Wire.settle, settleEntries_eq]
    exact .map (List.forall_mem_map.mpr ih)

/-! ### Canonical wire values -/

/-- What is read from a wire value goes on the wire as the same value. -/
def Canonical (w : Value) : Prop := ∃ r, decode w = .ok r ∧ settle r = r ∧ encode r = .ok w

/-- A value that comes back as it is. -/
theorem canonical_of_travels {v w : Value} (hsettle : settle v = v) (hv : Travels v v)
    (hw : encode v = .ok w) : Canonical w := by
  obtain ⟨w', hw', hr⟩ := hv
  rw [hsettle, hw] at hw'
  cases hw'
  exact ⟨v, hr, hsettle, hw⟩

theorem canonical_number {d : Decimal} (h : d.Fits) :
    Canonical (WireType.number.wrap (.text d.text)) := by
  refine ⟨.decimal d, ?_, rfl, encode_number (v := .decimal d) rfl h⟩
  rw [decode_wrap, readUnder, decodeNumber_text h]

theorem canonical_bytes {form : BytesForm} (data : List UInt8) (hform : form.wrapped = false) :
    Canonical (WireType.binary.wrap (.bytes form data)) := by
  obtain ⟨mutable, wrapped⟩ := form
  cases hform
  refine ⟨.bytes ⟨mutable, true⟩ data, ?_, rfl, rfl⟩
  rw [decode_wrap]
  rfl

theorem map_settle {xs : List Value} (h : ∀ x ∈ xs, settle x = x) : xs.map settle = xs :=
  (List.map_congr_left h).trans (List.map_id xs)

theorem canonical_list {ws : List Value} (h : ∀ w ∈ ws, Canonical w) :
    Canonical (WireType.list.wrap (.list ws)) := by
  obtain ⟨rs, hrs⟩ := exists_forall₂ h
  have hdecode : decodeAll ws = .ok rs := decodeAll_ok.mpr (hrs.imp fun _ _ hr => hr.1)
  have hencode : encodeAll rs = .ok ws := encodeAll_ok.mpr (hrs.flip.imp fun _ _ hr => hr.2.2)
  refine ⟨.list rs, decode_list hdecode, ?_, encode_list hencode⟩
  rw [settle, settleAll_eq, map_settle]
  intro r hr
  obtain ⟨w, -, hw⟩ := exists_of_mem_right hrs r hr
  exact hw.2.1

theorem canonical_map {es : Fields} (h : ∀ e ∈ es, Canonical e.2) :
    Canonical (WireType.map.wrap (.map es)) := by
  obtain ⟨rs, hrs⟩ : ∃ rs : Fields, List.Forall₂ (fun e r => e.1 = r.1 ∧
      decode e.2 = .ok r.2 ∧ settle r.2 = r.2 ∧ encode r.2 = .ok e.2) es rs :=
    exists_forall₂ fun e he => by
      obtain ⟨r, hr⟩ := h e he
      exact ⟨(e.1, r), rfl, hr⟩
  have hdecode : decodeEntries es = .ok rs :=
    decodeEntries_ok.mpr (hrs.imp fun _ _ hr => ⟨hr.1, hr.2.1⟩)
  have hencode : encodeEntries rs = .ok es :=
    encodeEntries_ok.mpr (hrs.flip.imp fun _ _ hr => ⟨hr.1.symm, hr.2.2.2⟩)
  refine ⟨.map rs, decode_map hdecode, ?_, encode_map hencode⟩
  rw [settle, settleEntries_eq]
  congr 1
  refine (List.map_congr_left fun r hr => ?_).trans (List.map_id rs)
  obtain ⟨w, -, hw⟩ := exists_of_mem_right hrs r hr
  rw [hw.2.2.1, id]

theorem settle_readMember {k : WireType} {us : List Value} (h : Uniform k us) :
    ∀ z ∈ us.map readMember, settle z = z := by
  refine List.forall_mem_map.mpr fun u hu => ?_
  cases h with
  | numbers h =>
    obtain ⟨d, hd, -⟩ := h u hu
    rw [readMember_number hd]
    rfl
  | texts hne h => rw [readMember_text (h u hu), settle_text (h u hu)]
  | binaries hne h =>
    obtain ⟨form, data, rfl, -⟩ := h u hu
    rfl

theorem canonical_set {k : WireType} {us : List Value} (h : Uniform k us) (hd : Distinct us) :
    Canonical (k.wrap (.list (us.map wireMember))) := by
  refine ⟨.set false (us.map readMember), decode_of_uniform h hd, ?_, ?_⟩
  · rw [settle, settleAll_eq, map_settle (settle_readMember h),
      (distinct_readMember h hd).distinct_eq]
  · rw [encode, encodeSet_of_uniform h.map_readMember, List.map_map]
    congr 3
    exact List.map_congr_left (wireMember_readMember h)

/-- The items of a list or a tuple. -/
theorem canonical_encodeAll {xs ws : List Value}
    (h : ∀ x ∈ xs, ∀ w, encode x = .ok w → Canonical w) (hws : encodeAll xs = .ok ws) :
    Canonical (WireType.list.wrap (.list ws)) := by
  refine canonical_list fun w hw => ?_
  obtain ⟨x, hx, hxw⟩ := exists_of_mem_right (encodeAll_ok.mp hws) w hw
  exact h x hx w hxw

/-- **One wire form.** What goes on the wire for a native value is canonical. -/
theorem canonical_of_encode {v : Value} (hv : Native v) {w : Value} (hw : encode v = .ok w) :
    Canonical w := by
  induction hv generalizing w with
  | @scalar v h =>
    cases v with
    | null => exact canonical_of_travels rfl travels_null hw
    | bool b => exact canonical_of_travels rfl (travels_bool b) hw
    | int n =>
      rw [encode, bind_ok] at hw
      obtain ⟨s, hs, hw⟩ := hw
      obtain ⟨hfits, rfl⟩ := (numberText_ok rfl).mp hs
      cases hw
      exact canonical_number hfits
    | text s => exact canonical_of_travels rfl (travels_text rfl) hw
    | torn t => exact canonical_of_travels rfl (travels_text rfl) hw
    | bytes form data =>
      cases hw
      exact canonical_bytes data rfl
    | date d => cases hw
    | wildcard => cases hw
    | _ => cases h
  | decimal h =>
    rw [encode, bind_ok] at hw
    obtain ⟨s, hs, hw⟩ := hw
    obtain ⟨hfits, rfl⟩ := (numberText_ok h).mp hs
    cases hw
    exact canonical_number hfits
  | float => cases hw
  | list _ ih =>
    rw [encode, bind_ok] at hw
    obtain ⟨ws, hws, hw⟩ := hw
    cases hw
    exact canonical_encodeAll (fun x hx w => ih x hx) hws
  | tuple _ ih =>
    rw [encode, bind_ok] at hw
    obtain ⟨ws, hws, hw⟩ := hw
    cases hw
    exact canonical_encodeAll (fun x hx w => ih x hx) hws
  | @set frozen xs h hhashable hdistinct _ =>
    rw [encode] at hw
    obtain ⟨k, hk⟩ := uniform_of_encodeSet hw (fun x hx d => (h x hx).number?_isFinite) hhashable
    rw [encodeSet_of_uniform hk] at hw
    cases hw
    exact canonical_set hk hdistinct
  | map _ ih =>
    rw [encode, bind_ok] at hw
    obtain ⟨ws, hws, hw⟩ := hw
    cases hw
    refine canonical_map fun w hw => ?_
    obtain ⟨x, hx, hxw⟩ := exists_of_mem_right (encodeEntries_ok.mp hws) w hw
    exact ih x hx hxw.2

/-- What is read from the wire form of a native value has that wire form. -/
theorem encodeValue_decodeValue {v w : Value} (hv : Native v) (hw : encodeValue v = .ok w) :
    ∃ r, decodeValue w = .ok r ∧ encodeValue r = .ok w := by
  obtain ⟨r, hr, hsettle, hencode⟩ := canonical_of_encode hv.settle hw
  refine ⟨r.unwrap, ?_, ?_⟩
  · rw [decodeValue, hr]
    rfl
  · cases r with
    | bytes form data => exact hencode
    | _ => exact (congrArg encode hsettle).trans hencode

theorem Native.of_map {es : Fields} (h : Native (.map es)) : ∀ e ∈ es, Native e.2 := by
  cases h with
  | scalar h => cases h
  | map h => exact h

/-- A value of a map that is found under a name. -/
theorem Native.entry {v x : Value} {name : String} (hv : Native v)
    (h : v.entry name = .ok x) : Native x := by
  cases v with
  | map es =>
    rw [Value.entry] at h
    split at h
    · next hx =>
      cases h
      exact hv.of_map _ (Fields.mem_of_getKey? rfl hx)
    · cases h
  | _ => cases h

/-- Entries whose values go back as they came. -/
theorem encodeFields_decodeFields {fs ws : Fields} (hfs : ∀ e ∈ fs, Native e.2)
    (hws : encodeFields fs = .ok ws) :
    ∃ rs, decodeFields ws = .ok rs ∧ encodeFields rs = .ok ws := by
  obtain ⟨rs, hrs⟩ : ∃ rs : Fields, List.Forall₂ (fun w r => w.1 = r.1 ∧
      decodeValue w.2 = .ok r.2 ∧ encodeValue r.2 = .ok w.2) ws rs :=
    exists_forall₂ fun w hw => by
      obtain ⟨e, he, hkey, hew⟩ := exists_of_mem_right (encodeFields_ok.mp hws) w hw
      obtain ⟨r, hr⟩ := encodeValue_decodeValue (hfs e he) hew
      exact ⟨(w.1, r), rfl, hr⟩
  refine ⟨rs, decodeFields_ok.mpr (hrs.imp fun _ _ h => ⟨h.1, h.2.1⟩), ?_⟩
  exact encodeFields_ok.mpr (hrs.flip.imp fun _ _ h => ⟨h.1.symm, h.2.2⟩)

end ItemStore.Wire
