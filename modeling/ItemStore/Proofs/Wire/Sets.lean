import ItemStore.Proofs.Value.Distinct
import ItemStore.Proofs.Wire.Number
import ItemStore.Proofs.Wire.Parts

/-! Sets on the wire.

A set travels as the list of its members, all of one type: numbers, texts or plain binary data. It
can be said of each member alone what goes on the wire for it and what comes off, so a set of one
type comes back member by member, in order. A set that is put on the wire at all is of one type. -/
namespace ItemStore

theorem Decimal.sameNumber_self {d : Decimal} (h : d.isFinite = true) : d.sameNumber d = true := by
  cases d with
  | infinity => cases h
  | nan => cases h
  | finite negative c e =>
    rw [sameNumber, beq_self_eq_true, Bool.true_or, Bool.true_and, compareMagnitude]
    split <;> simp

namespace Wire

open Outcome Value

/-! ### Members -/

/-- A number that fits, and is no float. -/
def IsNumber (u : Value) : Prop := ∃ d, u.number? = some d ∧ d.Fits ∧ ∀ x, u ≠ .float x

/-- Binary data that can be a member of a set. -/
def IsBinary (u : Value) : Prop := ∃ form data, u = .bytes form data ∧ form.mutable = false

/-- What goes on the wire for a member. -/
def wireMember (u : Value) : Value :=
  match u.number? with
  | some d => .text d.text
  | none => u.unwrap

/-- What comes off the wire for a member. -/
def readMember (u : Value) : Value :=
  match u.number?, u with
  | some d, _ => .decimal d
  | none, .bytes form data => .bytes { form with wrapped := true } data
  | none, u => u

theorem isText_iff {u : Value} :
    isText u = true ↔ (∃ s, u = .text s) ∨ ∃ t, u = .torn t := by
  cases u <;> simp [isText, points?]

theorem isText_ofPoints (ps : Text.Points) : isText (ofPoints ps) = true := by
  unfold ofPoints
  split
  · rfl
  · rfl

theorem isBytes_iff {u : Value} : isBytes u = true ↔ ∃ form data, u = .bytes form data := by
  cases u <;> simp [isBytes]

theorem wireMember_number {u : Value} {d : Decimal} (h : u.number? = some d) :
    wireMember u = .text d.text := by
  rw [wireMember, h]

theorem readMember_number {u : Value} {d : Decimal} (h : u.number? = some d) :
    readMember u = .decimal d := by
  simp only [readMember, h]

theorem wireMember_text {u : Value} (h : isText u = true) : wireMember u = u := by
  rcases isText_iff.mp h with ⟨s, rfl⟩ | ⟨t, rfl⟩
  · rfl
  · rfl

theorem readMember_text {u : Value} (h : isText u = true) : readMember u = u := by
  rcases isText_iff.mp h with ⟨s, rfl⟩ | ⟨t, rfl⟩
  · rfl
  · rfl

theorem number?_of_isText {u : Value} (h : isText u = true) : u.number? = none := by
  rcases isText_iff.mp h with ⟨s, rfl⟩ | ⟨t, rfl⟩
  · rfl
  · rfl

/-- Only a NaN is found again by its number. -/
theorem not_isShared_of_isFinite {u : Value} {d : Decimal} (hu : u.number? = some d)
    (hd : d.isFinite = true) (v : Value) : u.isShared v = false := by
  cases u with
  | decimal d' =>
    cases hu
    cases d with
    | finite s c e => cases v <;> rfl
    | _ => cases hd
  | float x =>
    cases hu
    cases x with
    | nan i => cases hd
    | _ => cases v <;> rfl
  | _ => rfl

theorem same_numbers {u v : Value} {d e : Decimal} (hu : u.number? = some d)
    (hv : v.number? = some e) : u.same v = (u.isShared v || d.sameNumber e) := by
  cases u <;> cases hu <;> cases v <;> cases hv <;> simp only [same, sameScalar, number?]

theorem same_number {u v : Value} {d e : Decimal} (hu : u.number? = some d)
    (hd : d.isFinite = true) (hv : v.number? = some e) : u.same v = d.sameNumber e := by
  rw [same_numbers hu hv, not_isShared_of_isFinite hu hd, Bool.false_or]

/-- Members all of one type. A set without members counts as one of numbers. -/
inductive Uniform : WireType → List Value → Prop
  | numbers {us : List Value} (h : ∀ u ∈ us, IsNumber u) : Uniform .numberSet us
  | texts {us : List Value} (hne : us ≠ []) (h : ∀ u ∈ us, isText u = true) : Uniform .textSet us
  | binaries {us : List Value} (hne : us ≠ []) (h : ∀ u ∈ us, IsBinary u) : Uniform .binarySet us

theorem Uniform.same_self {k : WireType} {us : List Value} (h : Uniform k us) :
    ∀ u ∈ us, u.same u = true := by
  intro u hu
  cases h with
  | numbers h =>
    obtain ⟨d, hd, hfits, -⟩ := h u hu
    have hfinite := isFinite_of_fits hfits
    rw [same_number hd hfinite hd, Decimal.sameNumber_self hfinite]
  | texts hne h => exact Fields.name_same_self (h u hu)
  | binaries hne h =>
    obtain ⟨form, data, rfl, -⟩ := h u hu
    simp only [same, sameScalar, beq_self_eq_true]

/-- Members that repeat another one do not count. -/
theorem Uniform.distinct {k : WireType} {us : List Value} (h : Uniform k us) :
    Uniform k (distinct us) := by
  have hself := h.same_self
  have hne : us ≠ [] → Value.distinct us ≠ [] := by
    intro hne
    obtain ⟨u, hu⟩ := List.exists_mem_of_ne_nil us hne
    obtain ⟨v, hv, -⟩ := exists_same_mem_distinct (hself u hu) hu
    exact List.ne_nil_of_mem hv
  cases h with
  | numbers h => exact .numbers fun u hu => h u (mem_of_mem_distinct hu)
  | texts h0 h => exact .texts (hne h0) fun u hu => h u (mem_of_mem_distinct hu)
  | binaries h0 h => exact .binaries (hne h0) fun u hu => h u (mem_of_mem_distinct hu)

/-! ### Onto the wire -/

theorem allNumbers_eq {us : List Value} (h : ∀ u ∈ us, ∀ x, u ≠ .float x) :
    allNumbers us = .ok (us.all fun u => u.number?.isSome) := by
  induction us with
  | nil => rfl
  | cons u us ih =>
    rw [allNumbers, ih fun v hv => h v (List.mem_cons_of_mem _ hv), List.all_cons]
    · cases u.number?.isSome <;> rfl
    · exact h u (List.mem_cons_self ..)

/-- Only numbers are looked at that are no floats. -/
theorem allNumbers_ok {us : List Value} (h : allNumbers us = .ok true) :
    ∀ u ∈ us, (∃ d, u.number? = some d) ∧ ∀ x, u ≠ .float x := by
  induction us with
  | nil => exact List.forall_mem_nil _
  | cons u us ih =>
    have hfloat : ∀ x, u ≠ .float x := by
      intro x hx
      rw [hx] at h
      cases h
    rw [allNumbers] at h
    · split at h
      · next hsome =>
        exact List.forall_mem_cons.mpr ⟨⟨Option.isSome_iff_exists.mp hsome, hfloat⟩, ih h⟩
      · cases h
    · exact hfloat

theorem memberText_ok {u t : Value} : memberText u = .ok t ↔
    ∃ d s, u.number? = some d ∧ numberText d = .ok s ∧ t = .text s := by
  rw [memberText]
  cases u.number? with
  | none => simp
  | some d =>
    simp only [map_ok, Option.some.injEq, exists_and_left, exists_eq_left']
    simp only [eq_comm]

/-- A list of members and its wire form. No members count as numbers. -/
inductive SetWire (us : List Value) : Value → Prop
  | numbers {ts : List Value} (hfloat : ∀ u ∈ us, ∀ x, u ≠ .float x)
    (h : List.Forall₂ (fun u t => memberText u = .ok t) us ts) :
    SetWire us (WireType.numberSet.wrap (.list ts))
  | texts (hne : us ≠ []) (h : ∀ u ∈ us, isText u = true) :
    SetWire us (WireType.textSet.wrap (.list us))
  | binaries (hne : us ≠ []) (h : ∀ u ∈ us, isBytes u = true) :
    SetWire us (WireType.binarySet.wrap (.list (us.map Value.unwrap)))

theorem number?_of_isBytes {u : Value} (h : isBytes u = true) : u.number? = none := by
  obtain ⟨form, data, rfl⟩ := isBytes_iff.mp h
  rfl

theorem allNumbers_of_other {us : List Value} (hne : us ≠ []) (h : ∀ u ∈ us, u.number? = none) :
    allNumbers us = .ok false := by
  obtain ⟨u, us, rfl⟩ := List.exists_cons_of_ne_nil hne
  rw [allNumbers_eq, List.all_cons, h u (List.mem_cons_self ..)]
  · rfl
  · intro v hv x hx
    have hnumber := h v hv
    rw [hx] at hnumber
    cases hnumber

/-- **Sets.** A set goes on the wire as one of numbers, of texts or of binary data, whether it is
frozen or not. -/
theorem encodeSet_ok {frozen : Bool} {us : List Value} {w : Value} :
    encodeSet frozen us = .ok w ↔ SetWire us w := by
  constructor
  · intro h
    obtain ⟨numbers, hnumbers, h⟩ := bind_ok.mp h
    cases numbers with
    | true =>
      obtain ⟨ts, hts, h⟩ := bind_ok.mp h
      cases h
      exact .numbers (fun u hu => (allNumbers_ok hnumbers u hu).2) (mapM_ok.mp hts)
    | false =>
      have hne : us ≠ [] := by
        rintro rfl
        cases hnumbers
      rw [if_neg Bool.false_ne_true] at h
      split at h
      · next htexts =>
        cases h
        exact .texts hne (List.all_eq_true.mp htexts)
      · split at h
        · next hbytes =>
          cases h
          exact .binaries hne (List.all_eq_true.mp hbytes)
        · cases h
  · intro h
    cases h with
    | @numbers ts hfloat h =>
      have hall : us.all (fun u => u.number?.isSome) = true := by
        refine List.all_eq_true.mpr fun u hu => ?_
        obtain ⟨t, -, ht⟩ := exists_of_mem_left h u hu
        obtain ⟨d, s, hd, -⟩ := memberText_ok.mp ht
        rw [hd]
        rfl
      rw [encodeSet, allNumbers_eq hfloat, hall, ok_bind, if_pos rfl, mapM_ok.mpr h]
      rfl
    | texts hne h =>
      rw [encodeSet, allNumbers_of_other hne fun u hu => number?_of_isText (h u hu), ok_bind,
        if_neg Bool.false_ne_true, if_pos (List.all_eq_true.mpr h)]
      rfl
    | binaries hne h =>
      have htexts : ¬ us.all isText = true := by
        obtain ⟨u, hu⟩ := List.exists_mem_of_ne_nil us hne
        intro hall
        obtain ⟨form, data, rfl⟩ := isBytes_iff.mp (h u hu)
        cases List.all_eq_true.mp hall _ hu
      rw [encodeSet, allNumbers_of_other hne fun u hu => number?_of_isBytes (h u hu), ok_bind,
        if_neg Bool.false_ne_true, if_neg htexts, if_pos (List.all_eq_true.mpr h)]
      rfl

theorem memberText_of_isNumber {u : Value} (h : IsNumber u) :
    memberText u = .ok (wireMember u) := by
  obtain ⟨d, hd, hfits, -⟩ := h
  have htext := (numberText_ok (isFinite_of_fits hfits)).mpr ⟨hfits, rfl⟩
  exact memberText_ok.mpr ⟨d, d.text, hd, htext, wireMember_number hd⟩

/-- A set of one type goes on the wire member by member. -/
theorem encodeSet_of_uniform {k : WireType} {us : List Value} (h : Uniform k us)
    (frozen : Bool) : encodeSet frozen us = .ok (k.wrap (.list (us.map wireMember))) := by
  refine encodeSet_ok.mpr ?_
  cases h with
  | numbers h =>
    refine .numbers (fun u hu => ?_) ?_
    · obtain ⟨-, -, -, hfloat⟩ := h u hu
      exact hfloat
    · rw [List.forall₂_map_right_iff, List.forall₂_same]
      exact fun u hu => memberText_of_isNumber (h u hu)
  | texts hne h =>
    have hmap : us.map wireMember = us :=
      (List.map_congr_left fun u hu => wireMember_text (h u hu)).trans (List.map_id us)
    rw [hmap]
    exact .texts hne h
  | binaries hne h =>
    have hbytes : ∀ u ∈ us, isBytes u = true := by
      intro u hu
      obtain ⟨form, data, rfl, -⟩ := h u hu
      rfl
    have hmap : us.map wireMember = us.map Value.unwrap :=
      List.map_congr_left fun u hu => by rw [wireMember, number?_of_isBytes (hbytes u hu)]
    rw [hmap]
    exact .binaries hne hbytes

/-! ### Off the wire -/

theorem decodeSet_ok {member : Value → Except Fault Value} {ws zs : List Value}
    (h : List.Forall₂ (fun w z => member w = .ok z ∧ z.isHashable = true) ws zs) :
    decodeSet member (.list ws) = .ok (.set false (distinct zs)) := by
  rw [decodeSet, bind_ok]
  refine ⟨ws, rfl, ?_⟩
  rw [bind_ok]
  refine ⟨zs, ?_, rfl⟩
  rw [mapM_ok]
  refine h.imp fun w z hwz => ?_
  rw [bind_ok]
  refine ⟨z, hwz.1, ?_⟩
  rw [if_pos hwz.2]
  rfl

/-- How a set of a type reads its members. -/
def memberReader : WireType → Value → Except Fault Value
  | .numberSet => decodeNumber
  | .binarySet => decodeBinary
  | _ => .ok

theorem Uniform.readUnder_eq {k : WireType} {us : List Value} (h : Uniform k us) :
    readUnder k = decodeSet (memberReader k) := by
  cases h with
  | numbers => rfl
  | texts => rfl
  | binaries => rfl

theorem memberReader_wireMember {k : WireType} {us : List Value} (h : Uniform k us) :
    ∀ u ∈ us, memberReader k (wireMember u) = .ok (readMember u) ∧
      (readMember u).isHashable = true := by
  intro u hu
  cases h with
  | numbers h =>
    obtain ⟨d, hd, hfits, -⟩ := h u hu
    rw [wireMember_number hd, readMember_number hd]
    refine ⟨decodeNumber_text hfits, ?_⟩
    cases d with
    | finite => rfl
    | infinity => rfl
    | nan => cases hfits
  | texts hne h =>
    rw [wireMember_text (h u hu), readMember_text (h u hu)]
    refine ⟨rfl, ?_⟩
    rcases isText_iff.mp (h u hu) with ⟨s, rfl⟩ | ⟨t, rfl⟩
    · rfl
    · rfl
  | binaries hne h =>
    obtain ⟨form, data, rfl, hform⟩ := h u hu
    refine ⟨rfl, ?_⟩
    simp only [readMember, number?, isHashable, hform, Bool.not_false]

/-- Members that differ come off the wire as members that differ. -/
theorem same_readMember {k : WireType} {us : List Value} (h : Uniform k us) {u v : Value}
    (hu : u ∈ us) (hv : v ∈ us) : (readMember u).same (readMember v) = u.same v := by
  cases h with
  | numbers h =>
    obtain ⟨d, hd, hfits, -⟩ := h u hu
    obtain ⟨e, he, -⟩ := h v hv
    have hfinite := isFinite_of_fits hfits
    rw [readMember_number hd, readMember_number he, same_number hd hfinite he]
    exact same_number rfl hfinite rfl
  | texts hne h => rw [readMember_text (h u hu), readMember_text (h v hv)]
  | binaries hne h =>
    obtain ⟨f, a, rfl, -⟩ := h u hu
    obtain ⟨g, b, rfl, -⟩ := h v hv
    simp only [readMember, number?, same, sameScalar]

theorem distinct_readMember {k : WireType} {us : List Value} (h : Uniform k us)
    (hd : Distinct us) : Distinct (us.map readMember) := by
  refine List.pairwise_map.mpr (hd.imp_of_mem fun hu hv hs => ?_)
  rw [same_readMember h hu hv, hs]

/-- **Member by member.** A set of one type comes off the wire with its members in order. -/
theorem decode_of_uniform {k : WireType} {us : List Value} (h : Uniform k us)
    (hd : Distinct us) :
    decode (k.wrap (.list (us.map wireMember))) = .ok (.set false (us.map readMember)) := by
  have hmembers : List.Forall₂ (fun w z => memberReader k w = .ok z ∧ z.isHashable = true)
      (us.map wireMember) (us.map readMember) := by
    rw [List.forall₂_map_left_iff, List.forall₂_map_right_iff, List.forall₂_same]
    exact memberReader_wireMember h
  rw [decode_wrap, h.readUnder_eq, decodeSet_ok hmembers, (distinct_readMember h hd).distinct_eq]

/-! ### What is of one type -/

theorem wireMember_readMember {k : WireType} {us : List Value} (h : Uniform k us) :
    ∀ u ∈ us, wireMember (readMember u) = wireMember u := by
  intro u hu
  cases h with
  | numbers h =>
    obtain ⟨d, hd, -⟩ := h u hu
    rw [readMember_number hd, wireMember_number hd]
    exact wireMember_number rfl
  | texts hne h => rw [readMember_text (h u hu)]
  | binaries hne h =>
    obtain ⟨form, data, rfl, -⟩ := h u hu
    rfl

/-- The members that come off the wire are of the same type again. -/
theorem Uniform.map_readMember {k : WireType} {us : List Value} (h : Uniform k us) :
    Uniform k (us.map readMember) := by
  cases h with
  | numbers h =>
    refine .numbers (List.forall_mem_map.mpr fun u hu => ?_)
    obtain ⟨d, hd, hfits, -⟩ := h u hu
    rw [readMember_number hd]
    refine ⟨d, rfl, hfits, ?_⟩
    intro x hx
    cases hx
  | texts hne h =>
    refine .texts (by simpa using hne) (List.forall_mem_map.mpr fun u hu => ?_)
    rw [readMember_text (h u hu)]
    exact h u hu
  | binaries hne h =>
    refine .binaries (by simpa using hne) (List.forall_mem_map.mpr fun u hu => ?_)
    obtain ⟨form, data, rfl, hform⟩ := h u hu
    exact ⟨{ form with wrapped := true }, data, rfl, hform⟩

/-- **One type.** A set that goes on the wire, with finite numbers and members that can be members,
is of one type. -/
theorem uniform_of_encodeSet {frozen : Bool} {us : List Value} {w : Value}
    (h : encodeSet frozen us = .ok w)
    (hfinite : ∀ u ∈ us, ∀ d, u.number? = some d → d.isFinite = true)
    (hhashable : ∀ u ∈ us, u.isHashable = true) : ∃ k, Uniform k us := by
  replace h := encodeSet_ok.mp h
  cases h with
  | numbers hfloat h =>
    refine ⟨_, .numbers fun u hu => ?_⟩
    obtain ⟨t, -, ht⟩ := exists_of_mem_left h u hu
    obtain ⟨d, s, hd, hs, -⟩ := memberText_ok.mp ht
    exact ⟨d, hd, ((numberText_ok (hfinite u hu d hd)).mp hs).1, hfloat u hu⟩
  | texts hne h => exact ⟨_, .texts hne h⟩
  | binaries hne h =>
    refine ⟨_, .binaries hne fun u hu => ?_⟩
    obtain ⟨form, data, rfl⟩ := isBytes_iff.mp (h u hu)
    exact ⟨form, data, rfl, by simpa [isHashable] using hhashable _ hu⟩

end Wire

end ItemStore
