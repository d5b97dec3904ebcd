import ItemStore.Proofs.Wire.Numeral
import ItemStore.Proofs.Wire.Refusal
import Mathlib.Data.List.Perm.Basic

/-! Lists and tuples, sets and frozen sets.

A tuple goes on the wire as a list does, and a frozen set as a set, so it should not matter in which
of the two the same values are passed. It does not, with one exception: floats are replaced by
decimals in lists, maps and sets, but not in tuples and frozen sets, where they stay and are refused
(`Value.Strands`). `serialised_alike` says that nothing else is different: without a stranded float
a value and the same value in other containers go on the wire together, with the members of sets
perhaps in another order, or are both refused. -/
namespace ItemStore

open Outcome

namespace Value

/-- As it is in the language of the callers: no two members of a set in it are the same. -/
def Proper (v : Value) : Prop := ∀ frozen xs, (Value.set frozen xs).Within v → Distinct xs

/-- Whether floats in the value are not looked for. -/
def isFixed : Value → Bool
  | .tuple _ => true
  | .set frozen _ => frozen
  | _ => false

/-- A float stands in a tuple or in a frozen set, at some depth. -/
def Strands (v : Value) : Prop := ∃ t x, t.Within v ∧ t.isFixed = true ∧ (Value.float x).Within t

/-- The second value is the first one with some of its tuples turned into lists, and some of its
frozen sets into sets. What stands in a set is left as it is. -/
inductive Reflavoured : Value → Value → Prop
  | same (v : Value) : Reflavoured v v
  | list {xs ys : List Value} (h : List.Forall₂ Reflavoured xs ys) :
    Reflavoured (.list xs) (.list ys)
  | tuple {xs ys : List Value} (h : List.Forall₂ Reflavoured xs ys) :
    Reflavoured (.tuple xs) (.tuple ys)
  | unpacked {xs ys : List Value} (h : List.Forall₂ Reflavoured xs ys) :
    Reflavoured (.tuple xs) (.list ys)
  | thawed {xs ys : List Value} (h : xs.Perm ys) (hdistinct : Distinct ys) :
    Reflavoured (.set true xs) (.set false ys)
  | map {es fs : Fields} (hkeys : es.map (·.1) = fs.map (·.1))
    (h : List.Forall₂ Reflavoured (es.map (·.2)) (fs.map (·.2))) : Reflavoured (.map es) (.map fs)

theorem Proper.inner {v x : Value} (h : v.Proper) (hx : x ∈ v.inner) : x.Proper :=
  fun frozen xs hset => h frozen xs (.inner hx hset)

theorem proper_of_not_isContainer {v : Value} (h : v.isContainer = false) : v.Proper := by
  intro frozen xs hset
  obtain rfl := (within_iff_eq h).mp hset
  cases h

/-- A value that is no set is proper if all it is built of is. -/
theorem proper_of_inner {v : Value} (hv : ∀ frozen xs, v ≠ .set frozen xs)
    (h : ∀ x ∈ v.inner, x.Proper) : v.Proper := by
  intro frozen xs hset
  cases hset with
  | refl => exact absurd rfl (hv frozen xs)
  | inner hx hset => exact h _ hx frozen xs hset

theorem proper_set {frozen : Bool} {xs : List Value} (hdistinct : Distinct xs)
    (h : ∀ x ∈ xs, x.Proper) : (set frozen xs).Proper := by
  intro _ ys hset
  cases hset with
  | refl => exact hdistinct
  | inner hx hset => exact h _ hx _ ys hset

theorem Strands.of_inner {v x : Value} (hx : x ∈ v.inner) (h : x.Strands) : v.Strands := by
  obtain ⟨t, y, ht, hfixed, hy⟩ := h
  exact ⟨t, y, .inner hx ht, hfixed, hy⟩

/-- The containers change, and nothing else: what is not built of others was there before. -/
theorem Reflavoured.within {u v t : Value} (h : Reflavoured u v) (ht : t.isContainer = false)
    (hv : t.Within v) : t.Within u := by
  induction u using Value.induct generalizing v with
  | step u ih =>
  have hparts (hc : v.isContainer = true) (h : List.Forall₂ Reflavoured u.inner v.inner) :
      t.Within u := by
    cases hv with
    | refl => exact absurd hc (ht ▸ Bool.false_ne_true)
    | inner hy hv =>
      obtain ⟨x, hx, hxy⟩ := exists_of_mem_right h _ hy
      exact .inner hx (ih x hx hxy hv)
  cases h with
  | same => exact hv
  | list h | tuple h | unpacked h => exact hparts rfl h
  | map hkeys h => exact hparts rfl h
  | thawed h =>
    cases hv with
    | refl => cases ht
    | inner hy hv => exact .inner (h.mem_iff.mpr hy) hv

/-- The numbers are the same, with those that count as numbers in a set. -/
theorem Reflavoured.holds {u v : Value} {d : Decimal} (h : Reflavoured u v) (hv : v.Holds d) :
    u.Holds d := by
  induction u using Value.induct generalizing v with
  | step u ih =>
  have hparts (hnumber : v.asDecimal? = none) (hset : ∀ frozen xs, v ≠ .set frozen xs)
      (h : List.Forall₂ Reflavoured u.inner v.inner) : u.Holds d := by
    obtain ⟨y, hy, hv⟩ := (holds_iff_exists hnumber hset).mp hv
    obtain ⟨x, hx, hxy⟩ := exists_of_mem_right h y hy
    exact .inner hx (ih x hx hxy hv)
  cases h with
  | same => exact hv
  | list h | tuple h | unpacked h => exact hparts rfl nofun h
  | map hkeys h => exact hparts rfl nofun h
  | thawed h =>
    cases hv with
    | number hd => cases hd
    | member hy hd => exact .member (h.mem_iff.mpr hy) hd
    | inner hy hv => exact .inner (h.mem_iff.mpr hy) hv

theorem Reflavoured.proper {u v : Value} (h : Reflavoured u v) (hu : u.Proper) : v.Proper := by
  induction u using Value.induct generalizing v with
  | step u ih =>
  have hparts (h : List.Forall₂ Reflavoured u.inner v.inner) : ∀ y ∈ v.inner, y.Proper := by
    intro y hy
    obtain ⟨x, hx, hxy⟩ := exists_of_mem_right h y hy
    exact ih x hx hxy (hu.inner hx)
  cases h with
  | same => exact hu
  | list h | tuple h | unpacked h => exact proper_of_inner nofun (hparts h)
  | map hkeys h => exact proper_of_inner nofun (hparts h)
  | thawed h hdistinct => exact proper_set hdistinct fun y hy => hu.inner (h.mem_iff.mpr hy)

end Value

namespace Wire

open Value

/-- The same wire value, with the members of sets in any order. -/
inductive SameWire : Value → Value → Prop
  | refl (w : Value) : SameWire w w
  | set {t : WireType} {xs ys : List Value} (ht : t = .numberSet ∨ t = .textSet ∨ t = .binarySet)
    (h : xs.Perm ys) : SameWire (t.wrap (.list xs)) (t.wrap (.list ys))
  | list {xs ys : List Value} (h : List.Forall₂ SameWire xs ys) :
    SameWire (WireType.list.wrap (.list xs)) (WireType.list.wrap (.list ys))
  | map {es fs : Fields} (hkeys : es.map (·.1) = fs.map (·.1))
    (h : List.Forall₂ SameWire (es.map (·.2)) (fs.map (·.2))) :
    SameWire (WireType.map.wrap (.map es)) (WireType.map.wrap (.map fs))

/-! ### Part by part -/

theorem encodeAll_agree {xs ys : List Value}
    (h : List.Forall₂ (fun x y => Agree SameWire (encode x) (encode y)) xs ys) :
    Agree (List.Forall₂ SameWire) (encodeAll xs) (encodeAll ys) := by
  induction h with
  | nil => exact .ok .nil
  | cons hxy _ ih =>
    rw [encodeAll, encodeAll]
    exact hxy.bind fun _ _ hw => ih.bind fun _ _ hws => .ok (.cons hw hws)

theorem encodeEntries_agree {es fs : Fields}
    (h : List.Forall₂ (fun e f => e.1 = f.1 ∧ Agree SameWire (encode e.2) (encode f.2)) es fs) :
    Agree (List.Forall₂ fun e f => e.1 = f.1 ∧ SameWire e.2 f.2) (encodeEntries es)
      (encodeEntries fs) := by
  induction h with
  | nil => exact .ok .nil
  | cons hef _ ih =>
    rw [encodeEntries, encodeEntries]
    exact hef.2.bind fun _ _ hw => ih.bind fun _ _ hws => .ok (.cons ⟨hef.1, hw⟩ hws)

theorem maps_agree {es fs : Fields}
    (h : List.Forall₂ (fun e f => e.1 = f.1 ∧ Agree SameWire (encode e.2) (encode f.2)) es fs) :
    Agree SameWire (encode (.map es)) (encode (.map fs)) := by
  rw [encode, encode]
  refine (encodeEntries_agree h).bind fun _ _ hws => .ok ?_
  obtain ⟨hkeys, hvalues⟩ := forall₂_entries_iff.mp hws
  exact .map hkeys hvalues

/-- Items go on the wire in the same way, be it from a list or from a tuple. -/
theorem items_agree {u v : Value} {xs ys : List Value}
    (hu : encode u = do return WireType.list.wrap (.list (← encodeAll xs)))
    (hv : encode v = do return WireType.list.wrap (.list (← encodeAll ys)))
    (h : List.Forall₂ (fun x y => Agree SameWire (encode x) (encode y)) xs ys) :
    Agree SameWire (encode u) (encode v) := by
  rw [hu, hv]
  exact (encodeAll_agree h).bind fun _ _ hws => .ok (.list hws)

/-- The order of the members shows on the wire, and nothing else does. -/
theorem SetWire.perm {xs ys : List Value} {w : Value} (h : SetWire xs w) (hperm : xs.Perm ys) :
    ∃ w', SetWire ys w' ∧ SameWire w w' := by
  have hmem {P : Value → Prop} (hxs : ∀ x ∈ xs, P x) : ∀ y ∈ ys, P y :=
    fun y hy => hxs y (hperm.mem_iff.mpr hy)
  have hne (hxs : xs ≠ []) : ys ≠ [] := fun hys => hxs (List.perm_nil.mp (hys ▸ hperm))
  cases h with
  | numbers hfloat h =>
    obtain ⟨ts, hts, hperm'⟩ := List.perm_comp_forall₂ hperm.symm h
    exact ⟨_, .numbers (hmem hfloat) hts, .set (.inl rfl) hperm'.symm⟩
  | texts hxs h => exact ⟨_, .texts (hne hxs) (hmem h), .set (.inr (.inl rfl)) hperm⟩
  | binaries hxs h =>
    exact ⟨_, .binaries (hne hxs) (hmem h), .set (.inr (.inr rfl)) (hperm.map _)⟩

theorem sets_agree {xs ys : List Value} (h : xs.Perm ys) (f g : Bool) :
    Agree SameWire (encodeSet f xs) (encodeSet g ys) := by
  refine .of_ok (fun w hw => ?_) fun w hw => ?_
  · obtain ⟨w', hw', hsame⟩ := (encodeSet_ok.mp hw).perm h
    exact ⟨w', encodeSet_ok.mpr hw', hsame⟩
  · obtain ⟨w', hw', -⟩ := (encodeSet_ok.mp hw).perm h.symm
    exact ⟨w', encodeSet_ok.mpr hw'⟩

/-! ### Floats -/

/-- What goes on the wire as a member of a set goes there on its own as well. -/
theorem encode_member {us : List Value} {w u : Value} (h : SetWire us w) (hu : u ∈ us) :
    ∃ w', encode u = .ok w' := by
  cases h with
  | numbers hfloat h =>
    obtain ⟨t, -, ht⟩ := exists_of_mem_left h u hu
    obtain ⟨d, s, hd, hs, -⟩ := memberText_ok.mp ht
    cases u with
    | bool b => exact ⟨_, rfl⟩
    | float x => exact absurd rfl (hfloat _ hu x)
    | int n | decimal e =>
      cases hd
      rw [encode, hs]
      exact ⟨_, rfl⟩
    | _ => cases hd
  | texts _ h => rcases isText_iff.mp (h u hu) with ⟨s, rfl⟩ | ⟨t, rfl⟩ <;> exact ⟨_, rfl⟩
  | binaries _ h =>
    obtain ⟨form, data, rfl⟩ := isBytes_iff.mp (h u hu)
    exact ⟨_, rfl⟩

/-- What a value is built of goes on the wire with it. -/
theorem encode_inner {u w x : Value} (h : encode u = .ok w) (hx : x ∈ u.inner) :
    ∃ w', encode x = .ok w' := by
  cases u with
  | list xs =>
    obtain ⟨ws, hws, -⟩ := encode_list_ok.mp h
    obtain ⟨w', -, hw'⟩ := exists_of_mem_left hws x hx
    exact ⟨w', hw'⟩
  | tuple xs =>
    obtain ⟨ws, hws, -⟩ := encode_tuple_ok.mp h
    obtain ⟨w', -, hw'⟩ := exists_of_mem_left hws x hx
    exact ⟨w', hw'⟩
  | map es =>
    obtain ⟨ws, hws, -⟩ := encode_map_ok.mp h
    obtain ⟨e, he, rfl⟩ := List.mem_map.mp hx
    obtain ⟨w', -, hw'⟩ := exists_of_mem_left hws e he
    exact ⟨w'.2, hw'.2⟩
  | set frozen xs =>
    rw [encode] at h
    exact encode_member (encodeSet_ok.mp h) hx
  | _ => cases hx

/-- A value with a float in it does not go on the wire as it is. -/
theorem not_within_of_encode {u w : Value} {x : Double} (h : encode u = .ok w) :
    ¬ (Value.float x).Within u := by
  intro hx
  induction hx generalizing w with
  | refl => cases h
  | inner hy _ ih =>
    obtain ⟨w', hw'⟩ := encode_inner h hy
    exact ih hw'

theorem settle_eq_of_isFixed {u : Value} (h : u.isFixed = true) : settle u = u := by
  cases u with
  | tuple => rfl
  | set frozen xs =>
    cases h
    rfl
  | _ => cases h

/-- In a value that goes on the wire, the floats are replaced in everything it is built of. -/
theorem encode_settle_inner {u w x : Value} (h : encode (settle u) = .ok w)
    (hfixed : u.isFixed = false) (hc : x.isContainer = true) (hx : x ∈ u.inner) :
    ∃ w', encode (settle x) = .ok w' := by
  cases u with
  | list xs =>
    rw [settle, settleAll_eq] at h
    exact encode_inner h (List.mem_map_of_mem hx)
  | map es =>
    rw [settle, settleEntries_eq] at h
    obtain ⟨e, he, rfl⟩ := List.mem_map.mp hx
    have hmem : (e.1, settle e.2) ∈ es.map fun e => (e.1, settle e.2) := List.mem_map_of_mem he
    exact encode_inner h (mem_inner_map hmem)
  | set frozen xs =>
    cases hfixed
    rw [not_isContainer_of_settle_set h x hx] at hc
    cases hc
  | tuple => cases hfixed
  | _ => cases hx

theorem isContainer_of_isFixed {v : Value} (h : v.isFixed = true) : v.isContainer = true := by
  cases v with
  | tuple | set => rfl
  | _ => cases h

/-- No container within a value without containers. -/
theorem isContainer_of_within {t v : Value} (ht : t.isContainer = true) (h : t.Within v) :
    v.isContainer = true := by
  cases hv : v.isContainer with
  | true => rfl
  | false =>
    obtain rfl := (within_iff_eq hv).mp h
    exact hv.symm.trans ht

/-- A value with a stranded float does not go on the wire. -/
theorem not_strands_of_encodeValue {u w : Value} (h : encodeValue u = .ok w) : ¬ u.Strands := by
  rw [encodeValue] at h
  rintro ⟨t, x, ht, hfixed, hx⟩
  induction ht generalizing w with
  | refl =>
    rw [settle_eq_of_isFixed hfixed] at h
    exact not_within_of_encode h hx
  | @inner u y hy ht ih =>
    cases hu : u.isFixed with
    | true =>
      rw [settle_eq_of_isFixed hu] at h
      exact not_within_of_encode h (hx.trans (.inner hy ht))
    | false =>
      have hc := isContainer_of_within (isContainer_of_isFixed hfixed) ht
      obtain ⟨w', hw'⟩ := encode_settle_inner h hu hc hy
      exact ih hw'

/-- Where there is no float, nothing is replaced. -/
theorem settle_eq_self {v : Value} (hproper : v.Proper)
    (hfloat : ∀ x, ¬ (Value.float x).Within v) : settle v = v := by
  induction v using Value.induct with
  | step v ih =>
  have hinner : ∀ x ∈ v.inner, settle x = x := fun x hx =>
    ih x hx (hproper.inner hx) fun y hy => hfloat y (.inner hx hy)
  cases v with
  | float x => exact absurd .refl (hfloat x)
  | list xs =>
    have hmap : xs.map settle = xs := (List.map_congr_left hinner).trans (List.map_id' xs)
    rw [settle, settleAll_eq, hmap]
  | map es =>
    have hsettled : ∀ e ∈ es, (e.1, settle e.2) = e := fun e he =>
      Prod.ext rfl (hinner _ (mem_inner_map he))
    rw [settle, settleEntries_eq, List.map_congr_left hsettled, List.map_id']
  | set frozen xs =>
    cases frozen with
    | true => rfl
    | false =>
      have hmap : xs.map settle = xs := (List.map_congr_left hinner).trans (List.map_id' xs)
      rw [settle, settleAll_eq, hmap, (hproper _ _ .refl).distinct_eq]
  | _ => rfl

/-! ### The same values in other containers -/

/-- **One outcome.** Without a stranded float, a value and the same value in other containers go on
the wire in the same way, or neither of them does. -/
theorem encode_agree {u v : Value} (h : Reflavoured u v) (hu : u.Proper)
    (hstrands : ¬ u.Strands) : Agree SameWire (encodeValue u) (encodeValue v) := by
  unfold encodeValue
  induction u using Value.induct generalizing v with
  | step u ih =>
  have hparts {x y : Value} (hx : x ∈ u.inner) (hxy : Reflavoured x y) :
      Agree SameWire (encode (settle x)) (encode (settle y)) :=
    ih x hx hxy (hu.inner hx) fun hx' => hstrands (.of_inner hx hx')
  -- What stands in a tuple or in a frozen set holds no float, so nothing is replaced in it.
  have hplain {x y : Value} (hfixed : u.isFixed = true) (hx : x ∈ u.inner)
      (hxy : Reflavoured x y) : settle x = x ∧ settle y = y := by
    have hfloat : ∀ z, ¬ (Value.float z).Within x := fun z hz =>
      hstrands ⟨u, z, .refl, hfixed, .inner hx hz⟩
    have hproper := hu.inner hx
    exact ⟨settle_eq_self hproper hfloat,
      settle_eq_self (hxy.proper hproper) fun z hz => hfloat z (hxy.within rfl hz)⟩
  cases h with
  | same => exact .refl .refl _
  | list h =>
    rw [settle, settle, settleAll_eq, settleAll_eq]
    refine items_agree (by rw [encode]) (by rw [encode]) ?_
    rw [List.forall₂_map_left_iff, List.forall₂_map_right_iff]
    exact forall₂_of_mem (fun x hx y hxy => hparts hx hxy) h
  | @tuple xs ys h =>
    have hxs : settle (.tuple xs) = .tuple xs := settle_eq_of_isFixed rfl
    have hys : settle (.tuple ys) = .tuple ys := settle_eq_of_isFixed rfl
    rw [hxs, hys]
    refine items_agree (by rw [encode]) (by rw [encode]) ?_
    refine forall₂_of_mem (fun x hx y hxy => ?_) h
    obtain ⟨hx', hy'⟩ := hplain rfl hx hxy
    have hagree := hparts hx hxy
    rwa [hx', hy'] at hagree
  | @unpacked xs ys h =>
    have hxs : settle (.tuple xs) = .tuple xs := settle_eq_of_isFixed rfl
    rw [hxs, settle, settleAll_eq]
    refine items_agree (by rw [encode]) (by rw [encode]) ?_
    rw [List.forall₂_map_right_iff]
    refine forall₂_of_mem (fun x hx y hxy => ?_) h
    have hagree := hparts hx hxy
    rwa [(hplain rfl hx hxy).1] at hagree
  | map hkeys h =>
    rw [settle, settle, settleEntries_eq, settleEntries_eq]
    refine maps_agree ?_
    rw [List.forall₂_map_left_iff, List.forall₂_map_right_iff]
    have hentries := forall₂_entries_iff.mpr ⟨hkeys, h⟩
    exact forall₂_of_mem (fun e he f hef => ⟨hef.1, hparts (mem_inner_map he) hef.2⟩) hentries
  | @thawed xs ys h hdistinct =>
    have hys : ∀ y ∈ ys, settle y = y := fun y hy => (hplain rfl (h.mem_iff.mpr hy) (.same y)).2
    have hmap : ys.map settle = ys := (List.map_congr_left hys).trans (List.map_id' ys)
    have hxs : settle (.set true xs) = .set true xs := settle_eq_of_isFixed rfl
    rw [hxs, settle, settleAll_eq, hmap, hdistinct.distinct_eq, encode, encode]
    exact sets_agree h true false

/-- **Containers.** Let a value be passed in other containers, with lists for tuples or sets for
frozen sets. It goes on the wire as before just if it goes there now and no float was stranded, and
then on both ways as the same wire value, but for the order of the members of sets. If its numbers
are within bounds, it is refused as a mistake of the caller, before and now. -/
theorem serialised_alike {u v : Value} (h : Reflavoured u v) (hu : u.Proper) :
    ((∃ w, encodeValue u = .ok w) ↔ (∃ w, encodeValue v = .ok w) ∧ ¬ u.Strands) ∧
      (∀ w w', encodeValue u = .ok w → encodeValue v = .ok w' → SameWire w w') ∧
      ((∀ s, ¬ u.Signals s) → ∀ f, encodeValue u = .error f ∨ encodeValue v = .error f →
        ∃ c, f = .caller c) := by
  refine ⟨⟨?_, ?_⟩, fun w w' hw hw' => ?_, fun hbounds f hf => ?_⟩
  · rintro ⟨w, hw⟩
    have hstrands := not_strands_of_encodeValue hw
    exact ⟨(encode_agree h hu hstrands).exists_iff.mp ⟨w, hw⟩, hstrands⟩
  · rintro ⟨hv, hstrands⟩
    exact (encode_agree h hu hstrands).exists_iff.mpr hv
  · exact (encode_agree h hu (not_strands_of_encodeValue hw)).related hw hw'
  · have hrefused : u.Refused f := by
      rcases hf with hf | hf
      · exact encodeValue_fails u f hf
      · refine (encodeValue_fails v f hf).mono fun s hs => ?_
        obtain ⟨d, hd, hs⟩ := signals_iff_holds.mp hs
        exact signals_iff_holds.mpr ⟨d, h.holds hd, hs⟩
    cases f with
    | caller c => exact ⟨c, rfl⟩
    | number s => exact absurd hrefused (hbounds s)
    | _ => cases hrefused

/-- A frozen set in a tuple, and a float that is not in either. -/
theorem serialised_alike_nested :
    let x : Double := .finite false 6755399441055744 (-52)
    let u : Value := .list [.tuple [.int 7, .set true [.text "a", .text "b"]], .float x]
    let v : Value := .list [.list [.int 7, .set true [.text "a", .text "b"]], .float x]
    Reflavoured u v ∧ u.Proper ∧
      ((∃ w, encodeValue u = .ok w) ↔ (∃ w, encodeValue v = .ok w) ∧ ¬ u.Strands) ∧
      (∀ w w', encodeValue u = .ok w → encodeValue v = .ok w' → SameWire w w') ∧
      ((∀ s, ¬ u.Signals s) → ∀ f, encodeValue u = .error f ∨ encodeValue v = .error f →
        ∃ c, f = .caller c) := by
  intro x u v
  have h : Reflavoured u v := by
    refine .list (.cons (.unpacked ?_) (.cons (.same _) .nil))
    exact .cons (.same _) (.cons (.same _) .nil)
  have hscalar {t : Value} (ht : t.isContainer = false) : t.Proper := proper_of_not_isContainer ht
  have hset : (Value.set true [.text "a", .text "b"]).Proper := by
    refine proper_set (by decide +kernel) ?_
    simp only [List.forall_mem_cons, List.not_mem_nil, false_imp_iff, forall_const, and_true]
    exact ⟨hscalar rfl, hscalar rfl⟩
  have hu : u.Proper := by
    refine proper_of_inner nofun (List.forall_mem_cons.mpr ⟨proper_of_inner nofun ?_, ?_⟩)
    · exact List.forall_mem_cons.mpr ⟨hscalar rfl, List.forall_mem_singleton.mpr hset⟩
    · exact List.forall_mem_singleton.mpr (hscalar rfl)
  exact ⟨h, hu, serialised_alike h hu⟩

/-- It is not the same for a float whether it is passed in a tuple or in a list. -/
theorem tuple_strands_float :
    ¬ ∀ u v, Reflavoured u v → u.Proper → (∃ w, encodeValue v = .ok w) →
      ∃ w, encodeValue u = .ok w := by
  intro h
  let x : Double := .finite false 6755399441055744 (-52)
  have hreflavoured : Reflavoured (.tuple [.float x]) (.list [.float x]) :=
    .unpacked (.cons (.same _) .nil)
  have hproper : (Value.tuple [.float x]).Proper :=
    proper_of_inner nofun (List.forall_mem_singleton.mpr (proper_of_not_isContainer rfl))
  have hlist : encodeValue (.list [.float x]) =
      .ok (WireType.list.wrap (.list [WireType.number.wrap (.text "1.5")])) := by
    decide +kernel
  obtain ⟨w, hw⟩ := h _ _ hreflavoured hproper ⟨_, hlist⟩
  cases hw

end Wire

end ItemStore
