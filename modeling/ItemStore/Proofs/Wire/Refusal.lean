import ItemStore.Proofs.Failure
import ItemStore.Proofs.Wire.Numeral

/-! Values that do not go on the wire.

A value that is not put on the wire is refused in one of two ways: as a mistake of the caller, or
with the signal of a number in it that is out of the bounds of the store. `encodeValue_fails` says
that nothing else can go wrong, whatever the value is built of, and that the number is to be found
in the value as it was passed. Of the mistakes that a caller can make only three are found on the
way, and they are about the value itself (`Fault.isOfValue`), so a fault that speaks of anything
else comes from elsewhere. -/
namespace ItemStore

/-- A value, or a number in it, has no wire form. -/
def Fault.isOfValue : Fault → Bool
  | .caller .floatValue => true
  | .caller .nonFinite => true
  | .caller (.unsupported _) => true
  | .number _ => true
  | _ => false

/-- A number somewhere in the value is out of bounds and causes the signal. A float is taken at its
text. -/
inductive Value.Signals (s : Decimal.Signal) : Value → Prop
  | number {v : Value} {d : Decimal} (hd : v.asDecimal? = some d) (hout : ¬ d.Fits)
    (h : d.accept = .error s) : Signals s v
  | list {xs : List Value} {x : Value} (hx : x ∈ xs) (h : Signals s x) : Signals s (.list xs)
  | tuple {xs : List Value} {x : Value} (hx : x ∈ xs) (h : Signals s x) : Signals s (.tuple xs)
  | set {frozen : Bool} {xs : List Value} {x : Value} (hx : x ∈ xs) (h : Signals s x) :
    Signals s (.set frozen xs)
  | map {es : Fields} {e : Value × Value} (he : e ∈ es) (h : Signals s e.2) : Signals s (.map es)

/-- The faults with which a value may be refused. -/
def Value.Refused (v : Value) : Fault → Prop
  | .caller _ => True
  | .number s => v.Signals s
  | _ => False

theorem Value.Refused.mono {u v : Value} {f : Fault} (hf : u.Refused f)
    (h : ∀ s, u.Signals s → v.Signals s) : v.Refused f := by
  cases f with
  | caller c => trivial
  | number s => exact h s hf
  | _ => cases hf

/-- The faults with which a value is refused while it is put on the wire. -/
structure Value.Unsent (v : Value) (f : Fault) : Prop where
  isOfValue : f.isOfValue = true
  refused : v.Refused f

theorem Value.Unsent.mono {u v : Value} {f : Fault} (hf : u.Unsent f)
    (h : ∀ s, u.Signals s → v.Signals s) : v.Unsent f :=
  ⟨hf.isOfValue, hf.refused.mono h⟩

theorem Value.not_signals_text {s : Decimal.Signal} {t : String} : ¬ (Value.text t).Signals s := by
  intro h
  cases h with
  | number hd => cases hd

theorem Value.signals_map_iff {s : Decimal.Signal} {es : Fields} :
    (Value.map es).Signals s ↔ ∃ e ∈ es, e.2.Signals s := by
  constructor
  · intro h
    cases h with
    | number hd => cases hd
    | map he h => exact ⟨_, he, h⟩
  · intro h
    obtain ⟨e, he, h⟩ := h
    exact .map he h

theorem Value.Signals.cons {s : Decimal.Signal} {es : Fields} (e : Value × Value)
    (h : (Value.map es).Signals s) : (Value.map (e :: es)).Signals s := by
  obtain ⟨e', he', h⟩ := signals_map_iff.mp h
  exact .map (List.mem_cons_of_mem _ he') h

/-- Only a finite number is out of bounds. -/
theorem Decimal.not_fits_of_accept {d : Decimal} {s : Signal} (h : d.accept = .error s) :
    ¬ d.Fits := by
  intro hfits
  cases d with
  | finite negative c e =>
    rw [accept_of_fits ((Wire.signal?_eq_none_iff negative c e).mpr hfits)] at h
    cases h
  | infinity negative => cases hfits
  | nan negative signalling payload => cases hfits

namespace Wire

open Outcome Value

/-! ### Numbers and sets -/

theorem numberText_fails {v : Value} {d : Decimal} (hd : v.asDecimal? = some d) :
    FailsAs v.Unsent (numberText d) := by
  unfold numberText
  cases h : d.accept with
  | error s => exact .error ⟨rfl, .number hd (Decimal.not_fits_of_accept h) h⟩
  | ok d' =>
    dsimp only
    split
    · exact .error ⟨rfl, trivial⟩
    · exact .ok _

theorem memberText_fails {v : Value} (hfloat : ∀ x, v ≠ .float x) :
    FailsAs v.Unsent (memberText v) := by
  cases v with
  | bool b =>
    have hfits : (Decimal.ofInt (if b then 1 else 0)).Fits := by cases b <;> decide
    have htext := (numberText_ok rfl).mpr ⟨hfits, rfl⟩
    intro f hf
    rw [memberText, number?] at hf
    dsimp only at hf
    rw [htext] at hf
    cases hf
  | int n => exact (numberText_fails rfl).map _
  | decimal d => exact (numberText_fails rfl).map _
  | float x => exact absurd rfl (hfloat x)
  | _ => exact .error ⟨rfl, trivial⟩

theorem allNumbers_fails (v : Value) (xs : List Value) : FailsAs v.Unsent (allNumbers xs) := by
  induction xs with
  | nil => exact .ok _
  | cons x xs ih =>
    unfold allNumbers
    split
    · exact .error ⟨rfl, trivial⟩
    · split
      · exact ih
      · exact .ok _

theorem encodeSet_fails (frozen : Bool) (xs : List Value) :
    FailsAs (Value.set frozen xs).Unsent (encodeSet frozen xs) := by
  unfold encodeSet
  refine .bind (allNumbers_fails _ xs) fun numbers hnumbers => ?_
  split
  · next htrue =>
    refine .bind (.mapM fun x hx => ?_) fun texts _ => .pure _
    rw [htrue] at hnumbers
    have hmember := memberText_fails (allNumbers_ok hnumbers x hx).2
    exact hmember.mono fun f hf => hf.mono fun s => .set hx
  · split
    · exact .pure _
    · split
      · exact .pure _
      · exact .error ⟨rfl, trivial⟩

/-! ### Values -/

mutual

theorem encode_fails : ∀ v : Value, FailsAs v.Unsent (encode v)
  | .null => .ok _
  | .bool _ => .ok _
  | .int _ => by
    rw [encode]
    exact .bind (numberText_fails rfl) fun _ _ => .pure _
  | .decimal _ => by
    rw [encode]
    exact .bind (numberText_fails rfl) fun _ _ => .pure _
  | .float _ => .error ⟨rfl, trivial⟩
  | .text _ => .ok _
  | .torn _ => .ok _
  | .bytes _ _ => .ok _
  | .list xs => by
    rw [encode]
    refine .bind ((encodeAll_fails xs).mono fun f hf => ?_) fun _ _ => .pure _
    obtain ⟨x, hx, hf⟩ := hf
    exact hf.mono fun s => .list hx
  | .tuple xs => by
    rw [encode]
    refine .bind ((encodeAll_fails xs).mono fun f hf => ?_) fun _ _ => .pure _
    obtain ⟨x, hx, hf⟩ := hf
    exact hf.mono fun s => .tuple hx
  | .set frozen xs => by
    rw [encode]
    exact encodeSet_fails frozen xs
  | .map es => by
    rw [encode]
    exact .bind (encodeEntries_fails es) fun _ _ => .pure _
  | .date _ => .error ⟨rfl, trivial⟩
  | .wildcard => .error ⟨rfl, trivial⟩

theorem encodeAll_fails :
    ∀ xs : List Value, FailsAs (fun f => ∃ x ∈ xs, x.Unsent f) (encodeAll xs)
  | [] => .ok _
  | x :: xs => by
    rw [encodeAll]
    refine .bind ((encode_fails x).mono fun f hf => ⟨x, List.mem_cons_self .., hf⟩) fun _ _ => ?_
    refine .bind ((encodeAll_fails xs).mono fun f hf => ?_) fun _ _ => .pure _
    obtain ⟨y, hy, hf⟩ := hf
    exact ⟨y, List.mem_cons_of_mem _ hy, hf⟩

theorem encodeEntries_fails :
    ∀ es : List (Value × Value), FailsAs (Value.map es).Unsent (encodeEntries es)
  | [] => .ok _
  | (k, v) :: es => by
    rw [encodeEntries]
    refine .bind ((encode_fails v).mono fun f hf => ?_) fun _ _ => ?_
    · exact hf.mono fun s => .map (e := (k, v)) (List.mem_cons_self ..)
    · refine .bind ((encodeEntries_fails es).mono fun f hf => ?_) fun _ _ => .pure _
      exact hf.mono fun s => .cons (k, v)

end

/-! ### Floats -/

/-- The numbers that cause a signal are among those that the value holds. -/
theorem signals_iff_holds {v : Value} {s : Decimal.Signal} :
    v.Signals s ↔ ∃ d, v.Holds d ∧ d.accept = .error s := by
  constructor
  · intro h
    induction h with
    | number hd hout h => exact ⟨_, .number hd, h⟩
    | list hx _ ih | tuple hx _ ih | set hx _ ih =>
      obtain ⟨d, hd, h⟩ := ih
      exact ⟨d, .inner hx hd, h⟩
    | map he _ ih =>
      obtain ⟨d, hd, h⟩ := ih
      exact ⟨d, .inner (mem_inner_map he) hd, h⟩
  · rintro ⟨d, hd, h⟩
    induction hd with
    | number hd => exact .number hd (Decimal.not_fits_of_accept h) h
    | @member frozen xs x hx hd =>
      refine .set hx (.number ?_ (Decimal.not_fits_of_accept h) h)
      cases x with
      | bool b =>
        -- Truth values count as 0 and 1, which fit.
        have hfits : (Decimal.ofInt (if b then 1 else 0)).Fits := by cases b <;> decide
        cases hd
        exact absurd hfits (Decimal.not_fits_of_accept h)
      | _ => exact hd
    | @inner v x hx _ ih => cases v with
      | list xs => exact .list hx ih
      | tuple xs => exact .tuple hx ih
      | set frozen xs => exact .set hx ih
      | map es =>
        obtain ⟨e, he, rfl⟩ := List.mem_map.mp hx
        exact .map he ih
      | _ => cases hx

/-- A number that is out of bounds once floats are replaced was so before. -/
theorem signals_of_settle {s : Decimal.Signal} {v : Value} (h : (settle v).Signals s) :
    v.Signals s := by
  obtain ⟨d, hd, h⟩ := signals_iff_holds.mp h
  exact signals_iff_holds.mpr ⟨d, holds_of_settle hd, h⟩

/-! ### Values, fields and items -/

theorem encodeValue_unsent (v : Value) : FailsAs v.Unsent (encodeValue v) :=
  (encode_fails (settle v)).mono fun _ hf => hf.mono fun _ => signals_of_settle

/-- **What can go wrong.** A value is refused as a mistake of the caller, or for a number in it
that is out of bounds. -/
theorem encodeValue_fails (v : Value) : FailsAs v.Refused (encodeValue v) :=
  (encodeValue_unsent v).mono fun _ hf => hf.refused

theorem encodeFields_unsent (fs : Fields) : FailsAs (Value.map fs).Unsent (encodeFields fs) := by
  induction fs with
  | nil => exact .ok _
  | cons e fs ih =>
    rw [encodeFields]
    refine .bind ((encodeValue_unsent e.2).mono fun f hf => ?_) fun _ _ => ?_
    · exact hf.mono fun s => .map (List.mem_cons_self ..)
    · refine .bind (ih.mono fun f hf => ?_) fun _ _ => .pure _
      exact hf.mono fun s => .cons e

theorem encodeItem_fails (v : Value) : FailsAs v.Refused (encodeItem v) := by
  cases v with
  | map es => exact ((encodeFields_unsent es).mono fun _ hf => hf.refused).map _
  | _ => exact .error trivial

end Wire

end ItemStore
