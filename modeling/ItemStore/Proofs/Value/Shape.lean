import ItemStore.Proofs.Failure
import ItemStore.Value.Shape
import ItemStore.Value.Writing

/-! Values that have not their shape.

A value that is read for what it should be fails to be that only if it has another shape, and the
fault says no more than this. A falsy value stands for an empty map wherever a map may be left
out. -/
namespace ItemStore.Value

open Outcome

/-- A value that stands for a map where none has to be given. -/
def IsOptionalMap (v : Value) : Prop := v.isTruthy = true → ∃ es, v = .map es

theorem fields_fails (v : Value) : FailsUnless (∃ es, v = .map es) v.fields := by
  cases v with
  | map es => exact .ok es
  | _ => exact .error ⟨rfl, by simp⟩

theorem eq_map_of_fields {v : Value} {es : Fields} (h : v.fields = .ok es) : v = .map es := by
  cases v <;> cases h
  rfl

theorem elements_fails (v : Value) : FailsAsShape v.elements := by
  cases v with
  | list xs => exact .ok _
  | tuple xs => exact .ok _
  | set frozen xs => exact .ok _
  | map es => exact .ok _
  | text s => exact .ok _
  | torn t => exact .ok _
  | bytes form data =>
    rw [elements]
    split
    · exact .error rfl
    · exact .ok _
  | _ => exact .error rfl

theorem putPair_fails (fs : Fields) (pair : Value) : FailsAsShape (putPair fs pair) := by
  refine .bind pair.elements_fails fun parts _ => ?_
  split
  · split
    · exact .pure _
    · exact .error rfl
  · exact .error rfl

theorem toFields_fails (v : Value) : FailsUnless (∃ es, v = .map es) v.toFields := by
  cases v with
  | map es => exact .ok es
  | _ =>
    have hshape (parts : List Value) : FailsAsShape (parts.foldlM putPair []) :=
      .foldlM (fun fs pair _ => putPair_fails fs pair) []
    refine FailsAs.mono (.bind (elements_fails _) fun parts _ => hshape parts) ?_
    exact fun f hf => ⟨hf, by simp⟩

/-- A map that may be left out is read by `read` if it is truthy. -/
theorem optional_fails {v : Value} {read : Except Fault Fields}
    (h : FailsUnless (∃ es, v = .map es) read) :
    FailsUnless v.IsOptionalMap
      (if v.isTruthy then read else .ok []) := by
  split
  · next ht => exact h.mono fun f hf => ⟨hf.1, fun hmap => hf.2 (hmap ht)⟩
  · exact .ok []

theorem toFieldsOrEmpty_fails (v : Value) : FailsUnless v.IsOptionalMap v.toFieldsOrEmpty :=
  optional_fails v.toFields_fails

/-- A map stands for its entries. -/
theorem toFieldsOrEmpty_map (es : Fields) : (map es).toFieldsOrEmpty = .ok es := by
  cases es <;> rfl

theorem bytesMention_fails (data : List UInt8) (part : Value) :
    FailsAsShape (bytesMention data part) := by
  cases part with
  | bool b => exact .ok _
  | int n =>
    rw [bytesMention]
    split
    · exact .ok _
    · exact .error rfl
  | bytes form run =>
    rw [bytesMention]
    split
    · exact .error rfl
    · exact .ok _
  | _ => exact .error rfl

theorem shown_ok_iff {v : Value} {ps : Text.Points} :
    v.shown = .ok ps ↔ v.shown? = some ps ∧ v.isWritable = true := by
  rw [shown]
  cases v.shown? with
  | none => simp
  | some ps => cases v.isWritable <;> simp

theorem shown_fails (v : Value) : FailsAsShape v.shown := by
  rw [shown]
  split
  · exact .ite (.ok _) (.error rfl)
  · exact .error rfl

theorem isLike_incomparable (a b : Value) :
    FailsAs (fun f => f = .incomparable) (a.isLike b) := by
  rw [isLike]
  exact .ite (.error rfl) (.ok _)

theorem equals_incomparable (a b : Value) :
    FailsAs (fun f => f = .incomparable) (a.equals b) := by
  rw [equals]
  split
  · exact .ite (.error rfl) (.ok _)
  · exact isLike_incomparable a b

/-- What is equal to a value that is no number is the same. -/
theorem same_of_equals {a b : Value} (hb : b.number? = none) (h : a.equals b = .ok true) :
    a.same b = true := by
  have hequals : a.equals b = a.isLike b := by
    rw [equals, hb]
    cases a.number? <;> rfl
  rw [hequals, isLike] at h
  split at h
  · cases h
  · exact Except.ok.inj h

theorem isLike_fails (a b : Value) : FailsAsShape (a.isLike b) :=
  (isLike_incomparable a b).mono fun _ hf => hf ▸ rfl

theorem hasLike_fails (v : Value) (us : List Value) : FailsAsShape (v.hasLike us) := by
  induction us with
  | nil => exact .ok _
  | cons u us ih =>
    rw [hasLike]
    refine .bind (u.isLike_fails v) fun like _ => ?_
    split
    · exact .pure _
    · exact ih

theorem mentions_fails (v part : Value) : FailsUnless (∃ es, v = .map es) (v.mentions part) := by
  have hshape : FailsAsShape (v.mentions part) := by
    unfold mentions
    split
    · exact .ok _
    · exact hasLike_fails _ _
    · exact hasLike_fails _ _
    · exact .ok _
    · split
      · exact .error rfl
      · exact bytesMention_fails _ _
    · split
      · exact .ok _
      · exact .error rfl
  intro f hf
  refine ⟨hshape f hf, ?_⟩
  rintro ⟨es, rfl⟩
  cases hf

theorem entry_fails (v : Value) (name : String) :
    FailsUnless (∃ x, v.entry name = .ok x) (v.entry name) := by
  have hshape : FailsAsShape (v.entry name) := by
    unfold entry
    split
    · split
      · exact .ok _
      · exact .error rfl
    · exact .error rfl
  intro f hf
  refine ⟨hshape f hf, ?_⟩
  rintro ⟨x, hx⟩
  rw [hx] at hf
  cases hf

/-- What a map mentions is an entry of it. -/
theorem entry_of_mentions {es : Fields} {name : String}
    (h : (Value.map es).mentions (.text name) = .ok true) :
    ∃ x, (Value.map es).entry name = .ok x := by
  have hhas : es.has name = true := Except.ok.inj h
  rw [Fields.has_eq_isSome, Option.isSome_iff_exists] at hhas
  obtain ⟨x, hx⟩ := hhas
  exact ⟨x, by rw [entry, hx]⟩

end ItemStore.Value
