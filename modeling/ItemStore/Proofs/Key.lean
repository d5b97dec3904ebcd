import ItemStore.Key
import ItemStore.Proofs.Fields

/-! Well-formed keys.

A key is well-formed if it has one or two fields, each with a name that is not empty and a value
that can stand in a key (`IsKey`). Whether a value can does not depend on the name of its field. The
check passes just the well-formed keys, as they are, and what it has to say of any other value is
one of three things (`Refuses`): of a value that is no map or has no fields that it has no shape, of
a map what is wrong with its first field that offends, and if none does that it has too many. It
says so (`Says`), but for a name that is none and has too long an integer in it: a text that would
quote this name does not come about. -/
namespace ItemStore.Key

open Wire (isText)

/-- Whether a value can stand in a key: a text that is not empty, a number or binary data. -/
def isKeyValue : Value → Bool
  | .text s => s != ""
  | .torn _ => true
  | .int _ => true
  | .decimal _ => true
  | .bytes .. => true
  | _ => false

theorem valueFault?_eq_none_iff {name : Text.Points} {v : Value} :
    valueFault? name v = none ↔ isKeyValue v = true := by
  cases v <;> simp [valueFault?, isKeyValue]

theorem fieldFault?_eq_none_iff {e : Value × Value} :
    fieldFault? e = none ↔ isText e.1 = true ∧ e.1 ≠ .text "" ∧ isKeyValue e.2 = true := by
  obtain ⟨k, v⟩ := e
  cases k with
  | text name =>
    by_cases hname : name = ""
    · simp [fieldFault?, hname]
    · simp [fieldFault?, hname, valueFault?_eq_none_iff, isText, Value.points?]
  | torn name => simp [fieldFault?, valueFault?_eq_none_iff, isText, Value.points?]
  | _ => simp [fieldFault?, isText, Value.points?]

theorem validate_map {es : Fields} (hne : es ≠ []) : validate (.map es) =
    match es.findSome? fieldFault? with
    | some c => .error (refusal c)
    | none => if 2 < es.length then .error (.caller .keyCount) else .ok es := by
  cases es with
  | nil => exact absurd rfl hne
  | cons e es => rfl

/-- A key that passes is a map, and passes as it is. -/
theorem validate_ok {v : Value} {es : Fields} : validate v = .ok es ↔
    v = .map es ∧ es ≠ [] ∧ es.length ≤ 2 ∧ ∀ e ∈ es, fieldFault? e = none := by
  cases v with
  | map fs =>
    rcases eq_or_ne fs [] with rfl | hne
    · refine iff_of_false nofun ?_
      rintro ⟨⟨⟩, hne, -⟩
      exact hne rfl
    · rw [validate_map hne, Value.map.injEq]
      cases hfault : fs.findSome? fieldFault? with
      | some c =>
        obtain ⟨e, he, hc⟩ := List.exists_of_findSome?_eq_some hfault
        refine iff_of_false nofun ?_
        rintro ⟨rfl, -, -, hall⟩
        cases hc.symm.trans (hall e he)
      | none =>
        have hall := List.findSome?_eq_none_iff.mp hfault
        dsimp only
        split
        · next hlength =>
          refine iff_of_false nofun ?_
          rintro ⟨rfl, -, hshort, -⟩
          omega
        · next hlength =>
          constructor
          · rintro ⟨⟩
            exact ⟨rfl, hne, Nat.le_of_not_lt hlength, hall⟩
          · rintro ⟨rfl, -⟩
            rfl
  | _ => simp [validate]

theorem isNamed_of_validate {v : Value} {es : Fields} (h : validate v = .ok es) : es.IsNamed :=
  fun e he => (fieldFault?_eq_none_iff.mp ((validate_ok.mp h).2.2.2 e he)).1

/-! ### What the check says -/

/-- A text that is not empty. -/
def IsName (v : Value) : Prop := isText v = true ∧ v ≠ .text ""

/-- A value that can stand in a key. Truth values are no numbers here. -/
inductive Admissible : Value → Prop
  | text {v : Value} (h : IsName v) : Admissible v
  | int (n : Int) : Admissible (.int n)
  | decimal (d : Decimal) : Admissible (.decimal d)
  | bytes (form : BytesForm) (data : List UInt8) : Admissible (.bytes form data)

structure IsField (e : Value × Value) : Prop where
  name : IsName e.1
  value : Admissible e.2

/-- A well-formed key. -/
structure IsKey (es : Fields) : Prop where
  nonempty : es ≠ []
  atMostTwo : es.length ≤ 2
  fields : ∀ e ∈ es, IsField e

/-- What is wrong with a field. -/
inductive Offends : Value × Value → CallerFault → Prop
  | name {k v : Value} (hk : ¬ IsName k) : Offends (k, v) (.keyName k)
  | value {k v : Value} {name : Text.Points} (hk : IsName k) (hname : k.points? = some name)
    (hv : ¬ Admissible v) (hne : v ≠ .text "") : Offends (k, v) (.keyValue name)
  | empty {k : Value} {name : Text.Points} (hk : IsName k) (hname : k.points? = some name) :
    Offends (k, .text "") (.keyEmpty name)

/-- What is wrong with a value that is no well-formed key. -/
inductive Refuses : Value → CallerFault → Prop
  | shape {v : Value} (h : ∀ es, v = .map es → es = []) : Refuses v .keyShape
  | field {before after : Fields} {e : Value × Value} {c : CallerFault}
    (hbefore : ∀ b ∈ before, IsField b) (h : Offends e c) :
    Refuses (.map (before ++ e :: after)) c
  | count {es : Fields} (h : ∀ e ∈ es, IsField e) (hlength : 2 < es.length) :
    Refuses (.map es) .keyCount

/-- What comes of saying it: the mistake of the caller that it is, unless it is about a name that
cannot be written out. -/
inductive Says : CallerFault → Fault → Prop
  | caller {c : CallerFault} (h : ∀ name, c = .keyName name → name.isWritable = true) :
    Says c (.caller c)
  | unwritten {name : Value} (h : name.isWritable = false) : Says (.keyName name) .malformed

theorem admissible_iff {v : Value} : Admissible v ↔ isKeyValue v = true := by
  constructor
  · intro h
    cases h with
    | text h => cases v <;> simp_all [IsName, isText, isKeyValue, Value.points?]
    | _ => rfl
  · intro h
    cases v with
    | text s => exact .text ⟨rfl, by simpa [isKeyValue] using h⟩
    | torn t => exact .text ⟨rfl, by simp⟩
    | int n => exact .int n
    | decimal d => exact .decimal d
    | bytes form data => exact .bytes form data
    | _ => cases h

theorem isField_iff {e : Value × Value} : IsField e ↔ fieldFault? e = none := by
  rw [fieldFault?_eq_none_iff, ← admissible_iff]
  exact ⟨fun h => ⟨h.name.1, h.name.2, h.value⟩, fun h => ⟨⟨h.1, h.2.1⟩, h.2.2⟩⟩

theorem valueFault?_eq_some_iff {name : Text.Points} {v : Value} {c : CallerFault} :
    valueFault? name v = some c ↔
      (v = .text "" ∧ c = .keyEmpty name) ∨
        (¬ Admissible v ∧ v ≠ .text "" ∧ c = .keyValue name) := by
  rw [admissible_iff]
  cases v with
  | text s => by_cases hs : s = "" <;> simp [valueFault?, isKeyValue, hs, @eq_comm _ c]
  | _ => simp [valueFault?, isKeyValue, @eq_comm _ c]

theorem fieldFault?_of_isName {k v : Value} (hk : IsName k) :
    ∃ name, k.points? = some name ∧ fieldFault? (k, v) = valueFault? name v := by
  obtain ⟨htext, hne⟩ := hk
  cases k with
  | text name =>
    have hname : name ≠ "" := fun h => hne (h ▸ rfl)
    exact ⟨Text.points name, rfl, if_neg (by simpa using hname)⟩
  | torn name => exact ⟨name.points, rfl, rfl⟩
  | _ => cases htext

theorem fieldFault?_of_not_isName {k v : Value} (hk : ¬ IsName k) :
    fieldFault? (k, v) = some (.keyName k) := by
  cases k with
  | text name =>
    by_cases hname : name = ""
    · subst hname
      rfl
    · exact absurd ⟨rfl, by simpa using hname⟩ hk
  | torn name => exact absurd ⟨rfl, by simp⟩ hk
  | _ => rfl

theorem offends_iff {e : Value × Value} {c : CallerFault} :
    Offends e c ↔ fieldFault? e = some c := by
  obtain ⟨k, v⟩ := e
  by_cases hk : IsName k
  · obtain ⟨name, hname, hfault⟩ := @fieldFault?_of_isName k v hk
    rw [hfault, valueFault?_eq_some_iff]
    constructor
    · intro h
      cases h with
      | name hk' => exact absurd hk hk'
      | value _ hname' hv hne =>
        cases hname.symm.trans hname'
        exact .inr ⟨hv, hne, rfl⟩
      | empty _ hname' =>
        cases hname.symm.trans hname'
        exact .inl ⟨rfl, rfl⟩
    · rintro (⟨rfl, rfl⟩ | ⟨hv, hne, rfl⟩)
      · exact .empty hk hname
      · exact .value hk hname hv hne
  · rw [fieldFault?_of_not_isName hk]
    constructor
    · intro h
      cases h with
      | name _ => rfl
      | value hk' | empty hk' => exact absurd hk' hk
    · rintro ⟨⟩
      exact .name hk

theorem validate_ok_iff {v : Value} {es : Fields} :
    validate v = .ok es ↔ v = .map es ∧ IsKey es := by
  rw [validate_ok]
  constructor
  · rintro ⟨rfl, hne, hlength, hfields⟩
    exact ⟨rfl, hne, hlength, fun e he => isField_iff.mpr (hfields e he)⟩
  · rintro ⟨rfl, hkey⟩
    exact ⟨rfl, hkey.nonempty, hkey.atMostTwo, fun e he => isField_iff.mp (hkey.fields e he)⟩

/-- A map that has fields is refused for the first of them that offends, or for their number. -/
theorem refuses_map_iff {es : Fields} (hne : es ≠ []) {c : CallerFault} :
    Refuses (.map es) c ↔ es.findSome? fieldFault? = some c ∨
      (es.findSome? fieldFault? = none ∧ 2 < es.length ∧ c = .keyCount) := by
  constructor
  · intro h
    cases h with
    | shape h => exact absurd (h es rfl) hne
    | field hbefore h =>
      refine .inl (List.findSome?_eq_some_iff.mpr ⟨_, _, _, rfl, offends_iff.mp h, ?_⟩)
      exact fun b hb => isField_iff.mp (hbefore b hb)
    | count h hlength =>
      refine .inr ⟨List.findSome?_eq_none_iff.mpr fun e he => ?_, hlength, rfl⟩
      exact isField_iff.mp (h e he)
  · rintro (h | ⟨h, hlength, rfl⟩)
    · obtain ⟨before, e, after, rfl, he, hbefore⟩ := List.findSome?_eq_some_iff.mp h
      exact .field (fun b hb => isField_iff.mpr (hbefore b hb)) (offends_iff.mpr he)
    · have hall := List.findSome?_eq_none_iff.mp h
      exact .count (fun e he => isField_iff.mpr (hall e he)) hlength

theorem says_iff {c : CallerFault} {f : Fault} : Says c f ↔ refusal c = f := by
  constructor
  · intro h
    cases h with
    | caller h =>
      cases c with
      | keyName name => exact if_pos (h name rfl)
      | _ => rfl
    | unwritten h => exact if_neg (by rw [h]; exact Bool.false_ne_true)
  · rintro rfl
    cases c with
    | keyName name =>
      rw [refusal, Value.quotedIn]
      split
      · next h => exact .caller fun _ hname => (CallerFault.keyName.inj hname) ▸ h
      · next h => exact .unwritten (Bool.eq_false_iff.mpr h)
    | _ => exact .caller nofun

/-- **Refusals.** Whatever is no well-formed key is refused for what is wrong with it. -/
theorem validate_error_iff {v : Value} {f : Fault} :
    validate v = .error f ↔ ∃ c, Refuses v c ∧ Says c f := by
  have hshape (hv : ∀ es, v = .map es → es = []) (h : validate v = .error (.caller .keyShape)) :
      validate v = .error f ↔ ∃ c, Refuses v c ∧ refusal c = f := by
    rw [h]
    constructor
    · rintro ⟨⟩
      exact ⟨_, .shape hv, rfl⟩
    · rintro ⟨c, hrefuses, rfl⟩
      cases hrefuses with
      | shape => rfl
      | field => exact absurd (hv _ rfl) (by simp)
      | count _ hlength =>
        rw [hv _ rfl] at hlength
        cases hlength
  simp only [says_iff]
  cases v with
  | map es =>
    rcases eq_or_ne es [] with rfl | hne
    · exact hshape (fun _ h => (Value.map.inj h).symm) rfl
    · rw [validate_map hne]
      simp only [refuses_map_iff hne]
      cases es.findSome? fieldFault? with
      | some c => simp
      | none => by_cases hlength : 2 < es.length <;> simp [hlength, refusal]
  | _ => exact hshape nofun rfl

/-- The key is refused for a name that cannot be written out. -/
def Unwritten (key : Value) : Prop :=
  ∃ name, Refuses key (.keyName name) ∧ name.isWritable = false

/-- What a key is refused with is a mistake of the caller, but for such a name. -/
theorem caller_or_unwritten {key : Value} {f : Fault} (h : validate key = .error f) :
    (∃ c, f = .caller c) ∨ f = .malformed ∧ Unwritten key := by
  obtain ⟨c, hrefuses, hsaid⟩ := validate_error_iff.mp h
  cases hsaid with
  | caller => exact .inl ⟨c, rfl⟩
  | unwritten hname => exact .inr ⟨rfl, _, hrefuses, hname⟩

end ItemStore.Key
