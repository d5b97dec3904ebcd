import ItemStore.Proofs.Requests
import ItemStore.Proofs.Update.Placeholders

/-! An update in a request of a caller.

A request may come with placeholders of its own, and one of these may be a placeholder of the
update. The first such name is an error, then the first such value, where first means smallest
number (`FirstTaken`); values are looked at only if both their tables have a wire form. `Merges`
lists the four ways in which it can end. A request that the update could not be put into is as it
was before, and one that it was put into has the entries of the caller, then those of the update,
and nothing else in it has changed (`Merged`). -/
namespace ItemStore

open Outcome

namespace Fault

/-- A placeholder is there already. -/
def isCollision : Fault → Bool
  | .caller (.nameCollision _) => true
  | .caller (.valueCollision _) => true
  | _ => false

theorem not_isCollision_of_isShape {f : Fault} (h : f.isShape = true) : f.isCollision = false := by
  cases f <;> first | rfl | cases h

theorem not_isCollision_of_isOfValue {f : Fault} (h : f.isOfValue = true) :
    f.isCollision = false := by
  cases f with
  | caller c => cases c <;> first | rfl | cases h
  | _ => rfl

end Fault

namespace Update

/-! ### The first placeholder that is taken -/

/-- The placeholder is taken, and no field with a smaller number has one that is. -/
structure FirstTaken (taken : Fields) (ref : Numbered → String) (fs : List Numbered)
    (r : String) : Prop where
  exists_field : ∃ f ∈ fs, ref f = r ∧ taken.has r = true ∧
    ∀ g ∈ fs, taken.has (ref g) = true → f.index ≤ g.index

/-- No placeholder is taken. -/
def Free (taken : Fields) (ref : Numbered → String) (fs : List Numbered) : Prop :=
  ∀ f ∈ fs, taken.has (ref f) = false

variable {taken : Fields} {ref : Numbered → String} {fs : List Numbered}

theorem find?_eq_none_iff_free : (fs.map ref).find? taken.has = none ↔ Free taken ref fs := by
  simp [Free, List.find?_eq_none]

/-- Where the numbers go up, what is found first has the smallest. -/
theorem find?_eq_some_iff_first (hfs : fs.Pairwise fun f g => f.index < g.index) {r : String} :
    (fs.map ref).find? taken.has = some r ↔ FirstTaken taken ref fs r := by
  induction fs with
  | nil =>
    constructor
    · intro h
      cases h
    · intro h
      obtain ⟨f, hf, -⟩ := h.exists_field
      cases hf
  | cons f fs ih =>
    obtain ⟨hlt, hfs⟩ := List.pairwise_cons.mp hfs
    rw [List.map_cons, List.find?_cons]
    cases htaken : taken.has (ref f) with
    | true =>
      constructor
      · intro h
        cases h
        refine ⟨f, List.mem_cons_self .., rfl, htaken, fun g hg _ => ?_⟩
        rcases List.mem_cons.mp hg with rfl | hg
        · exact le_rfl
        · exact (hlt g hg).le
      · intro h
        obtain ⟨g, hg, rfl, -, hleast⟩ := h.exists_field
        have hle := hleast f (List.mem_cons_self ..) htaken
        rcases List.mem_cons.mp hg with rfl | hg
        · rfl
        · have hgt := hlt g hg
          omega
    | false =>
      -- The field is out of the question, on either side.
      have hne {g : Numbered} (hg : g ∈ f :: fs) (h : taken.has (ref g) = true) : g ∈ fs := by
        rcases List.mem_cons.mp hg with rfl | hg
        · rw [htaken] at h
          cases h
        · exact hg
      rw [ih hfs]
      constructor
      · intro h
        obtain ⟨g, hg, rfl, hr, hleast⟩ := h.exists_field
        exact ⟨g, List.mem_cons_of_mem _ hg, rfl, hr, fun g' hg' h' => hleast g' (hne hg' h') h'⟩
      · intro h
        obtain ⟨g, hg, rfl, hr, hleast⟩ := h.exists_field
        exact ⟨g, hne hg hr, rfl, hr, fun g' hg' => hleast g' (List.mem_cons_of_mem _ hg')⟩

/-- Different placeholders are added if none of them is there, and the first that is there is an
error: those that were added before it are no reason for one. -/
theorem addNew_eq_find {collision : Text.Points → CallerFault} {rs : References} {fs : Fields}
    (hrs : (rs.map Prod.fst).Nodup) :
    addNew collision fs rs =
      match (rs.map Prod.fst).find? fs.has with
      | some r => .error (.caller (collision (Text.points r)))
      | none => .ok (fs ++ rs.toFields) := by
  induction rs generalizing fs with
  | nil => simp [addNew, References.toFields]
  | cons r rs ih =>
    obtain ⟨hnot, hrs⟩ := List.nodup_cons.mp hrs
    rw [addNew, List.map_cons, List.find?_cons]
    cases hr : fs.has r.1 with
    | true => rfl
    | false =>
      have hput : (rs.map Prod.fst).find? (fs.put r.1 r.2).has =
          (rs.map Prod.fst).find? fs.has := by
        refine List.find?_congr fun n hn => ?_
        have hne : r.1 ≠ n := fun heq => hnot (heq ▸ hn)
        rw [Fields.has_eq_isSome, Fields.has_eq_isSome, Fields.get?_put, if_neg hne]
      rw [if_neg (by decide), ih hrs, hput, Fields.put, Fields.putKey_of_new hr]
      simp [References.toFields]

/-! ### How it ends -/

/-- What the tables of a request read as, with the wire forms of the caller's values and of those
of the update. -/
structure Reads (u : Update) (req names values present : Fields) (refs : References) : Prop where
  readNames : (req.getD "ExpressionAttributeNames").toFieldsOrEmpty = .ok names
  readValues : callerValues (req.getD "ExpressionAttributeValues") = .ok values
  present : Wire.encodeFields values = .ok present
  refs : encodeReferences u.values = .ok refs

/-- The ways in which the tables of a request can take up those of an update. -/
inductive Merges (u : Update) (req : Fields) : Except Fault (Fields × Fields) → Prop
  | nameTaken {names : Fields} {r : String}
    (hnames : (req.getD "ExpressionAttributeNames").toFieldsOrEmpty = .ok names)
    (hfirst : FirstTaken names Numbered.nameRef u.numbered r) :
    Merges u req (.error (.caller (.nameCollision (Text.points r))))
  | valueTaken {names values present : Fields} {refs : References} {r : String}
    (hreads : Reads u req names values present refs)
    (hfree : Free names Numbered.nameRef u.numbered)
    (hfirst : FirstTaken values Numbered.valueRef u.assigned r) :
    Merges u req (.error (.caller (.valueCollision (Text.points r))))
  | unread {f : Fault} (hf : f.isCollision = false) : Merges u req (.error f)
  | merged {names values present : Fields} {refs : References}
    (hreads : Reads u req names values present refs)
    (hfree : Free names Numbered.nameRef u.numbered)
    (hfree' : Free values Numbered.valueRef u.assigned) :
    Merges u req (.ok (names ++ u.names.toFields, present ++ refs.toFields))

variable {u : Update} {req names values present : Fields} {refs : References}

theorem addNew_names (u : Update) (names : Fields) : addNew .nameCollision names u.names =
    match (u.numbered.map Numbered.nameRef).find? names.has with
    | some r => .error (.caller (.nameCollision (Text.points r)))
    | none => .ok (names ++ u.names.toFields) := by
  have hkeys : u.names.map Prod.fst = u.numbered.map Numbered.nameRef := List.map_map ..
  have hnodup := nodup_nameRefs u.numbered_increasing
  rw [← hkeys] at hnodup ⊢
  exact addNew_eq_find hnodup

theorem addNew_values (hreads : Reads u req names values present refs) :
    addNew .valueCollision present refs =
      match (u.assigned.map Numbered.valueRef).find? values.has with
      | some r => .error (.caller (.valueCollision (Text.points r)))
      | none => .ok (present ++ refs.toFields) := by
  have hkeys : refs.map Prod.fst = u.assigned.map Numbered.valueRef :=
    (Wire.keys_eq (fun _ _ he => he.1) (encodeReferences_ok.mp hreads.refs)).trans
      (List.map_map ..)
  have hhas : present.has = values.has := funext <| Fields.has_congr <|
    Wire.keys_eq (fun _ _ he => he.1) (Wire.encodeFields_ok.mp hreads.present)
  have hnodup := nodup_valueRefs u.assigned_increasing
  rw [← hhas, ← hkeys]
  refine addNew_eq_find ?_
  rw [hkeys]
  exact hnodup

theorem tables_nameTaken {r : String}
    (hnames : (req.getD "ExpressionAttributeNames").toFieldsOrEmpty = .ok names)
    (hfirst : FirstTaken names Numbered.nameRef u.numbered r) :
    u.tables req = .error (.caller (.nameCollision (Text.points r))) := by
  rw [tables, hnames, ok_bind, addNew_names,
    (find?_eq_some_iff_first u.numbered_increasing).mpr hfirst]
  rfl

theorem tables_free
    (hnames : (req.getD "ExpressionAttributeNames").toFieldsOrEmpty = .ok names)
    (hfree : Free names Numbered.nameRef u.numbered) :
    u.tables req = do
      let present ← Wire.encodeFields (← callerValues (req.getD "ExpressionAttributeValues"))
      let values ← addNew .valueCollision present (← encodeReferences u.values)
      return (names ++ u.names.toFields, values) := by
  rw [tables, hnames, ok_bind, addNew_names, find?_eq_none_iff_free.mpr hfree]
  rfl

theorem tables_valueTaken (hreads : Reads u req names values present refs)
    (hfree : Free names Numbered.nameRef u.numbered) {r : String}
    (hfirst : FirstTaken values Numbered.valueRef u.assigned r) :
    u.tables req = .error (.caller (.valueCollision (Text.points r))) := by
  rw [tables_free hreads.readNames hfree, hreads.readValues, ok_bind, hreads.present, ok_bind,
    hreads.refs, ok_bind, addNew_values hreads,
    (find?_eq_some_iff_first u.assigned_increasing).mpr hfirst]
  rfl

theorem tables_merged (hreads : Reads u req names values present refs)
    (hfree : Free names Numbered.nameRef u.numbered)
    (hfree' : Free values Numbered.valueRef u.assigned) :
    u.tables req = .ok (names ++ u.names.toFields, present ++ refs.toFields) := by
  rw [tables_free hreads.readNames hfree, hreads.readValues, ok_bind, hreads.present, ok_bind,
    hreads.refs, ok_bind, addNew_values hreads, find?_eq_none_iff_free.mpr hfree']
  rfl

/-- Where both tables were read and have a wire form, only a value can be taken. -/
theorem merges_of_reads (hreads : Reads u req names values present refs)
    (hfree : Free names Numbered.nameRef u.numbered) : Merges u req (u.tables req) := by
  cases hfind : (u.assigned.map Numbered.valueRef).find? values.has with
  | some r =>
    have hfirst := (find?_eq_some_iff_first u.assigned_increasing).mp hfind
    rw [tables_valueTaken hreads hfree hfirst]
    exact .valueTaken hreads hfree hfirst
  | none =>
    have hfree' := find?_eq_none_iff_free.mp hfind
    rw [tables_merged hreads hfree hfree']
    exact .merged hreads hfree hfree'

/-- A fault of the values is no collision, whichever of the three steps it comes from. -/
theorem merges_of_free (hnames : (req.getD "ExpressionAttributeNames").toFieldsOrEmpty = .ok names)
    (hfree : Free names Numbered.nameRef u.numbered) : Merges u req (u.tables req) := by
  cases hvalues : callerValues (req.getD "ExpressionAttributeValues") with
  | error f =>
    rw [tables_free hnames hfree, hvalues]
    exact .unread (Fault.not_isCollision_of_isShape (callerValues_fails _ f hvalues).1)
  | ok values =>
    cases hpresent : Wire.encodeFields values with
    | error f =>
      rw [tables_free hnames hfree, hvalues, ok_bind, hpresent]
      have hunsent := Wire.encodeFields_unsent _ f hpresent
      exact .unread (Fault.not_isCollision_of_isOfValue hunsent.isOfValue)
    | ok present =>
      cases hrefs : encodeReferences u.values with
      | error f =>
        rw [tables_free hnames hfree, hvalues, ok_bind, hpresent, ok_bind, hrefs]
        obtain ⟨r, -, hunsent⟩ := encodeReferences_fails _ f hrefs
        exact .unread (Fault.not_isCollision_of_isOfValue hunsent.isOfValue)
      | ok refs => exact merges_of_reads ⟨hnames, hvalues, hpresent, hrefs⟩ hfree

/-- There is no other way for it to end. -/
theorem tables_merges (u : Update) (req : Fields) : Merges u req (u.tables req) := by
  cases hnames : (req.getD "ExpressionAttributeNames").toFieldsOrEmpty with
  | error f =>
    have htables : u.tables req = .error f := by
      rw [tables, hnames]
      rfl
    rw [htables]
    exact .unread (Fault.not_isCollision_of_isShape (Value.toFieldsOrEmpty_fails _ f hnames).1)
  | ok names =>
    cases hfind : (u.numbered.map Numbered.nameRef).find? names.has with
    | some r =>
      have hfirst := (find?_eq_some_iff_first u.numbered_increasing).mp hfind
      rw [tables_nameTaken hnames hfirst]
      exact .nameTaken hnames hfirst
    | none => exact merges_of_free hnames (find?_eq_none_iff_free.mp hfind)

theorem nameTaken_iff {ref : Text.Points} :
    u.tables req = .error (.caller (.nameCollision ref)) ↔
      ∃ r names, ref = Text.points r ∧
        (req.getD "ExpressionAttributeNames").toFieldsOrEmpty = .ok names ∧
        FirstTaken names Numbered.nameRef u.numbered r := by
  constructor
  · intro h
    have hmerges := tables_merges u req
    rw [h] at hmerges
    cases hmerges with
    | nameTaken hnames hfirst => exact ⟨_, _, rfl, hnames, hfirst⟩
    | unread hf => cases hf
  · intro h
    obtain ⟨r, names, rfl, hnames, hfirst⟩ := h
    exact tables_nameTaken hnames hfirst

theorem valueTaken_iff {ref : Text.Points} :
    u.tables req = .error (.caller (.valueCollision ref)) ↔
      ∃ r names values present refs, ref = Text.points r ∧
        Reads u req names values present refs ∧
        Free names Numbered.nameRef u.numbered ∧
        FirstTaken values Numbered.valueRef u.assigned r := by
  constructor
  · intro h
    have hmerges := tables_merges u req
    rw [h] at hmerges
    cases hmerges with
    | valueTaken hreads hfree hfirst => exact ⟨_, _, _, _, _, rfl, hreads, hfree, hfirst⟩
    | unread hf => cases hf
  · intro h
    obtain ⟨r, names, values, present, refs, rfl, hreads, hfree, hfirst⟩ := h
    exact tables_valueTaken hreads hfree hfirst

theorem merged_iff {found : Fields × Fields} :
    u.tables req = .ok found ↔
      ∃ names values present refs, Reads u req names values present refs ∧
        Free names Numbered.nameRef u.numbered ∧ Free values Numbered.valueRef u.assigned ∧
        found = (names ++ u.names.toFields, present ++ refs.toFields) := by
  constructor
  · intro h
    have hmerges := tables_merges u req
    rw [h] at hmerges
    cases hmerges with
    | merged hreads hfree hfree' => exact ⟨_, _, _, _, hreads, hfree, hfree', rfl⟩
  · intro h
    obtain ⟨names, values, present, refs, hreads, hfree, hfree', rfl⟩ := h
    exact tables_merged hreads hfree hfree'

/-! ### The request -/

/-- The parameter is none that an update writes. -/
def isOther (e : Value × Value) : Bool := meaningParams.all fun n => !e.1.same (.text n)

/-- The request with the update in it: its text, the caller's entries with those of the update
behind them, no empty table of values, and all other parameters in their places. -/
structure Merged (u : Update) (req req' names present : Fields) (refs : References) : Prop where
  text : req'.get? "UpdateExpression" = some (.text u.expression)
  names : req'.get? "ExpressionAttributeNames" = some (.map (names ++ u.names.toFields))
  values : req'.get? "ExpressionAttributeValues" =
    if (present ++ refs.toFields).isEmpty then none else some (.map (present ++ refs.toFields))
  others : req'.filter isOther = req.filter isOther

theorem not_isOther (name : String) (hname : name ∈ meaningParams) (e : Value × Value)
    (h : e.1.same (.text name) = true) : isOther e = false := by
  rw [isOther, List.all_eq_false]
  exact ⟨name, hname, by simp [h]⟩

theorem filter_write (u : Update) (names values req : Fields) :
    (u.write (names, values) req).filter isOther = req.filter isOther := by
  have htext := Fields.filter_put (not_isOther "UpdateExpression" (by decide))
  have hnames := Fields.filter_put (not_isOther "ExpressionAttributeNames" (by decide))
  have hvalues := not_isOther "ExpressionAttributeValues" (by decide)
  rw [write]
  split
  · rw [Fields.filter_erase hvalues, hnames, htext]
  · rw [Fields.filter_put hvalues, hnames, htext]

theorem amend_error {f : Fault} :
    (u.attach.amend req).1 = .error f ↔ u.tables req = .error f := by
  rw [attach, Amendment.amend_checked]
  cases u.tables req <;> simp

theorem amend_ok :
    (u.attach.amend req).1 = .ok () ↔ ∃ found, u.tables req = .ok found := by
  rw [attach, Amendment.amend_checked]
  cases u.tables req <;> simp

theorem amend_request :
    (u.attach.amend req).2 = match u.tables req with
      | .ok found => u.write found req
      | .error _ => req := by
  rw [attach, Amendment.amend_checked]
  cases u.tables req <;> rfl

/-- **An update is merged or leaves the request alone.** Into any request, any update is put with
one of these outcomes. A name of it is refused exactly if the caller's names have one of its names,
and it is the one with the smallest number. If they have none, and the caller's values and those of
the update have a wire form, then a value is refused exactly if the caller's values have one of its
values, again that with the smallest number, and the update is merged exactly if they have none.
After any fault the request is as it was; after success it has every entry of the caller, those of
the update, and all of its other parameters as they were. -/
theorem attach_merges (u : Update) (req : Fields) :
    let outcome := (u.attach.amend req).1
    let req' := (u.attach.amend req).2
    (∀ ref, outcome = .error (.caller (.nameCollision ref)) ↔
      ∃ r names, ref = Text.points r ∧
        (req.getD "ExpressionAttributeNames").toFieldsOrEmpty = .ok names ∧
        FirstTaken names Numbered.nameRef u.numbered r) ∧
    (∀ ref, outcome = .error (.caller (.valueCollision ref)) ↔
      ∃ r names values present refs, ref = Text.points r ∧
        Reads u req names values present refs ∧
        Free names Numbered.nameRef u.numbered ∧
        FirstTaken values Numbered.valueRef u.assigned r) ∧
    (outcome = .ok () ↔
      ∃ names values present refs, Reads u req names values present refs ∧
        Free names Numbered.nameRef u.numbered ∧ Free values Numbered.valueRef u.assigned) ∧
    (∀ f, outcome = .error f → req' = req) ∧
    (outcome = .ok () → ∃ names values present refs, Reads u req names values present refs ∧
      Merged u req req' names present refs) := by
  intro outcome req'
  refine ⟨fun ref => amend_error.trans nameTaken_iff, fun ref => amend_error.trans valueTaken_iff,
    ?_, fun f h => ?_, fun h => ?_⟩
  · rw [amend_ok]
    constructor
    · intro h
      obtain ⟨found, h⟩ := h
      obtain ⟨names, values, present, refs, hreads, hfree, hfree', -⟩ := merged_iff.mp h
      exact ⟨names, values, present, refs, hreads, hfree, hfree'⟩
    · intro h
      obtain ⟨names, values, present, refs, hreads, hfree, hfree'⟩ := h
      exact ⟨_, tables_merged hreads hfree hfree'⟩
  · show (u.attach.amend req).2 = req
    rw [amend_request, amend_error.mp h]
  · obtain ⟨found, h⟩ := amend_ok.mp h
    have hreq : req' = u.write found req := by
      show (u.attach.amend req).2 = _
      rw [amend_request, h]
    obtain ⟨names, values, present, refs, hreads, -, -, rfl⟩ := merged_iff.mp h
    refine ⟨names, values, present, refs, hreads, ?_⟩
    rw [hreq]
    exact ⟨get?_write .., get?_write .., get?_write .., filter_write ..⟩

end Update

end ItemStore
