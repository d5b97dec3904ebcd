import Mathlib
import ItemStore.Memory.Record
import ItemStore.Proofs.Memory.Basic
import ItemStore.Proofs.Record

/-! Records in memory and records as values.

The two tables of a write are new, so nothing that was in memory is written to. They are written
field by field: the managed fields so far stand in the second, and in the first they lie over the
fields it started from. So a write leaves in them what a write of values puts together; it draws
the same, and it fails at the same reading. -/
namespace ItemStore.Memory

open Outcome
open Lifecycle (NextStamp nextStamp nextStamp_ok_iff nextStamp_error_iff idFields createdFields
  updatedFields newFields newFields_of_unstamped updatedFields_of_unstamped newRecord
  replacedRecord)

variable {m m' : Memory} {d : Draws} {schema : Schema} {src : Sources}

/-! ### The two tables -/

/-- The numbers of the next two tables. -/
def draft (m : Memory) : Written := ⟨m.tables.length, m.tables.length + 1⟩

/-- The memory with a record and what the caller gets back. -/
def drafted (m : Memory) (record result : Fields) : Memory :=
  { m with tables := m.tables ++ [record, result] }

/-- The memory with these managed fields, over the fields that the record started from. -/
def managing (m : Memory) (base managed : Fields) : Memory :=
  m.drafted (base.overlay managed) managed

theorem keeps_drafted (m : Memory) (record result : Fields) : m.Keeps (m.drafted record result) :=
  ⟨List.prefix_append .., List.prefix_rfl⟩

theorem load_drafted {s : Slot} (hs : m.Has s) (record result : Fields) :
    (m.drafted record result).load s = m.load s :=
  load_eq (keeps_drafted m record result).tables hs

theorem record_drafted (m : Memory) (record result : Fields) :
    (m.drafted record result).table m.draft.record = record := by
  simp [table, drafted, draft]

theorem result_drafted (m : Memory) (record result : Fields) :
    (m.drafted record result).table m.draft.result = result := by
  simp [table, drafted, draft]

theorem start_run (base : Fields) :
    start base ⟨d, m⟩ = (.ok m.draft, ⟨d, m.managing base []⟩) := by
  have htables : m.tables ++ [base] ++ [[]] = m.tables ++ [base, []] := List.append_assoc ..
  have hlength : (m.tables ++ [base]).length = m.tables.length + 1 := List.length_append ..
  show (Except.ok (⟨_, (m.tables ++ [base]).length⟩ : Written),
    (⟨d, ⟨m.tables ++ [base] ++ [[]], m.requests⟩⟩ : Bench)) = _
  rw [htables, hlength]
  rfl

theorem modify_pair (ts : List Fields) (record result : Fields) (change : Fields → Fields) :
    (ts ++ [record, result]).modify ts.length change = ts ++ [change record, result] ∧
      (ts ++ [record, result]).modify (ts.length + 1) change = ts ++ [record, change result] := by
  induction ts with
  | nil => exact ⟨rfl, rfl⟩
  | cons t ts ih => exact ⟨congrArg (t :: ·) ih.1, congrArg (t :: ·) ih.2⟩

theorem writeRecord_run (record result : Fields) (change : Fields → Fields) :
    remembering (writeTable m.draft.record change) ⟨d, m.drafted record result⟩ =
      (.ok (), ⟨d, m.drafted (change record) result⟩) :=
  congrArg (fun ts => (Except.ok (), (⟨d, { m with tables := ts }⟩ : Bench)))
    (modify_pair m.tables record result change).1

theorem writeResult_run (record result : Fields) (change : Fields → Fields) :
    remembering (writeTable m.draft.result change) ⟨d, m.drafted record result⟩ =
      (.ok (), ⟨d, m.drafted record (change result)⟩) :=
  congrArg (fun ts => (Except.ok (), (⟨d, { m with tables := ts }⟩ : Bench)))
    (modify_pair m.tables record result change).2

/-! ### Managed fields -/

/-- One more managed field. -/
theorem manage_run (base : Fields) {managed : Fields} {name : String}
    (hnew : managed.has name = false) (v : Value) :
    m.draft.manage name v ⟨d, m.managing base managed⟩ =
      (.ok (), ⟨d, m.managing base (managed ++ [(.text name, v)])⟩) := by
  have hrecord :
      (base.overlay managed).put name v = base.overlay (managed ++ [(.text name, v)]) := by
    rw [Fields.overlay, Fields.overlay, List.foldl_append]
    rfl
  have hresult : managed.put name v = managed ++ [(.text name, v)] := Fields.putKey_of_new hnew v
  rw [Written.manage, managing, run_bind_of_ok (writeRecord_run ..), writeResult_run, hrecord,
    hresult]
  rfl

theorem drawing_run {α : Type} {x : Drawing α} {outcome : Except Fault α} {d' : Draws}
    (h : x d = (outcome, d')) : drawing x ⟨d, m⟩ = (outcome, ⟨d', m⟩) := by
  show ((x d).1, (⟨(x d).2, m⟩ : Bench)) = _
  rw [h]

theorem manageId_run {id : Slot} (hid : m.Has id) (base : Fields) :
    m.draft.manageId schema src id ⟨d, m.managing base []⟩ =
      (.ok (), ⟨{ d with ids := d.ids + schema.newIds (m.load id) },
        m.managing base (idFields schema src d (m.load id))⟩) := by
  have hloaded : loaded id ⟨d, m.managing base []⟩ = (.ok (m.load id), ⟨d, m.managing base []⟩) :=
    congrArg (fun v => (Except.ok v, _)) (load_drafted hid ..)
  rw [Written.manageId, idFields, Schema.newIds]
  cases schema.managesId with
  | false => rfl
  | true =>
    rw [if_pos rfl, if_pos rfl, run_bind_of_ok hloaded]
    cases (m.load id).isTruthy with
    | true => exact manage_run base rfl _
    | false => exact (run_bind_of_ok (drawing_run rfl)).trans (manage_run base rfl _)

variable (src) in
theorem drawStamp_run : drawing src.stamp ⟨d, m⟩ =
    (nextStamp src d, ⟨{ d with readings := d.readings + 1 }, m⟩) :=
  drawing_run (Lifecycle.stamp_run src d)

variable (src) in
/-- A stamp that is drawn and written under a name. -/
theorem manageStamp_run (base : Fields) {managed : Fields} {name : String}
    (hnew : managed.has name = false) :
    (do m.draft.manage name (.text (← drawing src.stamp))) ⟨d, m.managing base managed⟩ =
      ((nextStamp src d).map fun _ => (), ⟨{ d with readings := d.readings + 1 },
        m.managing base (managed ++ match nextStamp src d with
          | .ok s => [(.text name, .text s)]
          | .error _ => [])⟩) := by
  have hdraw := drawStamp_run src (m := m.managing base managed) (d := d)
  cases hs : nextStamp src d with
  | error f =>
    rw [hs] at hdraw
    rw [run_bind_of_error hdraw, List.append_nil]
    rfl
  | ok s =>
    rw [hs] at hdraw
    exact (run_bind_of_ok hdraw).trans (manage_run base hnew _)

variable (schema src) in
/-- The stamp of a record that is written again. -/
theorem manageUpdated_run (base : Fields) :
    m.draft.manageUpdated schema src false ⟨d, m.managing base []⟩ =
      if schema.managesUpdated then
        ((nextStamp src d).map fun _ => (), ⟨{ d with readings := d.readings + 1 },
          m.managing base (match nextStamp src d with
            | .ok s => updatedFields schema s
            | .error _ => [])⟩)
      else (.ok (), ⟨d, m.managing base []⟩) := by
  rw [Written.manageUpdated]
  cases hmanages : schema.managesUpdated with
  | false => rfl
  | true =>
    have hfields : updatedFields schema = fun s => [(.text "updated", .text s)] := by
      funext s
      rw [updatedFields, if_pos hmanages]
    rw [if_pos rfl, if_pos rfl, Bool.false_and, if_neg Bool.false_ne_true, hfields]
    exact manageStamp_run src base rfl

variable (schema src) in
/-- The stamps of a new record, where the second repeats the first. -/
theorem manageStamps_run (base : Fields) {managed : Fields}
    (hcreated : managed.has "created" = false) (hupdated : managed.has "updated" = false) :
    (do
        m.draft.manageCreated schema src
        m.draft.manageUpdated schema src true) ⟨d, m.managing base managed⟩ =
      if schema.managesCreated || schema.managesUpdated then
        ((nextStamp src d).map fun _ => (), ⟨{ d with readings := d.readings + 1 },
          m.managing base (managed ++ match nextStamp src d with
            | .ok s => createdFields schema s ++ updatedFields schema s
            | .error _ => [])⟩)
      else (.ok (), ⟨d, m.managing base managed⟩) := by
  rw [Written.manageCreated, Written.manageUpdated, Bool.true_and]
  unfold createdFields updatedFields
  cases schema.managesCreated with
  | false =>
    rw [if_neg Bool.false_ne_true, Bool.false_or]
    cases schema.managesUpdated with
    | false => rfl
    | true => exact manageStamp_run src base hupdated
  | true =>
    have hstamp := manageStamp_run src (m := m) (d := d) base hcreated
    rw [if_pos rfl, Bool.true_or, if_pos rfl]
    cases hs : nextStamp src d with
    | error f =>
      rw [hs] at hstamp
      exact run_bind_of_error hstamp
    | ok s =>
      rw [hs] at hstamp
      rw [run_bind_of_ok hstamp]
      cases schema.managesUpdated with
      | false => rfl
      | true =>
        -- The second stamp is no reading: it is what the record now has under the first name.
        have hread : ((m.managing base (managed ++ [(.text "created", .text s)])).table
            m.draft.record).getD "created" = .text s := by
          rw [managing, record_drafted, Fields.overlay, List.foldl_append, Fields.getD]
          exact congrArg (Option.getD · _) (Fields.get?_put_self ..)
        have hnew : Fields.has (managed ++ [(.text "created", .text s)]) "updated" = false := by
          rw [Fields.has, Fields.hasKey] at hupdated ⊢
          simp [List.any_append, hupdated, Value.text_same]
        have hmanage := manage_run (m := m) (d := { d with readings := d.readings + 1 }) base hnew
          (.text s)
        rw [List.append_assoc] at hmanage
        rw [if_pos rfl, if_pos rfl, run_get, hread]
        exact hmanage

/-! ### Writes -/

/-- What the two tables of a write hold. -/
def stamped (m : Memory) (w : Written) : Stamped := ⟨m.table w.record, m.table w.result⟩

theorem stamped_drafted (m : Memory) (record result : Fields) :
    (m.drafted record result).stamped m.draft = ⟨record, result⟩ := by
  rw [stamped, record_drafted, result_drafted]

theorem loaded_run (s : Slot) : loaded s ⟨d, m⟩ = (.ok (m.load s), ⟨d, m⟩) := rfl

/-- **A create in memory** is a create of values, and leaves all that was in memory as it was. -/
theorem create_run {item id : Slot} {fs : Fields} (hitem : m.load item = .map fs)
    (hid : m.Has id) :
    ∃ outcome m', create schema src item id ⟨d, m⟩ = (outcome, ⟨(Lifecycle.stampWrite schema src
        (.create (.map fs) (m.load id)) d).2, m'⟩) ∧ m.Keeps m' ∧
      outcome.map m'.stamped =
        (Lifecycle.stampWrite schema src (.create (.map fs) (m.load id)) d).1 := by
  have hfields : (Value.map fs).fields = .ok fs := rfl
  have hnew : ∀ name ∈ ["created", "updated"],
      Fields.has (idFields schema src d (m.load id)) name = false := by
    rw [idFields]
    cases schema.managesId <;> simp [Fields.has, Fields.hasKey, Value.text_same]
  have hstamps := manageStamps_run schema src (m := m)
    (d := { d with ids := d.ids + schema.newIds (m.load id) }) (Lifecycle.storable fs)
    (hnew "created" (by simp)) (hnew "updated" (by simp))
  rw [Lifecycle.create_run, create, run_bind_of_ok (loaded_run item), hitem, hfields, run_ok_bind,
    run_bind_of_ok (start_run _), run_bind_of_ok (manageId_run hid _)]
  -- The stamps are taken as one step, for they fail together or not at all.
  rw [← bind_assoc]
  split
  · next hneeds =>
    rw [if_pos hneeds] at hstamps
    have hnext : nextStamp src { d with ids := d.ids + schema.newIds (m.load id) } =
      nextStamp src d := rfl
    rw [hnext] at hstamps
    cases hs : nextStamp src d with
    | error f =>
      rw [hs] at hstamps
      exact ⟨.error f, _, run_bind_of_error hstamps, keeps_drafted .., rfl⟩
    | ok s =>
      rw [hs] at hstamps
      exact ⟨.ok m.draft, _, run_bind_of_ok hstamps, keeps_drafted ..,
        congrArg Except.ok (stamped_drafted ..)⟩
  · next hneeds =>
    rw [if_neg hneeds] at hstamps
    refine ⟨.ok m.draft, _, run_bind_of_ok hstamps, keeps_drafted .., ?_⟩
    rw [newRecord, newFields_of_unstamped hneeds]
    exact congrArg Except.ok (stamped_drafted ..)

/-- Two tables that are stamped again and then finished hold what is made of the stamp, if this is
what finishing them comes to. -/
theorem again_run {finish : Recording Written} {base : Fields} {make : Fields → Stamped}
    (hfinish : ∀ d managed, finish ⟨d, m.managing base managed⟩ =
      (.ok m.draft, ⟨d, m.drafted (make managed).record (make managed).result⟩)) :
    ∃ outcome m', (m.draft.manageUpdated schema src false >>= fun _ => finish)
        ⟨d, m.managing base []⟩ = (outcome, ⟨((Lifecycle.freshStamp schema src >>= fun managed =>
          pure (make managed)) d).2, m'⟩) ∧ m.Keeps m' ∧
      outcome.map m'.stamped = ((Lifecycle.freshStamp schema src >>= fun managed =>
        pure (make managed)) d).1 := by
  have hstamp := manageUpdated_run schema src (m := m) (d := d) base
  rw [Lifecycle.again_run]
  split
  · next hneeds =>
    rw [if_pos hneeds] at hstamp
    cases hs : nextStamp src d with
    | error f =>
      rw [hs] at hstamp
      exact ⟨.error f, _, run_bind_of_error hstamp, keeps_drafted .., rfl⟩
    | ok s =>
      rw [hs] at hstamp
      exact ⟨.ok m.draft, _, (run_bind_of_ok hstamp).trans (hfinish ..), keeps_drafted ..,
        congrArg Except.ok (stamped_drafted ..)⟩
  · next hneeds =>
    rw [if_neg hneeds] at hstamp
    refine ⟨.ok m.draft, _, (run_bind_of_ok hstamp).trans (hfinish ..), keeps_drafted .., ?_⟩
    rw [updatedFields_of_unstamped hneeds]
    exact congrArg Except.ok (stamped_drafted ..)

section Again
variable {key : Slot} {ks fs : Fields}

/-- **A replacement in memory** is a replacement of values, and leaves all that was in memory as it
was. -/
theorem replace_run {item : Slot} (hkey : m.load key = .map ks) (hhas : m.Has key)
    (hitem : m.load item = .map fs) :
    ∃ outcome m', replace schema src key item ⟨d, m⟩ = (outcome, ⟨(Lifecycle.stampWrite schema src
        (.replace (.map ks) (.map fs)) d).2, m'⟩) ∧ m.Keeps m' ∧
      outcome.map m'.stamped =
        (Lifecycle.stampWrite schema src (.replace (.map ks) (.map fs)) d).1 := by
  have hfields : (Value.map fs).fields = .ok fs := rfl
  have hkeyFields : (Value.map ks).toFields = .ok ks := rfl
  rw [replace, run_bind_of_ok (loaded_run item), hitem, hfields, run_ok_bind,
    run_bind_of_ok (start_run _)]
  refine again_run fun d managed => ?_
  rw [run_bind_of_ok (loaded_run key), managing, load_drafted hhas, hkey, hkeyFields, run_ok_bind,
    run_bind_of_ok (writeRecord_run ..)]
  rfl

/-- **A partial update in memory** is one of values, and leaves all that was in memory as it was. -/
theorem update_run {attributes : Slot} (hkey : m.load key = .map ks) (hhas : m.Has key)
    (hattributes : (m.load attributes).toFields = .ok fs) :
    ∃ outcome m', update schema src key attributes ⟨d, m⟩ =
        (outcome, ⟨(Lifecycle.stampWrite schema src
          (.update (.map ks) (m.load attributes)) d).2, m'⟩) ∧ m.Keeps m' ∧
      outcome.map m'.stamped =
        (Lifecycle.stampWrite schema src (.update (.map ks) (m.load attributes)) d).1 := by
  have hkeyFields : (Value.map ks).fields = .ok ks := rfl
  rw [update, run_bind_of_ok (loaded_run attributes), Lifecycle.stampWrite, hattributes,
    run_ok_bind, run_ok_bind, run_bind_of_ok (start_run _)]
  refine again_run fun d managed => ?_
  rw [run_bind_of_ok (loaded_run key), managing, load_drafted hhas, hkey, hkeyFields, run_ok_bind,
    run_bind_of_ok (writeResult_run ..)]
  rfl

end Again

/-- The write of values that a call by name asks for. -/
inductive Asks (m : Memory) : String → List Slot → RecordWrite → Prop
  | create {item : Slot} {fs : Fields} (hitem : m.load item = .map fs) :
      Asks m "on_create" [item] (.create (.map fs) .null)
  | createUnder {item id : Slot} {fs : Fields} (hitem : m.load item = .map fs) (hid : m.Has id) :
      Asks m "on_create" [item, id] (.create (.map fs) (m.load id))
  | replace {key item : Slot} {ks fs : Fields} (hkey : m.load key = .map ks) (hhas : m.Has key)
      (hitem : m.load item = .map fs) :
      Asks m "on_replace" [key, item] (.replace (.map ks) (.map fs))
  | update {key attributes : Slot} {ks fs : Fields} (hkey : m.load key = .map ks)
      (hhas : m.Has key) (hattributes : (m.load attributes).toFields = .ok fs) :
      Asks m "on_partial_update" [key, attributes] (.update (.map ks) (m.load attributes))

/-- **Writes by their names.** Each is the write of values that it asks for, fails with it and draws
what it draws, and leaves all that was in memory as it was. -/
theorem call_run {name : String} {args : List Slot} {write : RecordWrite}
    (h : Asks m name args write) :
    ∃ outcome m', call schema src name args ⟨d, m⟩ =
        (outcome, ⟨(Lifecycle.stampWrite schema src write d).2, m'⟩) ∧ m.Keeps m' ∧
      outcome.map m'.stamped = (Lifecycle.stampWrite schema src write d).1 := by
  cases h with
  | create hitem => exact create_run hitem (show m.Has (.value .null) from trivial)
  | createUnder hitem hid => exact create_run hitem hid
  | replace hkey hhas hitem => exact replace_run hkey hhas hitem
  | update hkey hhas hattributes => exact update_run hkey hhas hattributes

/-! ### Field by field -/

/-- A write that reads the clock if it is to stamp, once then and never otherwise, and draws so many
identifiers. The maps of callers are as they were. It fails only where a reading has no timestamp,
and else what it wrote is right for the stamp. -/
structure Writes (src : Sources) (stamps : Bool) (ids : Nat) (right : String → Stamped → Prop)
    (b : Bench) (written : Except Fault Written × Bench) : Prop where
  readings : written.2.draws.readings = b.draws.readings + if stamps then 1 else 0
  ids : written.2.draws.ids = b.draws.ids + ids
  callers : ∀ s, b.memory.Has s → written.2.memory.load s = b.memory.load s
  fails : ∀ f, written.1 = .error f ↔
    f = .outOfRange ∧ stamps = true ∧ ∀ s, ¬ NextStamp src b.draws s
  right : ∀ w, written.1 = .ok w → ∃ s, (stamps = true → NextStamp src b.draws s) ∧
    right s (written.2.memory.stamped w)

/-- A write in memory is as right as the write of values that it is. -/
theorem writes_of_values {stamps : Bool} {ids : Nat} {right : String → Stamped → Prop}
    {make : String → Stamped} {values : Except Fault Stamped × Draws}
    {written : Except Fault Written × Bench}
    (hvalues : values = if stamps then
        ((nextStamp src d).map make, ⟨d.readings + 1, d.ids + ids⟩)
      else (.ok (make ""), ⟨d.readings, d.ids + ids⟩))
    (hright : ∀ s, right s (make s))
    (hwritten : ∃ outcome m', written = (outcome, ⟨values.2, m'⟩) ∧ m.Keeps m' ∧
      outcome.map m'.stamped = values.1) :
    Writes src stamps ids right ⟨d, m⟩ written := by
  obtain ⟨outcome, m', rfl, hkeeps, houtcome⟩ := hwritten
  have hcallers : ∀ s, m.Has s → m'.load s = m.load s := fun s hs => load_eq hkeeps.tables hs
  cases stamps with
  | false =>
    rw [if_neg Bool.false_ne_true] at hvalues
    subst hvalues
    obtain ⟨w, rfl, hw⟩ := map_ok.mp houtcome
    refine ⟨rfl, rfl, hcallers, by simp, fun _ hok => ?_⟩
    obtain rfl := Except.ok.inj hok
    exact ⟨"", by simp, hw ▸ hright ""⟩
  | true =>
    rw [if_pos rfl] at hvalues
    subst hvalues
    cases hs : nextStamp src d with
    | error f =>
      rw [hs] at houtcome
      obtain rfl : outcome = .error f := by cases outcome <;> cases houtcome; rfl
      have hnone := nextStamp_error_iff.mp hs
      exact ⟨rfl, rfl, hcallers, fun g => by simp [hnone, eq_comm], fun _ hok => by cases hok⟩
    | ok s =>
      rw [hs] at houtcome
      obtain ⟨w, rfl, hw⟩ := map_ok.mp houtcome
      have hnext := nextStamp_ok_iff.mp hs
      have hsome : ∃ s, NextStamp src d s := ⟨s, hnext⟩
      refine ⟨rfl, rfl, hcallers, fun g => by simp [hsome], fun _ hok => ?_⟩
      obtain rfl := Except.ok.inj hok
      exact ⟨s, fun _ => hnext, hw ▸ hright s⟩

/-- **Records field by field.** Whatever the schema, the clock and the generator, a create and a
replacement put each field of the record where it comes from: a managed one from the sources or the
caller's identifier, a key field from the key, any other from the item, unless it is the empty text
there. They read the clock once if they stamp, draw an identifier only where the caller has none,
and write to no map of the caller. -/
theorem records_by_field (schema : Schema) (src : Sources) (d : Draws) (m : Memory) :
    (∀ (item id : Slot) (fs : Fields), m.load item = .map fs → m.Has id →
      Writes src (schema.managesCreated || schema.managesUpdated) (schema.newIds (m.load id))
        (Lifecycle.Created schema src d fs (m.load id)) ⟨d, m⟩
        (create schema src item id ⟨d, m⟩)) ∧
      ∀ (key item : Slot) (ks fs : Fields), m.load key = .map ks → m.Has key → ks.IsMap →
        ks.IsNamed → m.load item = .map fs →
        Writes src schema.managesUpdated 0 (Lifecycle.Replaced schema ks fs) ⟨d, m⟩
          (replace schema src key item ⟨d, m⟩) := by
  refine ⟨fun item id fs hitem hid => ?_, fun key item ks fs hkey hhas hmap hnamed hitem => ?_⟩
  · exact writes_of_values (Lifecycle.create_run ..)
      (Lifecycle.created_newRecord schema src d fs (m.load id)) (create_run hitem hid)
  · exact writes_of_values (Lifecycle.replace_run ..)
      (Lifecycle.replaced_replacedRecord hmap hnamed schema fs) (replace_run hkey hhas hitem)

/-- An item with the names of managed fields, created under an identifier that is the empty text and
replaced under a key that has one of the names, by a clock with a single reading. -/
theorem records_by_field_overlap :
    let src : Sources := ⟨fun n => if n = 0 then some ⟨0, none⟩ else none, sequentialIds "id-"⟩
    let item : Fields := [(.text "created", .int 1), (.text "size", .int 3), (.text "id", .text ""),
      (.text "note", .text "")]
    let key : Fields := [(.text "size", .int 4), (.text "updated", .text "")]
    let schema : Schema := ⟨true, true, true⟩
    let b : Bench := ⟨⟨0, 0⟩, ⟨[item, key], []⟩⟩
    let id : Slot := .value (.text "")
    b.memory.load (.table 0) = .map item ∧ b.memory.load (.table 1) = .map key ∧
      b.memory.Has id ∧ b.memory.Has (.table 1) ∧ key.IsMap ∧ key.IsNamed ∧
      (create schema src (.table 0) id b).2.memory.table 2 =
        [(.text "created", .text "0001-01-01T00:00:00.000Z"), (.text "size", .int 3),
          (.text "id", .text "id-1"), (.text "updated", .text "0001-01-01T00:00:00.000Z")] ∧
      (replace schema src (.table 1) (.table 0) b).2.memory.table 2 =
        [(.text "created", .int 1), (.text "size", .int 4), (.text "updated", .text "")] ∧
      Writes src true 1 (Lifecycle.Created schema src b.draws item (.text "")) b
        (create schema src (.table 0) id b) ∧
      Writes src true 0 (Lifecycle.Replaced schema key item) b
        (replace schema src (.table 1) (.table 0) b) := by
  intro src item key schema b id
  have hhas : b.memory.Has (.table 1) := Nat.lt_succ_self 1
  have hmap : key.IsMap := by decide +kernel
  have hnamed : key.IsNamed := by decide +kernel
  have hwrites := records_by_field schema src b.draws b.memory
  refine ⟨rfl, rfl, trivial, hhas, hmap, hnamed, by cbv, by cbv, ?_, ?_⟩
  · exact hwrites.1 (.table 0) id item rfl trivial
  · exact hwrites.2 (.table 1) (.table 0) key item rfl hhas hmap hnamed rfl

end ItemStore.Memory
