import ItemStore.Lifecycle
import ItemStore.Proofs.Fields
import ItemStore.Proofs.Outcome

/-! Stamps.

What each part of a write comes to is said once, whether or not the clock lets it go on, and the
rest follows from that. The stamp of a write depends on one reading of the clock and on nothing else
that was drawn, and it is never the empty text. Where a record is written again, the managed fields
are the same for a replacement and for a partial update; only what they are laid over differs. -/
namespace ItemStore

open Outcome

/-- How many identifiers a new record may draw. -/
def Schema.newIds (schema : Schema) (id : Value) : Nat :=
  if schema.managesId && !id.isTruthy then 1 else 0

namespace Lifecycle

/-! ### What each part of a write comes to -/

section Parts
variable (schema : Schema) (src : Sources) (d : Draws)

/-- The next reading has this timestamp. -/
def NextStamp (src : Sources) (d : Draws) (s : String) : Prop :=
  (src.clock d.readings).bind Moment.timestamp? = some s

/-- The next timestamp, unless the reading is out of range. -/
def nextStamp : Except Fault String :=
  ((src.clock d.readings).bind Moment.timestamp?).elim (.error .outOfRange) .ok

/-- The identifier of a new record, if it is managed. -/
def idFields (id : Value) : Fields :=
  if schema.managesId then [(.text "id", if id.isTruthy then id else .text (src.ids d.ids))] else []

def createdFields (s : String) : Fields :=
  if schema.managesCreated then [(.text "created", .text s)] else []

def updatedFields (s : String) : Fields :=
  if schema.managesUpdated then [(.text "updated", .text s)] else []

theorem stamp_run :
    src.stamp d = (nextStamp src d, { d with readings := d.readings + 1 }) := by
  rw [Sources.stamp, run_get, run_set, nextStamp]
  cases (src.clock d.readings).bind Moment.timestamp? <;> rfl

theorem newId_run (id : Value) : newId schema src id d =
    (.ok (idFields schema src d id), { d with ids := d.ids + schema.newIds id }) := by
  rw [newId, idFields, Schema.newIds]
  cases schema.managesId with
  | false => rfl
  | true => cases id.isTruthy <;> rfl

theorem newStamps_run : newStamps schema src d =
    if schema.managesCreated || schema.managesUpdated then
      ((nextStamp src d).map fun s => createdFields schema s ++ updatedFields schema s,
        { d with readings := d.readings + 1 })
    else (.ok [], d) := by
  have hstamp := stamp_run src d
  rw [newStamps]
  split
  · cases hs : nextStamp src d with
    | error f => exact run_bind_of_error (hs ▸ hstamp)
    | ok s => exact run_bind_of_ok (hs ▸ hstamp)
  · rfl

theorem freshStamp_run : freshStamp schema src d =
    if schema.managesUpdated then
      ((nextStamp src d).map (updatedFields schema), { d with readings := d.readings + 1 })
    else (.ok [], d) := by
  have hstamp := stamp_run src d
  rw [freshStamp]
  split
  · next hmanages =>
    have hfields : updatedFields schema = fun s => [(.text "updated", .text s)] := by
      funext s
      rw [updatedFields, if_pos hmanages]
    rw [hfields]
    cases hs : nextStamp src d with
    | error f => exact run_bind_of_error (hs ▸ hstamp)
    | ok s => exact run_bind_of_ok (hs ▸ hstamp)
  · rfl

variable {src d}

theorem nextStamp_ok_iff {s : String} : nextStamp src d = .ok s ↔ NextStamp src d s := by
  rw [nextStamp, NextStamp]
  cases (src.clock d.readings).bind Moment.timestamp? <;> simp

theorem nextStamp_error_iff {f : Fault} :
    nextStamp src d = .error f ↔ f = .outOfRange ∧ ∀ s, ¬ NextStamp src d s := by
  simp only [nextStamp, NextStamp]
  cases (src.clock d.readings).bind Moment.timestamp? <;> simp [eq_comm]

end Parts

variable {schema : Schema} {src : Sources} {d d' : Draws}

theorem timestamp_ne_empty {m : Moment} {s : String} (h : m.timestamp? = some s) : s ≠ "" := by
  obtain ⟨t, -, rfl⟩ := Option.map_eq_some_iff.mp h
  intro hempty
  have hlast : 'Z' ∈ (String.ofList (Moment.stampChars t)).toList := by
    rw [String.toList_ofList, Moment.stampChars]
    simp
  rw [hempty] at hlast
  simp at hlast

/-- The managed fields of a record that is written again: none, or its stamp. -/
theorem freshStamp_ok {managed : Fields} (h : freshStamp schema src d = (.ok managed, d')) :
    (schema.managesUpdated = false ∧ managed = []) ∨
      schema.managesUpdated = true ∧ ∃ m s, src.clock d.readings = some m ∧
        m.timestamp? = some s ∧ managed = [(.text "updated", .text s)] := by
  rw [freshStamp_run] at h
  split at h
  · next hmanages =>
    obtain ⟨s, hs, rfl⟩ := map_ok.mp (Prod.mk.inj h).1
    obtain ⟨m, hm, hts⟩ := Option.bind_eq_some_iff.mp (nextStamp_ok_iff.mp hs)
    exact .inr ⟨hmanages, m, s, hm, hts, if_pos hmanages⟩
  · next hmanages =>
    cases h
    exact .inl ⟨Bool.eq_false_iff.mpr hmanages, rfl⟩

/-- At one reading of the clock the managed fields are the same. -/
theorem freshStamp_eq {e e' : Draws} {managed managed' : Fields}
    (hclock : src.clock d.readings = src.clock e.readings)
    (h : freshStamp schema src d = (.ok managed, d'))
    (h' : freshStamp schema src e = (.ok managed', e')) : managed = managed' := by
  rcases freshStamp_ok h with ⟨hno, rfl⟩ | ⟨hyes, m, s, hm, hs, rfl⟩
  · rcases freshStamp_ok h' with ⟨-, rfl⟩ | ⟨hyes, -⟩
    · rfl
    · rw [hno] at hyes
      cases hyes
  · rcases freshStamp_ok h' with ⟨hno, -⟩ | ⟨-, m', s', hm', hs', rfl⟩
    · rw [hno] at hyes
      cases hyes
    · rw [hclock, hm'] at hm
      cases hm
      rw [hs'] at hs
      cases hs
      rfl

/-- Fields that a write lays over a record: a map of names, none of which asks for removal. -/
structure IsManaged (managed : Fields) : Prop where
  isMap : managed.IsMap
  isNamed : managed.IsNamed
  stays : ∀ e ∈ managed, e.2.isDeleteSentinel = false

theorem freshStamp_isManaged {managed : Fields}
    (h : freshStamp schema src d = (.ok managed, d')) : IsManaged managed := by
  rcases freshStamp_ok h with ⟨-, rfl⟩ | ⟨-, m, s, -, hs, rfl⟩
  · exact ⟨.nil, by simp [Fields.IsNamed], by simp⟩
  · refine ⟨List.pairwise_singleton .., ?_, ?_⟩
    · exact List.forall_mem_singleton.mpr rfl
    · refine List.forall_mem_singleton.mpr ?_
      simpa [Value.isDeleteSentinel] using timestamp_ne_empty hs

/-! ### Writing a new record -/

/-- The identifier of a new record, if it is managed: the caller's or a fresh one. -/
theorem newId_ok {id : Value} {managed : Fields} (h : newId schema src id d = (.ok managed, d')) :
    d'.readings = d.readings ∧ ((schema.managesId = false ∧ managed = []) ∨
      schema.managesId = true ∧
        managed = [(.text "id", if id.isTruthy then id else .text (src.ids d.ids))]) := by
  rw [newId_run, idFields] at h
  cases h
  refine ⟨rfl, ?_⟩
  cases schema.managesId with
  | false => exact .inl ⟨rfl, rfl⟩
  | true => exact .inr ⟨rfl, rfl⟩

/-- The stamps of a new record are one stamp, as far as they are managed. -/
theorem newStamps_ok {managed : Fields} (h : newStamps schema src d = (.ok managed, d')) :
    ∃ s, s ≠ "" ∧
      managed = (if schema.managesCreated then [(.text "created", .text s)] else []) ++
        (if schema.managesUpdated then [(.text "updated", .text s)] else []) := by
  rw [newStamps_run] at h
  split at h
  · obtain ⟨s, hs, rfl⟩ := map_ok.mp (Prod.mk.inj h).1
    obtain ⟨m, -, hm⟩ := Option.bind_eq_some_iff.mp (nextStamp_ok_iff.mp hs)
    exact ⟨s, timestamp_ne_empty hm, rfl⟩
  · next hnone =>
    -- Nothing is managed, so any text will do.
    cases h
    simp only [Bool.or_eq_true, not_or, Bool.not_eq_true] at hnone
    exact ⟨"Z", by decide, by simp [hnone.1, hnone.2]⟩

theorem stampWrite_create {item : Fields} {id : Value} {stamped : Stamped}
    (h : stampWrite schema src (.create (.map item) id) d = (.ok stamped, d')) :
    ∃ ids stamps r, newId schema src id d = (.ok ids, r) ∧
      newStamps schema src r = (.ok stamps, d') ∧
      stamped = ⟨(storable item).overlay (ids ++ stamps), ids ++ stamps⟩ := by
  rw [stampWrite, run_bind] at h
  obtain ⟨fs, r, hfs, h⟩ := h
  obtain ⟨hitem, rfl⟩ := run_lift.mp hfs
  cases hitem
  rw [run_bind] at h
  obtain ⟨ids, r, hids, h⟩ := h
  rw [run_bind] at h
  obtain ⟨stamps, r', hstamps, h⟩ := h
  obtain ⟨rfl, rfl⟩ := run_pure.mp h
  exact ⟨ids, stamps, r, hids, hstamps, rfl⟩

/-! ### Writing a record again -/

theorem stampWrite_replace {key item : Fields} {stamped : Stamped}
    (h : stampWrite schema src (.replace (.map key) (.map item)) d = (.ok stamped, d')) :
    ∃ managed, freshStamp schema src d = (.ok managed, d') ∧
      stamped = ⟨((storable item).overlay managed).overlay key, managed⟩ := by
  rw [stampWrite, run_bind] at h
  obtain ⟨fs, r, hfs, h⟩ := h
  obtain ⟨hitem, rfl⟩ := run_lift.mp hfs
  cases hitem
  rw [run_bind] at h
  obtain ⟨managed, r, hmanaged, h⟩ := h
  rw [run_bind] at h
  obtain ⟨ks, r', hks, h⟩ := h
  obtain ⟨hkey, rfl⟩ := run_lift.mp hks
  cases hkey
  obtain ⟨rfl, rfl⟩ := run_pure.mp h
  exact ⟨managed, hmanaged, rfl⟩

theorem stampWrite_update {key attributes : Fields} {stamped : Stamped}
    (h : stampWrite schema src (.update (.map key) (.map attributes)) d = (.ok stamped, d')) :
    ∃ managed, freshStamp schema src d = (.ok managed, d') ∧
      stamped = ⟨attributes.overlay managed, managed.put "id" (key.getD "id")⟩ := by
  rw [stampWrite, run_bind] at h
  obtain ⟨fs, r, hfs, h⟩ := h
  obtain ⟨hattributes, rfl⟩ := run_lift.mp hfs
  cases hattributes
  rw [run_bind] at h
  obtain ⟨managed, r, hmanaged, h⟩ := h
  rw [run_bind] at h
  obtain ⟨ks, r', hks, h⟩ := h
  obtain ⟨hkey, rfl⟩ := run_lift.mp hks
  cases hkey
  obtain ⟨rfl, rfl⟩ := run_pure.mp h
  exact ⟨managed, hmanaged, rfl⟩

end Lifecycle

end ItemStore
