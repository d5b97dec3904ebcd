import ItemStore.Proofs.Draws

/-! Records field by field.

A new record has its identifier and its stamps, a record that is written again its key and its
stamp, and either has the fields of the caller that are not the empty text, each in its place unless
one of the others has its name. What the sources are asked for, and whether the clock lets the
write go on, depends on the schema and on the caller's identifier only. -/
namespace ItemStore.Lifecycle

open Outcome

variable (schema : Schema) (src : Sources) (d : Draws)

/-! ### What a write comes to -/

theorem mem_storable_iff {fs : Fields} {e : Value × Value} :
    e ∈ storable fs ↔ e ∈ fs ∧ e.2 ≠ .text "" := by
  obtain ⟨k, v⟩ := e
  rw [storable, List.mem_filter]
  cases v <;> simp [Value.isDeleteSentinel]

/-- The managed fields of a new record, in order. -/
def newFields (id : Value) (s : String) : Fields :=
  idFields schema src d id ++ (createdFields schema s ++ updatedFields schema s)

variable {schema src d} {fs : Fields} {id : Value} {s : String}

/-- The record of a create, and what the caller gets back. -/
def newRecord (schema : Schema) (src : Sources) (d : Draws) (fs : Fields) (id : Value)
    (s : String) : Stamped :=
  ⟨(storable fs).overlay (newFields schema src d id s), newFields schema src d id s⟩

/-- The record of a replacement, and what the caller gets back. -/
def replacedRecord (schema : Schema) (key fs : Fields) (s : String) : Stamped :=
  ⟨((storable fs).overlay (updatedFields schema s)).overlay key, updatedFields schema s⟩

theorem newFields_of_unstamped (h : ¬(schema.managesCreated || schema.managesUpdated) = true) :
    newFields schema src d id s = idFields schema src d id := by
  simp only [Bool.or_eq_true, not_or, Bool.not_eq_true] at h
  rw [newFields, createdFields, updatedFields, h.1, h.2]
  exact List.append_nil _

theorem updatedFields_of_unstamped (h : ¬schema.managesUpdated = true) :
    updatedFields schema s = [] := if_neg h

theorem create_run (schema : Schema) (src : Sources) (d : Draws) (fs : Fields) (id : Value) :
    stampWrite schema src (.create (.map fs) id) d =
      if schema.managesCreated || schema.managesUpdated then
        ((nextStamp src d).map (newRecord schema src d fs id),
          ⟨d.readings + 1, d.ids + schema.newIds id⟩)
      else (.ok (newRecord schema src d fs id ""), ⟨d.readings, d.ids + schema.newIds id⟩) := by
  show (newId schema src id >>= fun ids => newStamps schema src >>= fun stamps =>
    pure (⟨(storable fs).overlay (ids ++ stamps), ids ++ stamps⟩ : Stamped)) d = _
  have hstamps := newStamps_run schema src { d with ids := d.ids + schema.newIds id }
  rw [run_bind_of_ok (newId_run schema src d id)]
  split
  · next hneeds =>
    rw [if_pos hneeds] at hstamps
    have hnext : nextStamp src { d with ids := d.ids + schema.newIds id } = nextStamp src d := rfl
    rw [hnext] at hstamps
    cases hs : nextStamp src d with
    | error f =>
      rw [hs] at hstamps
      exact run_bind_of_error hstamps
    | ok s =>
      rw [hs] at hstamps
      exact run_bind_of_ok hstamps
  · next hneeds =>
    rw [if_neg hneeds] at hstamps
    rw [run_bind_of_ok hstamps, newRecord, newFields_of_unstamped hneeds, List.append_nil]
    rfl

/-- A record that is written again is made of its stamp and of nothing else that is drawn. -/
theorem again_run (schema : Schema) (src : Sources) (d : Draws) (make : Fields → Stamped) :
    (freshStamp schema src >>= fun managed => pure (make managed)) d =
      if schema.managesUpdated then
        ((nextStamp src d).map fun s => make (updatedFields schema s),
          { d with readings := d.readings + 1 })
      else (.ok (make (updatedFields schema "")), d) := by
  have hstamp := freshStamp_run schema src d
  split
  · next hneeds =>
    rw [if_pos hneeds] at hstamp
    cases hs : nextStamp src d with
    | error f =>
      rw [hs] at hstamp
      exact run_bind_of_error hstamp
    | ok s =>
      rw [hs] at hstamp
      exact run_bind_of_ok hstamp
  · next hneeds =>
    rw [if_neg hneeds] at hstamp
    rw [run_bind_of_ok hstamp, updatedFields_of_unstamped hneeds]
    rfl

theorem replace_run (schema : Schema) (src : Sources) (d : Draws) (key fs : Fields) :
    stampWrite schema src (.replace (.map key) (.map fs)) d =
      if schema.managesUpdated then
        ((nextStamp src d).map (replacedRecord schema key fs),
          { d with readings := d.readings + 1 })
      else (.ok (replacedRecord schema key fs ""), d) :=
  again_run schema src d fun managed => ⟨((storable fs).overlay managed).overlay key, managed⟩

/-! ### New records -/

/-- The names of the managed fields of a new record, in order. -/
def newNames (schema : Schema) : List String :=
  (if schema.managesId then ["id"] else []) ++
    ((if schema.managesCreated then ["created"] else []) ++
      if schema.managesUpdated then ["updated"] else [])

/-- A new record field by field: its identifier is the caller's if that is truthy and the next one
otherwise, its stamps are one, and the rest of it are the entries of the item that are not the empty
text. What the caller gets back are its managed fields. -/
structure Created (schema : Schema) (src : Sources) (d : Draws) (fs : Fields) (id : Value)
    (s : String) (stamped : Stamped) : Prop where
  id : schema.managesId = true → stamped.record.get? "id" =
    some (if id.isTruthy then id else .text (src.ids d.ids))
  created : schema.managesCreated = true → stamped.record.get? "created" = some (.text s)
  updated : schema.managesUpdated = true → stamped.record.get? "updated" = some (.text s)
  others : ∀ e, e.1 ∉ (newNames schema).map Value.text →
    (e ∈ stamped.record ↔ e ∈ fs ∧ e.2 ≠ .text "")
  isMap : fs.IsMap → stamped.record.IsMap
  result : stamped.result =
    (newNames schema).map fun name => (.text name, stamped.record.getD name)

theorem newFields_keys (schema : Schema) (src : Sources) (d : Draws) (id : Value) (s : String) :
    (newFields schema src d id s).map (·.1) = (newNames schema).map .text := by
  rw [newFields, idFields, createdFields, updatedFields, newNames]
  cases schema.managesId <;> cases schema.managesCreated <;> cases schema.managesUpdated <;> rfl

theorem isMap_newFields (schema : Schema) (src : Sources) (d : Draws) (id : Value) (s : String) :
    (newFields schema src d id s).IsMap := by
  rw [Fields.isMap_iff_keys, newFields_keys, newNames]
  cases schema.managesId <;> cases schema.managesCreated <;> cases schema.managesUpdated <;>
    decide +kernel

theorem isNamed_newFields (schema : Schema) (src : Sources) (d : Draws) (id : Value) (s : String) :
    (newFields schema src d id s).IsNamed := by
  rw [Fields.isNamed_iff_keys, newFields_keys]
  exact List.forall_mem_map.mpr fun _ _ => rfl

theorem get?_newRecord (name : String) : (newRecord schema src d fs id s).record.get? name =
    ((newFields schema src d id s).get? name).or ((storable fs).get? name) :=
  Fields.get?_overlay (isMap_newFields ..) _ _

/-- Each managed field is in the record as it is given back. -/
theorem newFields_eq : newFields schema src d id s = (newNames schema).map fun name =>
    (.text name, ((newFields schema src d id s).get? name).getD .null) := by
  rw [newFields, idFields, createdFields, updatedFields, newNames]
  cases schema.managesId <;> cases schema.managesCreated <;> cases schema.managesUpdated <;>
    simp [Fields.get?_cons, Value.text_same]

theorem exists_newField (src : Sources) (d : Draws) (id : Value) (s : String) {name : String}
    (h : name ∈ newNames schema) :
    ∃ v, (newFields schema src d id s).get? name = some v := by
  have hkey : .text name ∈ (newFields schema src d id s).map (·.1) := by
    rw [newFields_keys]
    exact List.mem_map_of_mem h
  obtain ⟨e, he, hname⟩ := List.mem_map.mp hkey
  rw [← Option.isSome_iff_exists, ← Fields.has_eq_isSome]
  exact List.any_eq_true.mpr ⟨e, he, Value.same_text_iff.mpr hname⟩

theorem created_newRecord (schema : Schema) (src : Sources) (d : Draws) (fs : Fields) (id : Value)
    (s : String) : Created schema src d fs id s (newRecord schema src d fs id s) where
  id h := by
    rw [get?_newRecord, newFields, idFields, if_pos h]
    exact congrArg (Option.or · _) (Fields.get?_cons_self ..)
  created h := by
    rw [get?_newRecord, newFields, idFields, createdFields, if_pos h]
    cases schema.managesId <;> simp [Fields.get?_cons, Value.text_same]
  updated h := by
    rw [get?_newRecord, newFields, idFields, createdFields, updatedFields, if_pos h]
    cases schema.managesId <;> cases schema.managesCreated <;>
      simp [Fields.get?_cons, Value.text_same]
  others e he := by
    rw [← newFields_keys schema src d id s] at he
    rw [newRecord, Fields.mem_overlay_iff (isNamed_newFields schema src d id s) he,
      mem_storable_iff]
  isMap h := (h.filter _).overlay _
  result := by
    refine newFields_eq.trans (List.map_congr_left fun name hname => ?_)
    obtain ⟨v, hv⟩ := exists_newField src d id s hname
    rw [Fields.getD, get?_newRecord, hv]
    rfl

/-! ### Records that are written again -/

/-- A replaced record field by field: the fields of the key have its values, the stamp is there
unless the key has a field of its name, and the rest of it are the entries of the item that are not
the empty text. What the caller gets back is the stamp. -/
structure Replaced (schema : Schema) (key fs : Fields) (s : String) (stamped : Stamped) :
    Prop where
  ofKey : ∀ e ∈ key, stamped.record.getKey? e.1 = some e.2
  updated : schema.managesUpdated = true → .text "updated" ∉ key.map (·.1) →
    stamped.record.get? "updated" = some (.text s)
  others : ∀ e, e.1 ∉ key.map (·.1) → (schema.managesUpdated = true → e.1 ≠ .text "updated") →
    (e ∈ stamped.record ↔ e ∈ fs ∧ e.2 ≠ .text "")
  isMap : fs.IsMap → stamped.record.IsMap
  result : stamped.result =
    if schema.managesUpdated then [(.text "updated", .text s)] else []

theorem isNamed_updatedFields (schema : Schema) (s : String) :
    (updatedFields schema s).IsNamed := by
  rw [updatedFields]
  split
  · exact List.forall_mem_singleton.mpr rfl
  · exact fun e he => by cases he

theorem replaced_replacedRecord {key : Fields} (hmap : key.IsMap) (hnamed : key.IsNamed)
    (schema : Schema) (fs : Fields) (s : String) :
    Replaced schema key fs s (replacedRecord schema key fs s) where
  ofKey e he := by
    have hfound : key.getKey? e.1 = some e.2 := (Fields.getKey?_eq_some_iff hmap hnamed).mpr he
    rw [replacedRecord, Fields.getKey?_overlay hmap hnamed, hfound, Option.some_or]
  updated hmanages hfree := by
    have hnone : key.get? "updated" = none :=
      Fields.getKey?_eq_none_iff.mpr (Fields.hasKey_of_notMem hnamed hfree)
    rw [replacedRecord, Fields.get?_overlay hmap, hnone, Option.none_or, updatedFields,
      if_pos hmanages]
    exact Fields.get?_put_self ..
  others e hkey hother := by
    have hstamp : e.1 ∉ (updatedFields schema s).map (·.1) := by
      rw [updatedFields]
      split
      · next hmanages => exact List.mem_singleton.not.mpr (hother hmanages)
      · exact List.not_mem_nil
    rw [replacedRecord, Fields.mem_overlay_iff hnamed hkey,
      Fields.mem_overlay_iff (isNamed_updatedFields schema s) hstamp, mem_storable_iff]
  isMap h := ((h.filter _).overlay _).overlay _
  result := rfl

end ItemStore.Lifecycle
