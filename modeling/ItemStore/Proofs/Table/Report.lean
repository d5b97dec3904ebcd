import ItemStore.Proofs.Table.Agreement
import ItemStore.Proofs.Table.Prepared
import ItemStore.Proofs.Table.Reply
import ItemStore.Proofs.Update.Field

/-! What a write reports.

A write answers with the fields that it manages itself. A new record holds each of them as it is
reported. A record that is written again holds them too, but for a field that its key has as well:
there a replacement stores the value of the key, and a partial update writes nothing. -/
namespace ItemStore.Table

open Outcome Update
open Wire (encodeValue)

/-! ### What a request writes -/

/-- The request puts an item that holds the value under the name. -/
def Puts (req : Fields) (name : String) (w : Value) : Prop :=
  ∃ item : Fields, req.get? "Item" = some (.map item) ∧ item.get? name = some w

/-- The request gives the field of the name the value, in any record. -/
def Sets (req : Fields) (name : String) (w : Value) : Prop :=
  ∀ stored, ∃ updated : Fields, UpdateExpression.perform req stored = some updated ∧
    updated.get? name = some w

/-- The request leaves the field of the name as it is, in any record. -/
def Spares (req : Fields) (name : String) : Prop :=
  ∀ stored : Fields, ∃ updated : Fields, UpdateExpression.perform req stored = some updated ∧
    updated.get? name = stored.get? name

variable {t : Table} {s : Session} {result : Fields} {name : String} {v : Value}

/-- A field of the record that is stored stands in the item on the wire. -/
theorem puts_of_get? {record params : Fields} {w : Value}
    (hitem : Wire.encodeItem (.map record) = .ok w) (hv : record.get? name = some v) :
    ∃ w', encodeValue v = .ok w' ∧ Puts ((t.extend params).put "Item" w) name w' := by
  obtain ⟨_, item, ⟨⟩, hfields, rfl⟩ := Wire.encodeItem_ok.mp hitem
  obtain ⟨w', -, hkey, hw'⟩ := exists_of_mem_left (Wire.encodeFields_ok.mp hfields) _
    (Fields.mem_of_getKey? rfl hv)
  refine ⟨w'.2, hw', item, by rw [Fields.get?_put, if_pos rfl], ?_⟩
  have hrecord : record.getKey? (.text name) = some v := hv
  show item.getKey? (.text name) = _
  rw [Wire.getKey?_encodeFields hfields, hrecord, Option.bind_some, hw']
  rfl

/-! ### New records -/

/-- The managed fields of a new record are a map. -/
theorem isMap_created {schema : Schema} {src : Sources} {id : Value} {ids stamps : Fields}
    {d r d' : Draws} (hids : Lifecycle.newId schema src id d = (.ok ids, r))
    (hstamps : Lifecycle.newStamps schema src r = (.ok stamps, d')) : (ids ++ stamps).IsMap := by
  obtain ⟨stamp, -, rfl⟩ := Lifecycle.newStamps_ok hstamps
  rw [Fields.isMap_iff_keys]
  rcases (Lifecycle.newId_ok hids).2 with ⟨-, rfl⟩ | ⟨-, rfl⟩
  · cases schema.managesCreated <;> cases schema.managesUpdated <;> simp [Value.text_same]
  · cases schema.managesCreated <;> cases schema.managesUpdated <;> simp [Value.text_same]

/-- What a new record is said to hold is in the item that is put. -/
theorem prepare_create_puts {item id params : Value} {p : Prepared} {start progress : Progress}
    (h : t.prepare (.create item id params) start = (.ok p, progress))
    (hv : p.result.get? name = some v) :
    ∃ w, encodeValue v = .ok w ∧ Puts p.request name w := by
  obtain ⟨fs, stamped, d', req, w, rfl, hstamped, -, hitem, rfl, -⟩ := prepare_create h
  obtain ⟨ids, stamps, r, hids, hstamps, rfl⟩ := Lifecycle.stampWrite_create hstamped
  refine puts_of_get? hitem ?_
  rw [Fields.get?_overlay (isMap_created hids hstamps), hv, Option.some_or]

theorem create_reports {item id params : Value}
    (h : (t.perform (.create item id params) s).1 = .ok (.value (.map result)))
    (hv : result.get? name = some v) :
    ∃ req w, t.Sends (.create item id params) s req ∧ encodeValue v = .ok w ∧
      Puts req name w := by
  obtain ⟨p, progress, response, hp, hsent, hanswer⟩ := sends_of_ok h
  cases hanswer
  obtain ⟨w, hw, hputs⟩ := prepare_create_puts hp hv
  exact ⟨_, w, hsent, hw, hputs⟩

/-! ### Records that are written again -/

theorem replace_reports {key : Fields} {item params : Value} (hkey : key.IsMap)
    (h : (t.perform (.replace (.map key) item params) s).1 = .ok (.value (.map result)))
    (hv : result.get? name = some v) :
    ∃ req w, t.Sends (.replace (.map key) item params) s req ∧
      encodeValue ((key.get? name).getD v) = .ok w ∧ Puts req name w := by
  obtain ⟨p, progress, response, hp, hsent, hanswer⟩ := sends_of_ok h
  cases hanswer
  obtain ⟨ks, fs, stamped, d, req, w, hks, rfl, hstamped, -, hitem, rfl, -⟩ := prepare_replace hp
  obtain ⟨⟨⟩, -⟩ := Key.validate_ok.mp hks
  obtain ⟨managed, hmanaged, rfl⟩ := Lifecycle.stampWrite_replace hstamped
  have hmap := (Lifecycle.freshStamp_isManaged hmanaged).isMap
  have hrecord : (((Lifecycle.storable fs).overlay managed).overlay key).get? name =
      some ((key.get? name).getD v) := by
    rw [Fields.get?_overlay hkey, Fields.get?_overlay hmap, hv, Option.some_or]
    cases key.get? name <;> rfl
  obtain ⟨w', hw', hputs⟩ := puts_of_get? hitem hrecord
  exact ⟨_, w', hsent, hw', hputs⟩

theorem update_reports {key attributes : Fields} {params : Value} (hmap : attributes.IsMap)
    (h : (t.perform (.update (.map key) (.map attributes) params) s).1 =
      .ok (.value (.map result)))
    (hid : name ≠ "id") (hv : result.get? name = some v) :
    ∃ req, t.Sends (.update (.map key) (.map attributes) params) s req ∧
      (key.has name = false → ∃ w, encodeValue v = .ok w ∧ Sets req name w) ∧
      (key.has name = true → Spares req name) := by
  obtain ⟨p, progress, response, hp, hsent, hanswer⟩ := sends_of_ok h
  cases hanswer
  obtain ⟨ks, fs, stamped, d, u, passed, req, w, hks, ⟨⟩, hstamped, hu, -, hreq, hw, rfl, -⟩ :=
    prepare_update hp
  obtain ⟨⟨⟩, -⟩ := Key.validate_ok.mp hks
  obtain ⟨_, stored, ⟨⟩, -, rfl⟩ := Wire.encodeItem_ok.mp hw
  obtain ⟨managed, hfresh, rfl⟩ := Lifecycle.stampWrite_update hstamped
  have hmanaged := Lifecycle.freshStamp_isManaged hfresh
  have hmapU : u.fields.IsMap := compile_ok hu ▸ (hmap.overlay managed).filter _
  rw [Fields.get?_put, if_neg hid.symm] at hv
  have hstays : v.isDeleteSentinel = false :=
    hmanaged.stays _ (Fields.mem_of_getKey? rfl hv)
  have hfields : u.fields.get? name = (some v).filter fun _ => !key.has name := by
    rw [compile_ok hu, Fields.get?_filter (hmap.overlay managed),
      Fields.get?_overlay hmanaged.isMap, hv, Option.some_or]
    rfl
  refine ⟨_, hsent, fun hno => ?_, fun hyes => ?_⟩
  · have hfound : u.fields.get? name = some v := by rw [hfields, hno]; rfl
    obtain ⟨_, -, hany⟩ := leaves_attach hmapU hreq []
    obtain ⟨w', hw', -⟩ := (hany name).assigned v hfound hstays
    refine ⟨w', hw', fun before => ?_⟩
    obtain ⟨updated, hrun, hleaves⟩ := leaves_attach hmapU hreq before
    obtain ⟨w'', hw'', hset⟩ := (hleaves name).assigned v hfound hstays
    rw [hw'] at hw''
    cases hw''
    exact ⟨updated, by rw [perform_extend, hrun], hset⟩
  · have hnone : u.fields.get? name = none := by rw [hfields, hyes]; rfl
    intro before
    obtain ⟨updated, hrun, hleaves⟩ := leaves_attach hmapU hreq before
    exact ⟨updated, by rw [perform_extend, hrun], (hleaves name).kept hnone⟩

/-! ### Reports -/

/-- **What a write reports.** Whatever a new record is reported to hold is in the item that is put.
What is reported of a record that is written again is written too, unless its key has a field of
that name: then a replacement stores the value of the key in its place, and a partial update, but
for the identifier that it echoes, leaves the field as it is. -/
theorem reported_is_written (t : Table) (s : Session) (params : Value) (result : Fields)
    (name : String) (v : Value) (hv : result.get? name = some v) :
    (∀ item id : Value, (t.perform (.create item id params) s).1 = .ok (.value (.map result)) →
      ∃ req w, t.Sends (.create item id params) s req ∧ encodeValue v = .ok w ∧
        Puts req name w) ∧
    (∀ (key : Fields) (item : Value), key.IsMap →
      (t.perform (.replace (.map key) item params) s).1 = .ok (.value (.map result)) →
      ∃ req w, t.Sends (.replace (.map key) item params) s req ∧
        encodeValue ((key.get? name).getD v) = .ok w ∧ Puts req name w) ∧
    ∀ key attributes : Fields, attributes.IsMap → name ≠ "id" →
      (t.perform (.update (.map key) (.map attributes) params) s).1 =
        .ok (.value (.map result)) →
      ∃ req, t.Sends (.update (.map key) (.map attributes) params) s req ∧
        (key.has name = false → ∃ w, encodeValue v = .ok w ∧ Sets req name w) ∧
        (key.has name = true → Spares req name) := by
  refine ⟨fun item id h => ?_, fun key item hkey h => ?_, fun key attributes hmap hid h => ?_⟩
  · exact create_reports h hv
  · exact replace_reports hkey h hv
  · exact update_reports hmap h hid hv

/-- A new record under an identifier of the caller, a replacement, and a partial update of a record
whose stamp is in its key. -/
theorem reported_is_written_stamped :
    let t : Table :=
      ⟨"records", ⟨true, false, true⟩, ⟨fun _ => some ⟨0, some 0⟩, fun _ => ""⟩, "account"⟩
    let stamp : Value := .text "0001-01-01T00:00:00.000Z"
    let s := Session.start [⟨"put_item", .null, .response .null⟩]
    let s' := Session.start [⟨"update_item", .null, .response .null⟩]
    let fields : Fields := [(.text "size", .int 3), (.int 7, .null)]
    let key : Fields := [(.text "id", .text "k")]
    let stamped : Fields := [(.text "id", .text "k"), (.text "updated", .int 1)]
    let created : Fields := [(.text "id", .int 5), (.text "updated", stamp)]
    let updated : Fields := [(.text "updated", stamp), (.text "id", .text "k")]
    key.IsMap ∧ fields.IsMap ∧
      (t.perform (.create (.map fields) (.int 5) .null) s).1 = .ok (.value (.map created)) ∧
      (t.perform (.replace (.map key) (.map fields) .null) s).1 =
        .ok (.value (.map [(.text "updated", stamp)])) ∧
      (t.perform (.update (.map stamped) (.map fields) .null) s').1 =
        .ok (.value (.map updated)) ∧
      created.get? "id" = some (.int 5) ∧ updated.get? "updated" = some stamp ∧
      (∃ req w, t.Sends (.create (.map fields) (.int 5) .null) s req ∧
        encodeValue (.int 5) = .ok w ∧ Puts req "id" w) ∧
      (∃ req w, t.Sends (.replace (.map key) (.map fields) .null) s req ∧
        encodeValue ((key.get? "updated").getD stamp) = .ok w ∧ Puts req "updated" w) ∧
      ∃ req, t.Sends (.update (.map stamped) (.map fields) .null) s' req ∧
        (stamped.has "updated" = false →
          ∃ w, encodeValue stamp = .ok w ∧ Sets req "updated" w) ∧
        (stamped.has "updated" = true → Spares req "updated") := by
  intro t stamp s s' fields key stamped created updated
  have hkey : key.IsMap := by decide +kernel
  have hfields : fields.IsMap := by decide +kernel
  have hcreate : (t.perform (.create (.map fields) (.int 5) .null) s).1 =
      .ok (.value (.map created)) := by cbv
  have hreplace : (t.perform (.replace (.map key) (.map fields) .null) s).1 =
      .ok (.value (.map [(.text "updated", stamp)])) := by cbv
  have hupdate : (t.perform (.update (.map stamped) (.map fields) .null) s').1 =
      .ok (.value (.map updated)) := by cbv
  have hid : created.get? "id" = some (.int 5) := by cbv
  have hstamp : updated.get? "updated" = some stamp := by cbv
  have hagain : Fields.get? [(.text "updated", stamp)] "updated" = some stamp := by cbv
  refine ⟨hkey, hfields, hcreate, hreplace, hupdate, hid, hstamp, ?_, ?_, ?_⟩
  · exact (reported_is_written t s _ _ _ _ hid).1 _ _ hcreate
  · exact (reported_is_written t s _ _ _ _ hagain).2.1 _ _ hkey hreplace
  · exact (reported_is_written t s' _ _ _ _ hstamp).2.2 _ _ hfields (by decide) hupdate

/-- A replacement does not always store what it reports: a stamp that is reported is not stored
under a key with a stamp of its own. -/
theorem replace_reports_unwritten :
    ¬ ∀ (t : Table) (s : Session) (key : Fields) (item params : Value) (result : Fields)
        (name : String) (v : Value), key.IsMap →
      (t.perform (.replace (.map key) item params) s).1 = .ok (.value (.map result)) →
      result.get? name = some v →
      ∃ req w, t.Sends (.replace (.map key) item params) s req ∧ encodeValue v = .ok w ∧
        Puts req name w := by
  intro hall
  let t : Table :=
    ⟨"records", ⟨false, false, true⟩, ⟨fun _ => some ⟨0, some 0⟩, fun _ => ""⟩, "account"⟩
  let stamp : Value := .text "0001-01-01T00:00:00.000Z"
  let s := Session.start [⟨"put_item", .null, .response .null⟩]
  let key : Fields := [(.text "id", .text "a"), (.text "updated", .text "v1")]
  let item : Fields := [(.text "name", .text "Bob")]
  have hkey : key.IsMap := by decide +kernel
  have hreplace : (t.perform (.replace (.map key) (.map item) .null) s).1 =
      .ok (.value (.map [(.text "updated", stamp)])) := by cbv
  have hreported : Fields.get? [(.text "updated", stamp)] "updated" = some stamp := by cbv
  obtain ⟨req, w, hsent, hw, stored, hitem, hfound⟩ :=
    hall t s key (.map item) .null _ _ _ hkey hreplace hreported
  obtain ⟨req', w', hsent', hw', stored', hitem', hfound'⟩ :=
    replace_reports hkey hreplace hreported
  cases hsent.unique hsent'
  rw [hitem] at hitem'
  cases hitem'
  rw [hfound] at hfound'
  cases hfound'
  rw [show (key.get? "updated").getD stamp = .text "v1" by cbv] at hw'
  have hsame : encodeValue (.text "v1") = encodeValue stamp := hw'.trans hw.symm
  simp [stamp, encodeValue, Wire.settle, Wire.encode, WireType.wrap] at hsame

end ItemStore.Table
