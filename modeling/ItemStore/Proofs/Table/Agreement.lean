import ItemStore.Proofs.Key
import ItemStore.Proofs.Lifecycle
import ItemStore.Proofs.Table.Sent
import ItemStore.Proofs.Update.Meaning

/-! Updating and replacing agree.

A partial update of a record that holds nothing but its key leaves the record that a replacement by
the same attributes stores. On both ways a field of the key wins over a managed field, and that
over a field of the caller; and a field whose value is the empty text is not there in the end, as
it is removed from a record without it, or left out of the record that is stored. -/
namespace ItemStore.Table

open Outcome Update
open Wire (encodeFields encodeValue)

/-! ### Key, managed fields and attributes -/

section Records
variable {key attributes managed : Fields}

/-- What a replacement stores under a key of the record. -/
theorem getKey?_replaced (hkey : key.IsMap) (hkeyNamed : key.IsNamed)
    (hmanaged : Lifecycle.IsManaged managed) (hmap : attributes.IsMap)
    (hnamed : attributes.IsNamed) (k : Value) :
    (((Lifecycle.storable attributes).overlay managed).overlay key).getKey? k =
      (key.getKey? k).or ((managed.getKey? k).or
        ((attributes.getKey? k).filter fun v => !v.isDeleteSentinel)) := by
  rw [Fields.getKey?_overlay hkey hkeyNamed,
    Fields.getKey?_overlay hmanaged.isMap hmanaged.isNamed, Lifecycle.storable,
    Fields.getKey?_filter hmap hnamed]

/-- What an update writes under a key of the record. -/
theorem getKey?_updated {u : Update} (hmanaged : Lifecycle.IsManaged managed)
    (hmap : attributes.IsMap) (hnamed : attributes.IsNamed)
    (hcompile : compile key (attributes.overlay managed) = .ok u) (k : Value) :
    u.fields.getKey? k =
      ((managed.getKey? k).or (attributes.getKey? k)).filter fun _ => !key.hasKey k := by
  rw [compile_ok hcompile, Fields.getKey?_filter (hmap.overlay managed)
    (hnamed.overlay hmanaged.isNamed), Fields.getKey?_overlay hmanaged.isMap hmanaged.isNamed]

/-- Field by field the updated record is the stored one. -/
theorem getKey?_made {u : Update} {stored item updated : Fields} (hkey : key.IsMap)
    (hkeyNamed : key.IsNamed) (hmanaged : Lifecycle.IsManaged managed) (hmap : attributes.IsMap)
    (hnamed : attributes.IsNamed)
    (hcompile : compile key (attributes.overlay managed) = .ok u)
    (hstored : encodeFields key = .ok stored)
    (hitem : encodeFields (((Lifecycle.storable attributes).overlay managed).overlay key) =
      .ok item)
    (hmade : Made u.fields stored updated) (k : Value) :
    updated.getKey? k = item.getKey? k := by
  have hfields := getKey?_updated hmanaged hmap hnamed hcompile k
  have hmapU : u.fields.IsMap := compile_ok hcompile ▸ (hmap.overlay managed).filter _
  have hnamedU : u.fields.IsNamed :=
    compile_ok hcompile ▸ (hnamed.overlay hmanaged.isNamed).filter _
  rw [hmade.getKey? hmapU hnamedU, hfields, Wire.getKey?_encodeFields hitem,
    getKey?_replaced hkey hkeyNamed hmanaged hmap hnamed, Wire.getKey?_encodeFields hstored,
    Fields.hasKey_eq_isSome]
  cases hk : key.getKey? k with
  | some v => simp
  | none =>
    cases hm : managed.getKey? k with
    | some v =>
      have hmem := (Fields.getKey?_eq_some_iff hmanaged.isMap hmanaged.isNamed).mp hm
      have hs : v.isDeleteSentinel = false := hmanaged.stays _ hmem
      simp [Option.filter_some, hs]
    | none =>
      cases ha : attributes.getKey? k with
      | none => simp
      | some v => cases hs : v.isDeleteSentinel <;> simp [Option.filter_some, hs]

end Records

/-! ### The requests -/

variable {t : Table} {s : Session} {key attributes req : Fields}

theorem sends_replace (h : t.Sends (.replace (.map key) (.map attributes) .null) s req) :
    ∃ managed d item, Key.validate (.map key) = .ok key ∧
      Lifecycle.freshStamp t.schema t.sources s.draws = (.ok managed, d) ∧
      encodeFields (((Lifecycle.storable attributes).overlay managed).overlay key) = .ok item ∧
      req = (t.extend []).put "Item" (.map item) := by
  obtain ⟨p, progress, hp, rfl, -⟩ := sends_iff.mp h
  simp only [prepare, run_bind, run_lift, prepare_announce, prepare_draw] at hp
  obtain ⟨key', _, ⟨hkey, rfl⟩, _, _, ⟨-, rfl⟩, _, _, rfl, stamped, _, ⟨d, hstamp, rfl⟩, params, _,
    ⟨hparams, rfl⟩, w, _, ⟨hw, rfl⟩, hp⟩ := hp
  obtain ⟨⟨⟩, -⟩ := Key.validate_ok.mp hkey
  cases hparams
  obtain ⟨managed, hmanaged, rfl⟩ := Lifecycle.stampWrite_replace hstamp
  obtain ⟨_, item, ⟨⟩, hitem, rfl⟩ := Wire.encodeItem_ok.mp hw
  obtain ⟨rfl, -⟩ := run_pure.mp hp
  exact ⟨managed, d, item, hkey, hmanaged, hitem, rfl⟩

theorem sends_update (h : t.Sends (.update (.map key) (.map attributes) .null) s req) :
    ∃ managed d u req' stored, Key.validate (.map key) = .ok key ∧
      Lifecycle.freshStamp t.schema t.sources s.draws = (.ok managed, d) ∧
      compile key (attributes.overlay managed) = .ok u ∧ u.attach.result [] = .ok req' ∧
      encodeFields key = .ok stored ∧ req = (t.extend req').put "Key" (.map stored) := by
  obtain ⟨p, progress, hp, rfl, -⟩ := sends_iff.mp h
  simp only [prepare, run_bind, run_lift, prepare_announce, prepare_draw] at hp
  obtain ⟨key', _, ⟨hkey, rfl⟩, _, _, ⟨-, rfl⟩, _, _, rfl, stamped, _, ⟨d, hstamp, rfl⟩, u, _,
    ⟨hcompile, rfl⟩, params, _, ⟨hparams, rfl⟩, req', _, ⟨hattach, rfl⟩, w, _, ⟨hw, rfl⟩, hp⟩ := hp
  obtain ⟨⟨⟩, -⟩ := Key.validate_ok.mp hkey
  cases hparams
  obtain ⟨managed, hmanaged, rfl⟩ := Lifecycle.stampWrite_update hstamp
  obtain ⟨_, stored, ⟨⟩, hstored, rfl⟩ := Wire.encodeItem_ok.mp hw
  obtain ⟨rfl, -⟩ := run_pure.mp hp
  exact ⟨managed, d, u, req', stored, hkey, hmanaged, hcompile, hattach, hstored, rfl⟩

theorem extend_get? (params : Fields) {n : String} (htable : n ≠ "TableName")
    (hcapacity : n ≠ "ReturnConsumedCapacity") : (t.extend params).get? n = params.get? n := by
  rw [extend, Fields.get?_put, if_neg hcapacity.symm, Fields.get?_put, if_neg htable.symm]

/-- The table and the key of an update come under other names than what its text means. -/
theorem get?_extend_of_meaning (params : Fields) (w : Value) :
    ∀ n ∈ meaningParams, ((t.extend params).put "Key" w).get? n = params.get? n := by
  intro n hn
  have hne : n ≠ "Key" ∧ n ≠ "TableName" ∧ n ≠ "ReturnConsumedCapacity" := by
    simp only [meaningParams, List.mem_cons, List.not_mem_nil, or_false] at hn
    rcases hn with rfl | rfl | rfl <;> decide
  rw [Fields.get?_put, if_neg hne.1.symm, extend_get? params hne.2.1 hne.2.2]

/-- The table and the key of an update do not change what it does to a record. -/
theorem perform_extend (params item stored : Fields) :
    UpdateExpression.perform ((t.extend params).put "Key" (.map stored)) item =
      UpdateExpression.perform params item :=
  perform_congr (get?_extend_of_meaning params _) item

/-- **One record.** Let a partial update and a replacement, by the same attributes under the same
key and at the same reading of the clock, both make their calls. Then the request to update takes
a record that holds nothing but the key in wire form to a record with the same entries as the item
of the request to put. -/
theorem update_agrees_with_replace {s' : Session} {reqU reqR : Fields} (hkey : key.IsMap)
    (hmap : attributes.IsMap) (hnamed : attributes.IsNamed)
    (hclock : t.sources.clock s.draws.readings = t.sources.clock s'.draws.readings)
    (hupdate : t.Sends (.update (.map key) (.map attributes) .null) s reqU)
    (hreplace : t.Sends (.replace (.map key) (.map attributes) .null) s' reqR) :
    ∃ stored updated item : Fields, encodeFields key = .ok stored ∧
      reqU.get? "Key" = some (.map stored) ∧ reqR.get? "Item" = some (.map item) ∧
      UpdateExpression.perform reqU stored = some updated ∧
      updated.Perm item ∧ item.IsMap := by
  obtain ⟨managed, d, u, req', stored, hvalid, hstamp, hcompile, hattach, hstored, rfl⟩ :=
    sends_update hupdate
  obtain ⟨managed', d', item, -, hstamp', hitem, rfl⟩ := sends_replace hreplace
  obtain rfl := Lifecycle.freshStamp_eq hclock hstamp hstamp'
  have hmanaged := Lifecycle.freshStamp_isManaged hstamp
  have hkeyNamed := Key.isNamed_of_validate hvalid
  have hmapU : u.fields.IsMap := compile_ok hcompile ▸ (hmap.overlay managed).filter _
  have hnamedU : u.fields.IsNamed :=
    compile_ok hcompile ▸ (hnamed.overlay hmanaged.isNamed).filter _
  obtain ⟨updated, hrun, hmade⟩ := perform_attach hmapU hnamedU hattach stored
  have hitemMap : item.IsMap :=
    Wire.isMap_encodeFields hitem (((hmap.filter _).overlay managed).overlay key)
  have hitemNamed : item.IsNamed := Wire.isNamed_encodeFields hitem
    (((hnamed.filter _).overlay hmanaged.isNamed).overlay hkeyNamed)
  refine ⟨stored, updated, item, hstored, ?_, ?_, ?_, ?_, hitemMap⟩
  · rw [Fields.get?_put, if_pos rfl]
  · rw [Fields.get?_put, if_pos rfl]
  · rw [perform_extend, hrun]
  · refine Fields.perm_of_getKey? (hmade.isMap (Wire.isMap_encodeFields hstored hkey))
      (hmade.isNamed (Wire.isNamed_encodeFields hstored hkeyNamed)) hitemMap hitemNamed ?_
    exact getKey?_made hkey hkeyNamed hmanaged hmap hnamed hcompile hstored hitem hmade

/-- The attributes repeat the name of the key and ask for their stamp and a note to be removed. -/
theorem update_agrees_with_replace_overlap :
    let t : Table :=
      ⟨"records", ⟨false, false, true⟩, ⟨fun _ => some ⟨0, some 0⟩, fun _ => ""⟩, "account"⟩
    let s := Session.start []
    let key : Fields := [(.text "id", .text "k")]
    let attributes : Fields := [(.text "id", .text "l"), (.text "updated", .text ""),
      (.text "note", .text ""), (.text "size", .int 3)]
    key.IsMap ∧ attributes.IsMap ∧ attributes.IsNamed ∧
      t.sources.clock s.draws.readings = t.sources.clock s.draws.readings ∧
      ∃ reqU reqR, t.Sends (.update (.map key) (.map attributes) .null) s reqU ∧
        t.Sends (.replace (.map key) (.map attributes) .null) s reqR ∧
        ∃ stored updated item : Fields, encodeFields key = .ok stored ∧
          reqU.get? "Key" = some (.map stored) ∧ reqR.get? "Item" = some (.map item) ∧
          UpdateExpression.perform reqU stored = some updated ∧
          updated.Perm item ∧ item.IsMap := by
  intro t s key attributes
  have hkey : key.IsMap := by decide +kernel
  have hmap : attributes.IsMap := by decide +kernel
  have hnamed : attributes.IsNamed := by decide +kernel
  obtain ⟨reqU, hupdate⟩ : ∃ req,
      t.Sends (.update (.map key) (.map attributes) .null) s req := by
    obtain ⟨p, progress, hp, hcallable⟩ : ∃ p progress,
        t.prepare (.update (.map key) (.map attributes) .null) ⟨s.draws, none⟩ = (.ok p, progress) ∧
          isCallable p.request = true := ⟨_, _, by cbv, by cbv⟩
    exact ⟨_, sends_iff.mpr ⟨p, progress, hp, rfl, hcallable⟩⟩
  obtain ⟨reqR, hreplace⟩ : ∃ req,
      t.Sends (.replace (.map key) (.map attributes) .null) s req := by
    obtain ⟨p, progress, hp, hcallable⟩ : ∃ p progress,
        t.prepare (.replace (.map key) (.map attributes) .null) ⟨s.draws, none⟩ =
          (.ok p, progress) ∧ isCallable p.request = true := ⟨_, _, by cbv, by cbv⟩
    exact ⟨_, sends_iff.mpr ⟨p, progress, hp, rfl, hcallable⟩⟩
  exact ⟨hkey, hmap, hnamed, rfl, reqU, reqR, hupdate, hreplace,
    update_agrees_with_replace hkey hmap hnamed rfl hupdate hreplace⟩

end ItemStore.Table
