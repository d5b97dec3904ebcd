import ItemStore.Proofs.Table.Callable
import ItemStore.Proofs.Table.Removal
import ItemStore.Proofs.Table.Report
import ItemStore.Proofs.Table.Retry
import ItemStore.Proofs.Wire.Numeral

/-! Numbers that an operation sends.

`Encodes` lists what an operation puts on the wire: the fields of a key, of an item and of
attributes, the values to compare with, the key to start from, and the items and keys of a batch. A
field that the library or the key has too is not among them, as it is written over. All of it goes
through one and the same encoding, so an operation that makes its call was passed no number there
that is not finite, other than a marked one. -/
namespace ItemStore

open Outcome
open Wire (encodeValue Numeral)

/-! ### What an operation puts on the wire -/

namespace Operation

/-- Whether an operation looks for records. -/
def isRead : Operation → Bool
  | .get .. => true
  | .query _ => true
  | .scan _ => true
  | _ => false

/-- Whether an operation takes values to compare with. -/
def isConditional : Operation → Bool
  | .create .. => true
  | .replace .. => true
  | .update .. => true
  | .delete .. => true
  | op => op.isRead

end Operation

namespace Table

/-- The value goes on the wire when the operation makes its call, unless it is falsy. -/
inductive Encodes (t : Table) : Operation → Value → Prop
  | keyField {op : Operation} {ks : Fields} {e : Value × Value} (h : op.key? = some (.map ks))
    (hmap : ks.IsMap) (he : e ∈ ks) : Encodes t op e.2
  | values {op : Operation} (h : op.isConditional = true) :
    Encodes t op (param op.params "ExpressionAttributeValues")
  | start {op : Operation} (h : op.isRead = true) :
    Encodes t op (param op.params "ExclusiveStartKey")
  | identifier {item id params : Value} (h : t.schema.managesId = true) :
    Encodes t (.create item id params) id
  | created {fs : Fields} {id params : Value} {e : Value × Value} (he : e ∈ fs)
    (hfree : e.1 ∉ t.schema.managed.map .text) : Encodes t (.create (.map fs) id params) e.2
  | replaced {key fs : Fields} {params : Value} {e : Value × Value} (he : e ∈ fs)
    (hfree : e.1 ∉ t.rewrittenKeys key) : Encodes t (.replace (.map key) (.map fs) params) e.2
  | updated {key fs : Fields} {params : Value} {e : Value × Value} (he : e ∈ fs)
    (hfree : e.1 ∉ t.rewrittenKeys key) : Encodes t (.update (.map key) (.map fs) params) e.2
  | put {requests account op item : Value} {ops : List Value} (hops : requests.elements = .ok ops)
    (hop : op ∈ ops) (h : Batch.Puts op item) : Encodes t (.batchWrite requests account) item
  | remove {requests account op key : Value} {ops : List Value}
    (hops : requests.elements = .ok ops) (hop : op ∈ ops) (h : Batch.Removes op key) :
    Encodes t (.batchWrite requests account) key

end Table

/-! ### Parameters -/

namespace ReadRequest

/-- A truthy parameter that is put into wire form has one. -/
theorem encodeParam_ok {name : String} {encode : Value → Except Fault Value} {req req' : Fields}
    (h : encodeParam name encode req = .ok req') (ht : (req.getD name).isTruthy = true) :
    ∃ w, encode (req.getD name) = .ok w := by
  rw [encodeParam, Value.truthy?, if_pos ht] at h
  obtain ⟨w, hw, -⟩ := bind_ok.mp h
  exact ⟨w, hw⟩

theorem encoded_of_encodeValues {req req' : Fields} (h : encodeValues req = .ok req')
    (ht : (req.getD "ExpressionAttributeValues").isTruthy = true) :
    ∃ w, encodeValue (req.getD "ExpressionAttributeValues") = .ok w := by
  obtain ⟨w, hw⟩ := encodeParam_ok h ht
  obtain ⟨fs, hfs, hw⟩ := bind_ok.mp hw
  obtain ⟨ws, hws, -⟩ := bind_ok.mp hw
  rw [Value.eq_map_of_fields hfs]
  exact ⟨_, Wire.encodeValue_map.mpr ⟨ws, hws, rfl⟩⟩

theorem encoded_of_encodeItem {v w : Value} (h : Wire.encodeItem v = .ok w) :
    ∃ w', encodeValue v = .ok w' := by
  obtain ⟨fs, ws, rfl, hws, rfl⟩ := Wire.encodeItem_ok.mp h
  exact ⟨_, Wire.encodeValue_map.mpr ⟨ws, hws, rfl⟩⟩

/-- The values of a read and the key to start from. -/
theorem encoded_of_build {params : Value} {req : Fields} (h : build params = .ok req)
    {name : String} (hname : name = "ExpressionAttributeValues" ∨ name = "ExclusiveStartKey")
    (ht : (param params name).isTruthy = true) : ∃ w, encodeValue (param params name) = .ok w := by
  rw [build_eq] at h
  obtain ⟨passed, hpassed, h⟩ := bind_ok.mp h
  obtain ⟨spelled, hspelled, h⟩ := bind_ok.mp h
  obtain ⟨encoded, hvalues, hstart⟩ := bind_ok.mp h
  rw [param_eq hpassed] at ht ⊢
  rcases hname with rfl | rfl
  · have hparam : spelled.getD "ExpressionAttributeValues" =
        passed.getD "ExpressionAttributeValues" := by
      rw [Fields.getD, Fields.getD, spelled_get? hspelled (by decide) (by decide)]
    rw [← hparam] at ht ⊢
    exact encoded_of_encodeValues hvalues ht
  · have hparam : encoded.getD "ExclusiveStartKey" = passed.getD "ExclusiveStartKey" := by
      rw [Fields.getD, Fields.getD, encodeParam_get? hvalues (by decide),
        spelled_get? hspelled (by decide) (by decide)]
    rw [← hparam] at ht ⊢
    obtain ⟨w, hw⟩ := encodeParam_ok hstart ht
    exact encoded_of_encodeItem hw

end ReadRequest

namespace Table

open ReadRequest (encoded_of_encodeItem encoded_of_build encoded_of_encodeValues)

variable {t : Table} {op : Operation} {s : Session} {req : Fields} {u : Value}

theorem encoded_of_conditionParams {params : Value} (h : conditionParams params = .ok req)
    (ht : (param params "ExpressionAttributeValues").isTruthy = true) :
    ∃ w, encodeValue (param params "ExpressionAttributeValues") = .ok w := by
  obtain ⟨passed, hpassed, hvalues⟩ := bind_ok.mp h
  rw [param_eq (freeParams_ok hpassed)] at ht ⊢
  exact encoded_of_encodeValues hvalues ht

theorem encoded_of_attach {update : Update} {params : Value} {reserved : List String}
    {passed : Fields} (hpassed : freeParams params reserved = .ok passed)
    (h : update.attach.result passed = .ok req)
    (ht : (param params "ExpressionAttributeValues").isTruthy = true) :
    ∃ w, encodeValue (param params "ExpressionAttributeValues") = .ok w := by
  obtain ⟨names, values, htables, -⟩ := Update.attach_ok.mp h
  obtain ⟨-, callers, present, -, -, -, hcallers, hpresent, -⟩ := Update.tables_ok htables
  rw [param_eq (freeParams_ok hpassed)] at ht ⊢
  rw [Update.callerValues, if_pos ht] at hcallers
  rw [Value.eq_map_of_fields hcallers]
  exact ⟨_, Wire.encodeValue_map.mpr ⟨present, hpresent, rfl⟩⟩

theorem encoded_of_mem {fs : Fields} {w : Value} {e : Value × Value}
    (h : Wire.encodeItem (.map fs) = .ok w) (he : e ∈ fs) : ∃ w', encodeValue e.2 = .ok w' := by
  obtain ⟨_, ws, ⟨⟩, hws, -⟩ := Wire.encodeItem_ok.mp h
  obtain ⟨w', -, -, hw'⟩ := exists_of_mem_left (Wire.encodeFields_ok.mp hws) e he
  exact ⟨w'.2, hw'⟩

/-! ### Requests -/

theorem ne_empty_of_isTruthy (ht : u.isTruthy = true) : u ≠ .text "" := by
  rintro rfl
  cases ht

theorem encoded_keyField {ks : Fields} {e : Value × Value} (hkey : op.key? = some (.map ks))
    (hmap : ks.IsMap) (he : e ∈ ks) (hsent : t.Sends op s req) :
    ∃ w, encodeValue e.2 = .ok w := by
  rcases Operation.sentKey?_or_replace hkey with hkey | ⟨item, params, rfl⟩
  · obtain ⟨_, ws, hks, hws, -⟩ := sends_key hkey hsent
    obtain ⟨⟨⟩, -⟩ := Key.validate_ok.mp hks
    obtain ⟨w, -, -, hw⟩ := exists_of_mem_left (Wire.encodeFields_ok.mp hws) e he
    exact ⟨w.2, hw⟩
  · obtain ⟨p, progress, hp, -, -⟩ := sends_iff.mp hsent
    obtain ⟨_, fs, stamped, d, _, w, hks, rfl, hstamped, -, hw, -⟩ := prepare_replace hp
    obtain ⟨⟨⟩, -⟩ := Key.validate_ok.mp hks
    obtain ⟨managed, -, rfl⟩ := Lifecycle.stampWrite_replace hstamped
    -- The key is laid over the record, and each of its fields is found there.
    have hnamed := Key.isNamed_of_validate hks
    have hfound := (Fields.getKey?_eq_some_iff hmap hnamed).mpr he
    refine encoded_of_mem hw (Fields.mem_of_getKey? (hnamed e he) ?_)
    rw [Fields.getKey?_overlay hmap hnamed, hfound, Option.some_or]

/-- A read that makes its call has built a request from its parameters. -/
theorem build_of_sends (hread : op.isRead = true) (hsent : t.Sends op s req) :
    ∃ built, ReadRequest.build op.params = .ok built := by
  obtain ⟨p, progress, hp, -, -⟩ := sends_iff.mp hsent
  cases op with
  | get key params =>
    obtain ⟨-, built, _, -, hbuild, -⟩ := prepare_get hp
    exact ⟨built, hbuild⟩
  | query params =>
    obtain ⟨-, built, -, hbuild, -⟩ := prepare_query hp
    exact ⟨built, hbuild⟩
  | scan params =>
    obtain ⟨built, hbuild, -⟩ := prepare_scan hp
    exact ⟨built, hbuild⟩
  | _ => cases hread

theorem encoded_start (hread : op.isRead = true) (hsent : t.Sends op s req)
    (ht : (param op.params "ExclusiveStartKey").isTruthy = true) :
    ∃ w, encodeValue (param op.params "ExclusiveStartKey") = .ok w := by
  obtain ⟨built, hbuild⟩ := build_of_sends hread hsent
  exact encoded_of_build hbuild (.inr rfl) ht

theorem encoded_values (hcond : op.isConditional = true) (hsent : t.Sends op s req)
    (ht : (param op.params "ExpressionAttributeValues").isTruthy = true) :
    ∃ w, encodeValue (param op.params "ExpressionAttributeValues") = .ok w := by
  obtain ⟨p, progress, hp, -, -⟩ := sends_iff.mp hsent
  cases op with
  | get | query | scan =>
    obtain ⟨built, hbuild⟩ := build_of_sends rfl hsent
    exact encoded_of_build hbuild (.inl rfl) ht
  | create item id params =>
    obtain ⟨-, -, -, _, _, -, -, hparams, -⟩ := prepare_create hp
    exact encoded_of_conditionParams hparams ht
  | replace key item params =>
    obtain ⟨-, -, -, -, _, _, -, -, -, hparams, -⟩ := prepare_replace hp
    exact encoded_of_conditionParams hparams ht
  | update key attributes params =>
    obtain ⟨_, _, _, _, _, _, _, _, -, -, -, -, hpassed, hattach, -⟩ := prepare_update hp
    exact encoded_of_attach hpassed hattach ht
  | delete key params =>
    obtain ⟨-, _, _, -, hparams, -⟩ := prepare_delete hp
    exact encoded_of_conditionParams hparams ht
  | _ => cases hcond

theorem encoded_created {fs : Fields} {id params : Value} {e : Value × Value} (he : e ∈ fs)
    (hfree : e.1 ∉ t.schema.managed.map .text)
    (hsent : t.Sends (.create (.map fs) id params) s req) (ht : e.2.isTruthy = true) :
    ∃ w, encodeValue e.2 = .ok w := by
  obtain ⟨p, progress, hp, -, -⟩ := sends_iff.mp hsent
  obtain ⟨_, stamped, d, _, w, ⟨⟩, hstamped, -, hw, -⟩ := prepare_create hp
  obtain ⟨ids, stamps, r, hid, hstamps, rfl⟩ := Lifecycle.stampWrite_create hstamped
  have hnames := Lifecycle.created_names hid hstamps
  have hnamed : (ids ++ stamps).IsNamed := by
    rw [Fields.isNamed_iff_keys, hnames]
    exact List.forall_mem_map.mpr fun _ _ => rfl
  have hstays := Update.isDeleteSentinel_eq_false_iff.mpr (ne_empty_of_isTruthy ht)
  have hstored : e ∈ Lifecycle.storable fs := List.mem_filter.mpr ⟨he, by rw [hstays]; rfl⟩
  exact encoded_of_mem hw (Fields.mem_overlay_of_mem hstored hnamed (hnames ▸ hfree))

theorem encoded_identifier {item id params : Value} (hmanaged : t.schema.managesId = true)
    (hsent : t.Sends (.create item id params) s req) (ht : id.isTruthy = true) :
    ∃ w, encodeValue id = .ok w := by
  obtain ⟨p, progress, hp, -, -⟩ := sends_iff.mp hsent
  obtain ⟨fs, stamped, d, _, w, rfl, hstamped, -, hw, rfl, -⟩ := prepare_create hp
  obtain ⟨ids, stamps, r, hid, hstamps, rfl⟩ := Lifecycle.stampWrite_create hstamped
  rcases (Lifecycle.newId_ok hid).2 with ⟨hno, -⟩ | ⟨-, rfl⟩
  · rw [hno] at hmanaged
    cases hmanaged
  · rw [if_pos ht] at hp
    obtain ⟨w', hw', -⟩ := prepare_create_puts hp (Fields.get?_cons_self "id" id _)
    exact ⟨w', hw'⟩

theorem encoded_replaced {key fs : Fields} {params : Value} {e : Value × Value} (he : e ∈ fs)
    (hfree : e.1 ∉ t.rewrittenKeys key)
    (hsent : t.Sends (.replace (.map key) (.map fs) params) s req) (ht : e.2.isTruthy = true) :
    ∃ w, encodeValue e.2 = .ok w := by
  obtain ⟨_, -, -, hstores⟩ := (stores_replace hsent).exists_item
  obtain ⟨w, hw, -⟩ := hstores e he (ne_empty_of_isTruthy ht) hfree
  exact ⟨w, hw⟩

theorem encoded_updated {key fs : Fields} {params : Value} {e : Value × Value} (he : e ∈ fs)
    (hfree : e.1 ∉ t.rewrittenKeys key)
    (hsent : t.Sends (.update (.map key) (.map fs) params) s req) (ht : e.2.isTruthy = true) :
    ∃ w, encodeValue e.2 = .ok w := by
  obtain ⟨w, hw, -⟩ := (amends_update hsent).assigns e he (ne_empty_of_isTruthy ht) hfree
  exact ⟨w, hw⟩

/-- The item or the key of a request that goes on the wire in a batch. -/
theorem encoded_of_requestWire {op v w : Value} (h : Batch.RequestWire op w)
    (hv : Batch.Puts op v ∨ Batch.Removes op v) : ∃ w', encodeValue v = .ok w' := by
  cases h with
  | put h hws =>
    obtain ⟨part, hpart, hitem⟩ := h.entry
    rcases hv with ⟨-, part', hpart', hitem'⟩ | ⟨hputs, -⟩
    · cases hpart.symm.trans hpart'
      cases hitem.symm.trans hitem'
      exact ⟨_, Wire.encodeValue_map.mpr ⟨_, hws, rfl⟩⟩
    · cases h.mentions.symm.trans hputs
  | remove h hkey hws =>
    obtain ⟨part, hpart, hk⟩ := h.entry
    rcases hv with ⟨hputs, -⟩ | ⟨-, -, part', hpart', hk'⟩
    · cases h.puts.symm.trans hputs
    · cases hpart.symm.trans hpart'
      cases hk.symm.trans hk'
      exact ⟨_, Wire.encodeValue_map.mpr ⟨_, hws, rfl⟩⟩

theorem encoded_batched {requests account op v : Value} {ops : List Value}
    (hops : requests.elements = .ok ops) (hop : op ∈ ops)
    (hv : Batch.Puts op v ∨ Batch.Removes op v)
    (hsent : t.Sends (.batchWrite requests account) s req) : ∃ w, encodeValue v = .ok w := by
  obtain ⟨_, wires, hops', hwires, -⟩ := sends_batchWrite_iff.mp hsent
  cases hops.symm.trans hops'
  obtain ⟨w, -, hw⟩ := exists_of_mem_left hwires op hop
  exact encoded_of_requestWire (Batch.encodeRequest_ok.mp hw) hv

/-- **One encoding.** Whatever an operation puts on the wire, by whichever way, is the wire form of
its value. -/
theorem encoded_of_sends (hsent : t.Sends op s req) (h : t.Encodes op u)
    (ht : u.isTruthy = true) : ∃ w, encodeValue u = .ok w := by
  cases h with
  | keyField hkey hmap he => exact encoded_keyField hkey hmap he hsent
  | values hcond => exact encoded_values hcond hsent ht
  | start hread => exact encoded_start hread hsent ht
  | identifier hmanaged => exact encoded_identifier hmanaged hsent ht
  | created he hfree => exact encoded_created he hfree hsent ht
  | replaced he hfree => exact encoded_replaced he hfree hsent ht
  | updated he hfree => exact encoded_updated he hfree hsent ht
  | put hops hop h => exact encoded_batched hops hop (.inl h) hsent
  | remove hops hop h => exact encoded_batched hops hop (.inr h) hsent

/-- **Numbers.** Every numeral on the wire is the text of a number of the value that went there, and
that number fits the store or is marked. A number of the value that is not finite gets through only
if it is marked, and then as it is; so an operation that makes its call was passed no other one in
what it puts on the wire. -/
theorem unmarked_never_sent (v w : Value) (t : Table) (op : Operation) (s : Session)
    (req : Fields) :
    (encodeValue v = .ok w →
      (∀ x, Numeral x w → ∃ d, v.Holds d ∧ x = .text d.text ∧ (d.Fits ∨ d.IsMarked)) ∧
        ∀ d, v.Holds d → d.isFinite = false → d.IsMarked ∧ Numeral (.text d.text) w) ∧
    (t.Sends op s req → ∀ u, t.Encodes op u → ∀ d, u.Holds d → d.isFinite = false →
      d.IsMarked) := by
  refine ⟨Wire.numerals_of_encodeValue, fun hsent u hu d hd hfinite => ?_⟩
  obtain ⟨w, hw⟩ := encoded_of_sends hsent hu (hd.isTruthy hfinite)
  exact ((Wire.numerals_of_encodeValue hw).2 d hd hfinite).1

/-- A new record with an infinity below zero among its scores. -/
theorem unmarked_never_sent_infinity :
    let t : Table := ⟨"records", ⟨false, false, false⟩, ⟨fun _ => none, fun _ => ""⟩, "accountId"⟩
    let v : Value := .list [.int 7, .decimal (.infinity true)]
    let w := WireType.list.wrap (.list [WireType.number.wrap (.text "7"),
      WireType.number.wrap (.text "-Infinity")])
    let op : Operation := .create (.map [(.text "scores", v)]) .null .null
    let s := Session.start []
    encodeValue v = .ok w ∧
      ((∀ x, Numeral x w → ∃ d, v.Holds d ∧ x = .text d.text ∧ (d.Fits ∨ d.IsMarked)) ∧
        ∀ d, v.Holds d → d.isFinite = false → d.IsMarked ∧ Numeral (.text d.text) w) ∧
      ∃ req, t.Sends op s req ∧
        ∀ u, t.Encodes op u → ∀ d, u.Holds d → d.isFinite = false → d.IsMarked := by
  intro t v w op s
  have hw : encodeValue v = .ok w := by decide +kernel
  obtain ⟨req, hsent⟩ : ∃ req, t.Sends op s req := exists_sends (by cbv) (by cbv)
  obtain ⟨hvalue, hop⟩ := unmarked_never_sent v w t op s req
  exact ⟨hw, hvalue hw, req, hsent, hop hsent⟩

/-- Not every numeral on the wire is one of a finite number: a float may be an infinity below
zero. -/
theorem infinity_has_numeral :
    ¬ ∀ v w x, encodeValue v = .ok w → Numeral x w →
      ∃ d : Decimal, d.isFinite = true ∧ x = .text d.text := by
  intro h
  obtain ⟨d, hfinite, htext⟩ := h (.float (.infinity true)) _ (.text (Decimal.infinity true).text)
    rfl .number
  have hread : Decimal.read? d.text = some (.infinity true) := by
    rw [← Value.text.inj htext]
    decide +kernel
  cases d with
  | finite negative c e =>
    rw [Decimal.read?_text] at hread
    cases hread
  | _ => cases hfinite

end Table

end ItemStore
