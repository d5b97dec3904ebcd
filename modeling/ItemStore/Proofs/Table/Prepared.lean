import ItemStore.Proofs.Key
import ItemStore.Proofs.Lifecycle
import ItemStore.Proofs.Table.Sent
import ItemStore.Proofs.Wire.RoundTrip

/-! What an operation has prepared.

One lemma for each operation says what is known once it is prepared: which checks its arguments
passed, what was made of them and what was drawn, the request and the result that came of it, and
how far the operation had come. Whatever holds of requests follows from these without another look
at how they are prepared. -/
namespace ItemStore

open Outcome

namespace Operation

/-- The key that an operation is about. -/
def key? : Operation → Option Value
  | .get key _ => some key
  | .replace key _ _ => some key
  | .update key _ _ => some key
  | .delete key _ => some key
  | _ => none

/-- The key that an operation sends as such. A replacement sends it as part of its record. -/
def sentKey? : Operation → Option Value
  | .get key _ => some key
  | .update key _ _ => some key
  | .delete key _ => some key
  | _ => none

theorem sentKey?_or_replace {op : Operation} {key : Value} (h : op.key? = some key) :
    op.sentKey? = some key ∨ ∃ item params, op = .replace key item params := by
  cases op with
  | get | update | delete => exact .inl h
  | replace _ item params =>
    cases h
    exact .inr ⟨item, params, rfl⟩
  | _ => cases h

end Operation

namespace Table

variable {t : Table} {p q : Progress} {prepared : Prepared}

theorem requireMap_ok {v : Value} {fault : CallerFault} {u : Unit}
    (h : requireMap v fault = .ok u) : ∃ es, v = .map es := by
  cases v with
  | map es => exact ⟨es, rfl⟩
  | _ => cases h

theorem prepare_get {key params : Value} (h : t.prepare (.get key params) p = (.ok prepared, q)) :
    ∃ ks req w, Key.validate key = .ok ks ∧ ReadRequest.build params = .ok req ∧
      Wire.encodeItem (.map ks) = .ok w ∧ prepared = ⟨(t.extend req).put "Key" w, []⟩ ∧
      q = { p with context := some (t.context ks .null .null) } := by
  simp only [prepare, run_bind, run_lift, run_pure, prepare_announce] at h
  obtain ⟨ks, _, ⟨hkey, rfl⟩, _, _, rfl, req, _, ⟨hreq, rfl⟩, w, _, ⟨hw, rfl⟩, rfl, rfl⟩ := h
  exact ⟨ks, req, w, hkey, hreq, hw, rfl, rfl⟩

theorem prepare_query {params : Value} (h : t.prepare (.query params) p = (.ok prepared, q)) :
    ∃ account req, queriedAccount t.accountField params = .ok account ∧
      ReadRequest.build params = .ok req ∧ prepared = ⟨t.extend req, []⟩ ∧
      q = { p with context := some (t.context [] .null account) } := by
  simp only [prepare, run_bind, run_lift, run_pure, prepare_announce] at h
  obtain ⟨account, _, ⟨haccount, rfl⟩, _, _, rfl, req, _, ⟨hreq, rfl⟩, rfl, rfl⟩ := h
  exact ⟨account, req, haccount, hreq, rfl, rfl⟩

theorem prepare_scan {params : Value} (h : t.prepare (.scan params) p = (.ok prepared, q)) :
    ∃ req, ReadRequest.build params = .ok req ∧ prepared = ⟨t.extend req, []⟩ ∧
      q = { p with context := some (t.context [] .null .null) } := by
  simp only [prepare, run_bind, run_lift, run_pure, prepare_announce] at h
  obtain ⟨_, _, rfl, req, _, ⟨hreq, rfl⟩, rfl, rfl⟩ := h
  exact ⟨req, hreq, rfl, rfl⟩

theorem prepare_create {item id params : Value}
    (h : t.prepare (.create item id params) p = (.ok prepared, q)) :
    ∃ fs stamped d req w, item = .map fs ∧
      Lifecycle.stampWrite t.schema t.sources (.create (.map fs) id) p.draws = (.ok stamped, d) ∧
      conditionParams params = .ok req ∧ Wire.encodeItem (.map stamped.record) = .ok w ∧
      prepared = ⟨(t.extend req).put "Item" w, stamped.result⟩ ∧
      q = ⟨d, some (t.context stamped.record ((stamped.record.get? "id").getD id) .null)⟩ := by
  simp only [prepare, run_bind, run_lift, run_pure, prepare_announce, prepare_draw] at h
  obtain ⟨_, _, ⟨hmap, rfl⟩, stamped, _, ⟨d, hstamped, rfl⟩, _, _, rfl, req, _, ⟨hreq, rfl⟩, w, _,
    ⟨hw, rfl⟩, rfl, rfl⟩ := h
  obtain ⟨fs, rfl⟩ := requireMap_ok hmap
  exact ⟨fs, stamped, d, req, w, rfl, hstamped, hreq, hw, rfl, rfl⟩

theorem prepare_replace {key item params : Value}
    (h : t.prepare (.replace key item params) p = (.ok prepared, q)) :
    ∃ ks fs stamped d req w, Key.validate key = .ok ks ∧ item = .map fs ∧
      Lifecycle.stampWrite t.schema t.sources (.replace (.map ks) (.map fs)) p.draws =
        (.ok stamped, d) ∧
      conditionParams params = .ok req ∧ Wire.encodeItem (.map stamped.record) = .ok w ∧
      prepared = ⟨(t.extend req).put "Item" w, stamped.result⟩ ∧
      q = ⟨d, some (t.context ks .null .null)⟩ := by
  simp only [prepare, run_bind, run_lift, run_pure, prepare_announce, prepare_draw] at h
  obtain ⟨ks, _, ⟨hkey, rfl⟩, _, _, ⟨hmap, rfl⟩, _, _, rfl, stamped, _, ⟨d, hstamped, rfl⟩, req, _,
    ⟨hreq, rfl⟩, w, _, ⟨hw, rfl⟩, rfl, rfl⟩ := h
  obtain ⟨fs, rfl⟩ := requireMap_ok hmap
  exact ⟨ks, fs, stamped, d, req, w, hkey, rfl, hstamped, hreq, hw, rfl, rfl⟩

theorem prepare_update {key attributes params : Value}
    (h : t.prepare (.update key attributes params) p = (.ok prepared, q)) :
    ∃ ks fs stamped d u passed req w, Key.validate key = .ok ks ∧ attributes = .map fs ∧
      Lifecycle.stampWrite t.schema t.sources (.update (.map ks) (.map fs)) p.draws =
        (.ok stamped, d) ∧
      Update.compile ks stamped.record = .ok u ∧
      freeParams params ["Key", "UpdateExpression"] = .ok passed ∧
      u.attach.result passed = .ok req ∧ Wire.encodeItem (.map ks) = .ok w ∧
      prepared = ⟨(t.extend req).put "Key" w, stamped.result⟩ ∧
      q = ⟨d, some (t.context ks .null .null)⟩ := by
  simp only [prepare, run_bind, run_lift, run_pure, prepare_announce, prepare_draw] at h
  obtain ⟨ks, _, ⟨hkey, rfl⟩, _, _, ⟨hmap, rfl⟩, _, _, rfl, stamped, _, ⟨d, hstamped, rfl⟩, u, _,
    ⟨hu, rfl⟩, passed, _, ⟨hpassed, rfl⟩, req, _, ⟨hreq, rfl⟩, w, _, ⟨hw, rfl⟩, rfl, rfl⟩ := h
  obtain ⟨fs, rfl⟩ := requireMap_ok hmap
  exact ⟨ks, fs, stamped, d, u, passed, req, w, hkey, rfl, hstamped, hu, hpassed, hreq, hw, rfl,
    rfl⟩

theorem prepare_delete {key params : Value}
    (h : t.prepare (.delete key params) p = (.ok prepared, q)) :
    ∃ ks req w, Key.validate key = .ok ks ∧ conditionParams params = .ok req ∧
      Wire.encodeItem (.map ks) = .ok w ∧ prepared = ⟨(t.extend req).put "Key" w, []⟩ ∧
      q = { p with context := some (t.context ks .null .null) } := by
  simp only [prepare, run_bind, run_lift, run_pure, prepare_announce] at h
  obtain ⟨ks, _, ⟨hkey, rfl⟩, _, _, rfl, req, _, ⟨hreq, rfl⟩, w, _, ⟨hw, rfl⟩, rfl, rfl⟩ := h
  exact ⟨ks, req, w, hkey, hreq, hw, rfl, rfl⟩

theorem prepare_batchWrite {requests account : Value}
    (h : t.prepare (.batchWrite requests account) p = (.ok prepared, q)) :
    ∃ w, Batch.encodeRequests requests = .ok w ∧
      prepared = ⟨[(.text "RequestItems", .map [(.text t.name, w)]),
        (.text "ReturnConsumedCapacity", .text "INDEXES")], []⟩ ∧
      q = { p with context := some (t.context [] .null account) } := by
  simp only [prepare, run_bind, run_lift, run_pure, prepare_announce] at h
  obtain ⟨_, _, rfl, w, _, ⟨hw, rfl⟩, rfl, rfl⟩ := h
  exact ⟨w, hw, rfl, rfl⟩

/-! ### The key of a record -/

/-- A key is sent after it has passed the check, field by field. -/
theorem sends_key {op : Operation} {s : Session} {req : Fields} {key : Value}
    (hkey : op.sentKey? = some key) (hsent : t.Sends op s req) :
    ∃ ks ws, Key.validate key = .ok ks ∧ Wire.encodeFields ks = .ok ws ∧
      req.get? "Key" = some (.map ws) := by
  obtain ⟨p, progress, hp, rfl, -⟩ := sends_iff.mp hsent
  have hfields {ks params : Fields} {w : Value} (hks : Key.validate key = .ok ks)
      (hw : Wire.encodeItem (.map ks) = .ok w) : ∃ ks ws, Key.validate key = .ok ks ∧
        Wire.encodeFields ks = .ok ws ∧ (params.put "Key" w).get? "Key" = some (.map ws) := by
    obtain ⟨_, ws, ⟨⟩, hws, rfl⟩ := Wire.encodeItem_ok.mp hw
    exact ⟨ks, ws, hks, hws, Fields.get?_put_self ..⟩
  cases op with
  | get =>
    cases hkey
    obtain ⟨ks, _, w, hks, -, hw, rfl, -⟩ := prepare_get hp
    exact hfields hks hw
  | update =>
    cases hkey
    obtain ⟨ks, _, _, _, _, _, _, w, hks, -, -, -, -, -, hw, rfl, -⟩ := prepare_update hp
    exact hfields hks hw
  | delete =>
    cases hkey
    obtain ⟨ks, _, w, hks, -, hw, rfl, -⟩ := prepare_delete hp
    exact hfields hks hw
  | _ => cases hkey

end Table

end ItemStore
