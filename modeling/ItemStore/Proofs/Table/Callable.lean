import ItemStore.Proofs.Requests
import ItemStore.Proofs.Table.Prepared

/-! Requests that can be made calls.

A request can be made a call if its names are names of parameters. Every step that builds a request
writes parameters or takes them out, so the request of an operation can be made a call if the
parameters of the caller can. -/
namespace ItemStore

open Outcome

theorem isCallable_put {req : Fields} {name : String} (hreq : isCallable req = true)
    (hname : name ≠ "self") (v : Value) : isCallable (req.put name v) = true := by
  induction req with
  | nil => simpa [isCallable, Fields.put, Fields.putKey] using hname
  | cons e req ih =>
    simp only [isCallable, List.all_cons, Bool.and_eq_true] at hreq ih
    simp only [isCallable, Fields.put, Fields.putKey] at ih ⊢
    split
    · rw [List.all_cons, Bool.and_eq_true]
      exact hreq
    · rw [List.all_cons, Bool.and_eq_true]
      exact ⟨hreq.1, ih hreq.2⟩

theorem isCallable_erase {req : Fields} (hreq : isCallable req = true) (name : String) :
    isCallable (req.erase name) = true := by
  rw [isCallable, List.all_eq_true] at hreq ⊢
  exact fun e he => hreq e (List.mem_of_mem_filter he)

/-- The parameters of a caller are parameters of a call, as far as they are a map. -/
def CallableParams (params : Value) : Prop :=
  ∀ req, params.toFields = .ok req → isCallable req = true

theorem CallableParams.orEmpty {params : Value} {req : Fields} (hparams : CallableParams params)
    (h : params.toFieldsOrEmpty = .ok req) : isCallable req = true := by
  rw [Value.toFieldsOrEmpty] at h
  split at h
  · exact hparams req h
  · cases h
    rfl

namespace ReadRequest

theorem isCallable_encodeParam {name : String} {encode : Value → Except Fault Value}
    {req req' : Fields} (h : encodeParam name encode req = .ok req') (hname : name ≠ "self")
    (hreq : isCallable req = true) : isCallable req' = true := by
  rw [encodeParam] at h
  split at h
  · cases h
    exact hreq
  · obtain ⟨w, -, hw⟩ := bind_ok.mp h
    cases hw
    exact isCallable_put hreq hname w

theorem isCallable_spelled {req req' : Fields} (h : spelled req = .ok req')
    (hreq : isCallable req = true) : isCallable req' = true := by
  unfold spelled at h
  split at h
  · rw [Projection.spellOut, Amendment.result_checked] at h
    obtain ⟨found, -, rfl⟩ := map_ok.mp h
    unfold Projection.write
    split
    · exact isCallable_erase hreq _
    · exact isCallable_put (isCallable_put hreq (by decide) _) (by decide) _
  · cases h
    exact hreq

theorem isCallable_build {params : Value} {req : Fields} (h : build params = .ok req)
    (hparams : CallableParams params) : isCallable req = true := by
  rw [build_eq] at h
  simp only [bind_ok] at h
  obtain ⟨passed, hpassed, req', hspelled, req'', hvalues, hstart⟩ := h
  have hreq' := isCallable_spelled hspelled (hparams.orEmpty hpassed)
  have hreq'' := isCallable_encodeParam hvalues (by decide) hreq'
  exact isCallable_encodeParam hstart (by decide) hreq''

end ReadRequest

theorem Update.isCallable_attach {u : Update} {req req' : Fields}
    (h : u.attach.result req = .ok req') (hreq : isCallable req = true) :
    isCallable req' = true := by
  rw [attach, Amendment.result_checked] at h
  obtain ⟨⟨names, values⟩, -, rfl⟩ := map_ok.mp h
  have hwritten : isCallable ((req.put "UpdateExpression" (.text u.expression)).put
      "ExpressionAttributeNames" (.map names)) = true :=
    isCallable_put (isCallable_put hreq (by decide) _) (by decide) _
  rw [write]
  by_cases hempty : values.isEmpty = true
  · rw [if_pos hempty]
    exact isCallable_erase hwritten _
  · rw [if_neg hempty]
    exact isCallable_put hwritten (by decide) _

namespace Table

variable {t : Table}

theorem isCallable_extend {req : Fields} (hreq : isCallable req = true) :
    isCallable (t.extend req) = true :=
  isCallable_put (isCallable_put hreq (by decide) _) (by decide) _

theorem isCallable_conditionParams {params : Value} {req : Fields}
    (h : conditionParams params = .ok req) (hparams : CallableParams params) :
    isCallable req = true := by
  obtain ⟨passed, hpassed, hvalues⟩ := bind_ok.mp h
  exact ReadRequest.isCallable_encodeParam hvalues (by decide)
    (hparams.orEmpty (freeParams_ok hpassed))

theorem isCallable_withTableName {req : Fields} (hreq : isCallable req = true) :
    isCallable (t.withTableName req) = true := by
  unfold withTableName
  split
  · exact hreq
  · exact isCallable_put hreq (by decide) _

end Table

/-- The parameters that go into the request of an operation. -/
def Operation.params : Operation → Value
  | .get _ params => params
  | .query params => params
  | .scan params => params
  | .create _ _ params => params
  | .replace _ _ params => params
  | .update _ _ params => params
  | .delete _ params => params
  | .batchWrite .. => .null
  | .listTables params => params
  | .createTable params => params
  | .deleteTable params => params

namespace Table

variable {t : Table} {op : Operation} {p q : Progress} {prepared : Prepared}

/-- **The request.** What is prepared can be made a call. -/
theorem isCallable_prepare (h : t.prepare op p = (.ok prepared, q))
    (hparams : CallableParams op.params) : isCallable prepared.request = true := by
  cases op with
  | get key params =>
    obtain ⟨_, req, _, -, hreq, -, rfl, -⟩ := prepare_get h
    exact isCallable_put (isCallable_extend (ReadRequest.isCallable_build hreq hparams))
      (by decide) _
  | query params =>
    obtain ⟨_, req, -, hreq, rfl, -⟩ := prepare_query h
    exact isCallable_extend (ReadRequest.isCallable_build hreq hparams)
  | scan params =>
    obtain ⟨req, hreq, rfl, -⟩ := prepare_scan h
    exact isCallable_extend (ReadRequest.isCallable_build hreq hparams)
  | create item id params =>
    obtain ⟨_, _, _, req, _, -, -, hreq, -, rfl, -⟩ := prepare_create h
    exact isCallable_put (isCallable_extend (isCallable_conditionParams hreq hparams))
      (by decide) _
  | replace key item params =>
    obtain ⟨_, _, _, _, req, _, -, -, -, hreq, -, rfl, -⟩ := prepare_replace h
    exact isCallable_put (isCallable_extend (isCallable_conditionParams hreq hparams))
      (by decide) _
  | update key attributes params =>
    obtain ⟨_, _, _, _, _, passed, req, _, -, -, -, -, hpassed, hreq, -, rfl, -⟩ := prepare_update h
    have hcallable := Update.isCallable_attach hreq (hparams.orEmpty (freeParams_ok hpassed))
    exact isCallable_put (isCallable_extend hcallable) (by decide) _
  | delete key params =>
    obtain ⟨_, req, _, -, hreq, -, rfl, -⟩ := prepare_delete h
    exact isCallable_put (isCallable_extend (isCallable_conditionParams hreq hparams))
      (by decide) _
  | batchWrite requests account =>
    obtain ⟨_, -, rfl, -⟩ := prepare_batchWrite h
    rfl
  | listTables params =>
    simp only [prepare, run_bind, run_lift, run_pure] at h
    obtain ⟨req, _, ⟨hreq, -⟩, rfl, -⟩ := h
    exact hparams.orEmpty hreq
  | createTable params =>
    simp only [prepare, run_bind, run_lift, run_pure] at h
    obtain ⟨req, _, ⟨hreq, -⟩, rfl, -⟩ := h
    exact isCallable_withTableName (hparams req hreq)
  | deleteTable params =>
    simp only [prepare, run_bind, run_lift, run_pure] at h
    obtain ⟨req, _, ⟨hreq, -⟩, rfl, -⟩ := h
    exact isCallable_withTableName (hparams.orEmpty hreq)

end Table

end ItemStore
