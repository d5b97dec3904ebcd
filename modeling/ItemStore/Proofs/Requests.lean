import ItemStore.Proofs.Key
import ItemStore.Proofs.Update.Meaning
import ItemStore.Proofs.Value.Shape
import ItemStore.Proofs.Wire.Refusal
import ItemStore.Table.Basic
import ItemStore.Table.Batch

/-! Requests that cannot be built.

Requests are built from parameters, keys, updates and batches. Each can be refused for a mistake of
the caller, for a number out of bounds among the values that go on the wire, and, where a map of
values was asked for and something else was passed, for its shape (`Refusal`). Which values those
are, and which shape is asked for, is said of each kind of request. -/
namespace ItemStore

open Outcome

/-- The faults with which a request may be refused: some values of it go on the wire, and it has to
be of a certain shape. -/
inductive Refusal (parts : List Value) (Shaped : Prop) : Fault → Prop
  | caller (c : CallerFault) : Refusal parts Shaped (.caller c)
  | number {v : Value} {s : Decimal.Signal} (hv : v ∈ parts) (h : v.Signals s) :
    Refusal parts Shaped (.number s)
  | shape {f : Fault} (hf : f.isShape = true) (h : ¬ Shaped) : Refusal parts Shaped f

namespace Refusal

variable {parts parts' : List Value} {Shaped Shaped' : Prop} {f : Fault}

theorem mono (h : Refusal parts Shaped f) (hparts : parts ⊆ parts') (hshaped : Shaped' → Shaped) :
    Refusal parts' Shaped' f := by
  cases h with
  | caller c => exact .caller c
  | number hv h => exact .number (hparts hv) h
  | shape hf h => exact .shape hf fun hs => h (hshaped hs)

theorem of_caller (h : ∃ c, f = .caller c) : Refusal parts Shaped f := by
  obtain ⟨c, rfl⟩ := h
  exact .caller c

/-- A value that is refused is a part that is refused. -/
theorem of_refused {v : Value} (hv : v ∈ parts) (h : v.Refused f) : Refusal parts Shaped f := by
  cases f with
  | caller c => exact .caller c
  | number s => exact .number hv h
  | _ => cases h

end Refusal

/-- What has not its shape makes a request that has not its shape. -/
theorem Outcome.FailsUnless.refusal {α : Type} {parts : List Value} {Shaped Shaped' : Prop}
    {x : Except Fault α} (hx : FailsUnless Shaped x) (h : Shaped' → Shaped) :
    FailsAs (Refusal parts Shaped') x :=
  hx.mono fun _ hf => .shape hf.1 fun hs => hf.2 (h hs)

/-- One of the keys that are checked has a name that cannot be written out. -/
def NameFault (Checked : Value → Prop) (f : Fault) : Prop :=
  f = .malformed ∧ ∃ key, Checked key ∧ Key.Unwritten key

/-- A key that is checked is refused as a mistake of the caller, or for a name that cannot be
written out. -/
theorem Key.validate_fails (v : Value) :
    FailsAs (fun f => (∃ c, f = .caller c) ∨ NameFault (· = v) f) (validate v) := by
  intro f hf
  exact (caller_or_unwritten hf).imp_right fun ⟨hmalformed, h⟩ => ⟨hmalformed, v, rfl, h⟩

/-! ### Parameters -/

/-- A parameter that a caller passes, null if it is not there. -/
def param (params : Value) (name : String) : Value :=
  match params.toFieldsOrEmpty with
  | .ok req => req.getD name
  | .error _ => .null

theorem param_eq {params : Value} {req : Fields} (h : params.toFieldsOrEmpty = .ok req)
    (name : String) : param params name = req.getD name := by
  rw [param, h]

/-- Parameters under a condition: a map that may be left out, with values to compare with. -/
structure ShapedCondition (params : Value) : Prop where
  isMap : params.IsOptionalMap
  values : (param params "ExpressionAttributeValues").IsOptionalMap

/-- As `ShapedCondition`, with a table of names. -/
structure ShapedUpdate (params : Value) : Prop extends ShapedCondition params where
  names : (param params "ExpressionAttributeNames").IsOptionalMap

/-- As `ShapedUpdate`, with a text for a projection. -/
structure ShapedRead (params : Value) : Prop extends ShapedUpdate params where
  projection : (param params "ProjectionExpression").isTruthy = true →
    ∃ s, param params "ProjectionExpression" = .text s

namespace ReadRequest

/-- A parameter that is put into wire form is refused as it is there. -/
theorem encodeParam_fails {name : String} {encode : Value → Except Fault Value} {req : Fields}
    {P : Fault → Prop} (h : FailsAs P (encode (req.getD name))) :
    FailsAs P (encodeParam name encode req) := by
  rw [encodeParam, Value.truthy?]
  split
  · exact .ok _
  · next v hv =>
    split at hv
    · cases hv
      exact .bind h fun _ _ => .pure _
    · cases hv

/-- Only the one parameter changes. -/
theorem encodeParam_get? {name n : String} {encode : Value → Except Fault Value}
    {req req' : Fields} (h : encodeParam name encode req = .ok req') (hn : n ≠ name) :
    req'.get? n = req.get? n := by
  rw [encodeParam] at h
  split at h
  · cases h
    rfl
  · obtain ⟨w, -, hw⟩ := bind_ok.mp h
    cases hw
    rw [Fields.get?_put, if_neg hn.symm]

theorem encodeEntries_fails (v : Value) :
    FailsAs (Refusal [v] (∃ es, v = .map es)) (encodeEntries v) := by
  refine .bind ?_ fun fs hfs => .bind ?_ fun ws _ => .pure _
  · exact v.fields_fails.refusal id
  · obtain rfl := Value.eq_map_of_fields hfs
    exact (Wire.encodeFields_unsent fs).mono fun f hf =>
      .of_refused (List.mem_singleton_self _) hf.refused

theorem encodeValues_fails (req : Fields) :
    FailsAs (Refusal [req.getD "ExpressionAttributeValues"]
      (req.getD "ExpressionAttributeValues").IsOptionalMap) (encodeValues req) := by
  intro f hf
  by_cases ht : (req.getD "ExpressionAttributeValues").isTruthy = true
  · refine encodeParam_fails ((encodeEntries_fails _).mono fun f hf => ?_) f hf
    exact hf.mono (List.Subset.refl _) fun hmap => hmap ht
  · rw [encodeValues, encodeParam, Value.truthy?, if_neg ht] at hf
    cases hf

end ReadRequest

/-! ### Projections -/

namespace Projection

theorem addNames_fails (table names : Fields) : FailsAsCaller (addNames table names) := by
  induction names generalizing table with
  | nil => exact .ok _
  | cons e names ih =>
    unfold addNames
    split
    · exact ih _
    · exact .error ⟨_, rfl⟩

theorem requested?_fails (v : Value) :
    FailsUnless (v.isTruthy = true → ∃ s, v = .text s) (requested? v) := by
  unfold requested?
  split
  · exact .ok _
  · exact .ok _
  · split
    · exact .ok _
    · next data hdata =>
      refine .error ⟨rfl, fun h => ?_⟩
      obtain ⟨s, hs⟩ := h (by simp [Value.isTruthy, hdata])
      cases hs
  · next v htext htorn hbytes =>
    split
    · next ht =>
      refine .error ⟨rfl, fun h => ?_⟩
      obtain ⟨s, hs⟩ := h ht
      exact htext s hs
    · exact .ok _

theorem table?_fails (req : Fields) {Shaped : Prop}
    (hprojection : Shaped → (req.getD "ProjectionExpression").isTruthy = true →
      ∃ s, req.getD "ProjectionExpression" = .text s)
    (hnames : Shaped → (req.getD "ExpressionAttributeNames").IsOptionalMap) :
    FailsAs (Refusal [] Shaped) (table? req) := by
  refine .bind ?_ fun found _ => ?_
  · exact (requested?_fails _).refusal hprojection
  · split
    · exact .pure _
    · refine .bind ?_ fun names _ => .bind ?_ fun table _ => .pure _
      · exact (Value.toFieldsOrEmpty_fails _).refusal hnames
      · exact (addNames_fails _ _).mono fun f hf => .of_caller hf

/-- Only the projection and the table of names change. -/
theorem spellOut_get? {req req' : Fields} (h : spellOut.result req = .ok req') {n : String}
    (hprojection : n ≠ "ProjectionExpression") (hnames : n ≠ "ExpressionAttributeNames") :
    req'.get? n = req.get? n := by
  rw [spellOut, Amendment.result_checked] at h
  obtain ⟨found, -, rfl⟩ := map_ok.mp h
  unfold write
  split
  · rw [Fields.get?_erase, if_neg hprojection.symm]
  · rw [Fields.get?_put, if_neg hnames.symm, Fields.get?_put, if_neg hprojection.symm]

end Projection

/-! ### Reads and conditions -/

namespace ReadRequest

/-- A request with its projection spelled out, if it asks for one. -/
def spelled (req : Fields) : Except Fault Fields :=
  if req.has "ProjectionExpression" then Projection.spellOut.result req else .ok req

/-- A read is built in four steps. -/
theorem build_eq (params : Value) : build params = (do
    let req ← params.toFieldsOrEmpty
    let req ← spelled req
    let req ← encodeValues req
    encodeParam "ExclusiveStartKey" Wire.encodeItem req) := by
  unfold build
  congr 1
  funext req
  unfold spelled
  split <;> rfl

theorem spelled_fails (req : Fields) {Shaped : Prop}
    (hprojection : Shaped → (req.getD "ProjectionExpression").isTruthy = true →
      ∃ s, req.getD "ProjectionExpression" = .text s)
    (hnames : Shaped → (req.getD "ExpressionAttributeNames").IsOptionalMap) :
    FailsAs (Refusal [] Shaped) (spelled req) := by
  unfold spelled
  split
  · rw [Projection.spellOut, Amendment.result_checked]
    exact (Projection.table?_fails req hprojection hnames).map _
  · exact .ok _

theorem spelled_get? {req req' : Fields} (h : spelled req = .ok req') {n : String}
    (hprojection : n ≠ "ProjectionExpression") (hnames : n ≠ "ExpressionAttributeNames") :
    req'.get? n = req.get? n := by
  unfold spelled at h
  split at h
  · exact Projection.spellOut_get? h hprojection hnames
  · cases h
    rfl

theorem build_fails (params : Value) :
    FailsAs (Refusal [param params "ExpressionAttributeValues", param params "ExclusiveStartKey"]
      (ShapedRead params)) (build params) := by
  rw [build_eq]
  refine .bind ?_ fun req hreq => .bind ?_ fun req' hspelled => .bind ?_ fun req'' hvalues =>
    encodeParam_fails ?_
  · exact params.toFieldsOrEmpty_fails.refusal fun hs => hs.isMap
  · have hfails : FailsAs (Refusal [] (ShapedRead params)) (spelled req) := by
      apply spelled_fails
      · rw [← param_eq hreq]
        exact fun hs => hs.projection
      · rw [← param_eq hreq]
        exact fun hs => hs.names
    exact hfails.mono fun f hf => hf.mono (List.nil_subset _) id
  · have hparam : req'.getD "ExpressionAttributeValues" =
        param params "ExpressionAttributeValues" := by
      rw [param_eq hreq, Fields.getD, Fields.getD,
        spelled_get? hspelled (by decide) (by decide)]
    have hfails := encodeValues_fails req'
    rw [hparam] at hfails
    exact hfails.mono fun f hf => hf.mono (by simp) fun hs => hs.values
  · have hparam : req''.getD "ExclusiveStartKey" = param params "ExclusiveStartKey" := by
      rw [param_eq hreq, Fields.getD, Fields.getD, encodeParam_get? hvalues (by decide),
        spelled_get? hspelled (by decide) (by decide)]
    rw [hparam]
    exact (Wire.encodeItem_fails _).mono fun f hf => .of_refused (by simp) hf

end ReadRequest

theorem Table.freeParams_fails (params : Value) (reserved : List String) :
    FailsAs (Refusal [] params.IsOptionalMap) (freeParams params reserved) := by
  refine .bind ?_ fun req _ => ?_
  · exact params.toFieldsOrEmpty_fails.refusal id
  · split
    · exact .error (.caller _)
    · exact .pure _

theorem Table.freeParams_ok {params : Value} {reserved : List String} {req : Fields}
    (h : freeParams params reserved = .ok req) : params.toFieldsOrEmpty = .ok req := by
  obtain ⟨req', hreq, h⟩ := bind_ok.mp h
  split at h
  · cases h
  · cases h
    exact hreq

theorem Table.conditionParams_fails (params : Value) :
    FailsAs (Refusal [param params "ExpressionAttributeValues"] (ShapedCondition params))
      (conditionParams params) := by
  refine .bind ?_ fun req hreq => ?_
  · refine (freeParams_fails params _).mono fun f hf => ?_
    exact hf.mono (List.nil_subset _) fun hs => hs.isMap
  · rw [param_eq (freeParams_ok hreq)]
    refine (ReadRequest.encodeValues_fails req).mono fun f hf => ?_
    exact hf.mono (List.Subset.refl _) fun hs => param_eq (freeParams_ok hreq) _ ▸ hs.values

/-! ### Updates -/

namespace Update

theorem compile_fails (key attributes : Fields) : FailsAsCaller (compile key attributes) := by
  unfold compile ofFields
  split
  · exact .error ⟨_, rfl⟩
  · exact .ok _

theorem addNew_fails (collision : Text.Points → CallerFault) (fs : Fields) (rs : References) :
    FailsAsCaller (addNew collision fs rs) := by
  induction rs generalizing fs with
  | nil => exact .ok _
  | cons r rs ih =>
    unfold addNew
    split
    · exact .error ⟨_, rfl⟩
    · exact ih _

theorem encodeReferences_fails (rs : References) :
    FailsAs (fun f => ∃ r ∈ rs, r.2.Unsent f) (encodeReferences rs) := by
  induction rs with
  | nil => exact .ok _
  | cons r rs ih =>
    rw [encodeReferences]
    refine .bind ?_ fun _ _ => .bind ?_ fun _ _ => .pure _
    · exact (Wire.encodeValue_unsent r.2).mono fun f hf => ⟨r, List.mem_cons_self .., hf⟩
    · refine ih.mono fun f hf => ?_
      obtain ⟨r', hr', hf⟩ := hf
      exact ⟨r', List.mem_cons_of_mem _ hr', hf⟩

/-- What is assigned is the value of a field. -/
theorem exists_field_of_mem_values {u : Update} {r : String × Value} (h : r ∈ u.values) :
    ∃ e ∈ u.fields, e.2 = r.2 := by
  obtain ⟨f, hf, rfl⟩ := List.mem_map.mp h
  refine ⟨f.entry, ?_, rfl⟩
  rw [← numbered_entries]
  exact List.mem_map_of_mem (List.mem_of_mem_filter hf)

theorem callerValues_fails (v : Value) : FailsUnless v.IsOptionalMap (callerValues v) :=
  Value.optional_fails v.fields_fails

theorem encode_callerValues_fails {v : Value} {fs : Fields} (h : callerValues v = .ok fs) :
    FailsAs v.Unsent (Wire.encodeFields fs) := by
  rw [callerValues] at h
  split at h
  · obtain rfl := Value.eq_map_of_fields h
    exact Wire.encodeFields_unsent fs
  · cases h
    exact .ok _

theorem attach_fails (u : Update) (req : Fields) :
    FailsAs (Refusal [.map u.fields, req.getD "ExpressionAttributeValues"]
      ((req.getD "ExpressionAttributeNames").IsOptionalMap ∧
        (req.getD "ExpressionAttributeValues").IsOptionalMap)) (u.attach.result req) := by
  rw [attach, Amendment.result_checked]
  refine FailsAs.map ?_ _
  refine .bind ?_ fun names _ => .bind ?_ fun _ _ => .bind ?_ fun fs hfs => .bind ?_ fun _ _ =>
    .bind ?_ fun _ _ => .bind ?_ fun _ _ => .pure _
  · exact (Value.toFieldsOrEmpty_fails _).refusal And.left
  · exact (addNew_fails _ _ _).mono fun f hf => .of_caller hf
  · exact (callerValues_fails _).refusal And.right
  · exact (encode_callerValues_fails hfs).mono fun f hf => .of_refused (by simp) hf.refused
  · refine (encodeReferences_fails _).mono fun f hf => ?_
    obtain ⟨r, hr, hf⟩ := hf
    obtain ⟨e, he, hv⟩ := exists_field_of_mem_values hr
    refine .of_refused (List.mem_cons_self ..) (hf.refused.mono fun s hs => ?_)
    exact .map he (hv ▸ hs)
  · exact (addNew_fails _ _ _).mono fun f hf => .of_caller hf

end Update

/-! ### Batches -/

namespace Batch

/-- A request of a batch: a map whose part, if it has one, holds the item or the key. -/
structure ShapedRequest (op : Value) : Prop where
  isMap : ∃ es, op = .map es
  put : ∀ part, op.entry "PutRequest" = .ok part → ∃ item, part.entry "Item" = .ok item
  delete : ∀ part, op.entry "DeleteRequest" = .ok part → ∃ key, part.entry "Key" = .ok key

theorem mentions_entry {op : Value} {name : String} (h : op.mentions (.text name) = .ok true) :
    FailsAs (Refusal [op] (ShapedRequest op)) (op.entry name) := by
  refine (op.entry_fails name).refusal fun hs => ?_
  obtain ⟨es, rfl⟩ := hs.isMap
  exact Value.entry_of_mentions h

/-- The request is to put this item. -/
structure Puts (op item : Value) : Prop where
  mentions : op.mentions (.text "PutRequest") = .ok true
  entry : ∃ part, op.entry "PutRequest" = .ok part ∧ part.entry "Item" = .ok item

/-- The request is to delete the record of this key. One that has an item to put as well is not
looked at for a key. -/
structure Removes (op key : Value) : Prop where
  puts : op.mentions (.text "PutRequest") = .ok false
  mentions : op.mentions (.text "DeleteRequest") = .ok true
  entry : ∃ part, op.entry "DeleteRequest" = .ok part ∧ part.entry "Key" = .ok key

/-- A number in a part of a request is a number in the request. -/
theorem signals_of_entry {v x : Value} {name : String} {s : Decimal.Signal}
    (h : v.entry name = .ok x) (hx : x.Signals s) : v.Signals s := by
  unfold Value.entry at h
  split at h
  · split at h
    · next hfound =>
      cases h
      exact .map (Fields.mem_of_getKey? rfl hfound) hx
    · cases h
  · cases h

theorem encodeRequest_fails (op : Value) :
    FailsAs (fun f => Refusal [op] (ShapedRequest op) f ∨ NameFault (Removes op) f)
      (encodeRequest op) := by
  have hmentions (name : String) :
      FailsAs (Refusal [op] (ShapedRequest op)) (op.mentions (.text name)) :=
    (op.mentions_fails _).refusal fun hs => hs.isMap
  have hencode {outer inner : String} {part v : Value} (hpart : op.entry outer = .ok part)
      (hv : part.entry inner = .ok v) :
      FailsAs (Refusal [op] (ShapedRequest op)) (Wire.encodeItem v) := by
    refine (Wire.encodeItem_fails v).mono fun f hf => ?_
    refine .of_refused (List.mem_singleton_self _) (hf.mono fun s hs => ?_)
    exact signals_of_entry hpart (signals_of_entry hv hs)
  refine .bind ((hmentions _).mono fun _ => .inl) fun isPut hput => ?_
  split
  · next htrue =>
    rw [htrue] at hput
    have hitem {part : Value} (hpart : op.entry "PutRequest" = .ok part) :
        FailsAs (Refusal [op] (ShapedRequest op)) (part.entry "Item") :=
      (part.entry_fails _).refusal fun hs => hs.put part hpart
    refine FailsAs.mono (P := Refusal [op] (ShapedRequest op)) ?_ fun _ => .inl
    exact .bind (mentions_entry hput) fun part hpart => .bind (hitem hpart) fun item hitem =>
      .bind (hencode hpart hitem) fun _ _ => .pure _
  · next hfalse =>
    rw [Bool.eq_false_iff.mpr hfalse] at hput
    refine .bind ((hmentions _).mono fun _ => .inl) fun isDelete hdelete => ?_
    split
    · next htrue =>
      rw [htrue] at hdelete
      refine .bind ((mentions_entry hdelete).mono fun _ => .inl) fun part hpart =>
        .bind ?_ fun v hv => .bind ?_ fun key hkey => .bind ?_ fun _ _ => .pure _
      · refine FailsAs.mono ?_ fun _ => .inl
        exact (part.entry_fails _).refusal fun hs => hs.delete part hpart
      · refine (Key.validate_fails v).mono fun f hf => hf.imp .of_caller ?_
        rintro ⟨hmalformed, key, rfl, hname⟩
        exact ⟨hmalformed, key, ⟨hput, hdelete, part, hpart, hv⟩, hname⟩
      · obtain ⟨rfl, -⟩ := Key.validate_ok.mp hkey
        exact (hencode hpart hv).mono fun _ => .inl
    · exact .error (.inl (.caller _))

/-- The requests of a batch, each of its shape. -/
def ShapedBatch (requests : Value) : Prop :=
  ∃ ops, requests.elements = .ok ops ∧ ∀ op ∈ ops, ShapedRequest op

/-- The requests of a batch one by one; none if it has none. -/
def members (requests : Value) : List Value :=
  match requests.elements with
  | .ok ops => ops
  | .error _ => []

/-- The keys that the requests of a batch are to delete the records of. -/
def Deleted (requests key : Value) : Prop := ∃ op ∈ members requests, Removes op key

theorem encodeRequests_fails (requests : Value) :
    FailsAs (fun f => Refusal (members requests) (ShapedBatch requests) f ∨
      NameFault (Deleted requests) f) (encodeRequests requests) := by
  refine .bind ?_ fun ops hops => .bind (.mapM fun op hop => ?_) fun _ _ => .pure _
  · intro f hf
    refine .inl (.shape (requests.elements_fails f hf) ?_)
    rintro ⟨ops, hops, -⟩
    rw [hops] at hf
    cases hf
  · have hmembers : members requests = ops := by rw [members, hops]
    intro f hf
    rcases encodeRequest_fails op f hf with h | ⟨hmalformed, key, hremoves, hname⟩
    · refine .inl (h.mono ?_ ?_)
      · rw [hmembers]
        exact List.cons_subset.mpr ⟨hop, List.nil_subset _⟩
      · rintro ⟨ops', hops', hall⟩
        rw [hops] at hops'
        cases hops'
        exact hall op hop
    · exact .inr ⟨hmalformed, key, ⟨op, hmembers ▸ hop, hremoves⟩, hname⟩

end Batch

end ItemStore
