import ItemStore.Proofs.Table.Callable

/-! Operations that are refused.

An operation whose arguments have their shape is refused before its call for one of four causes: a
mistake of the caller, a number out of bounds among the values that it puts on the wire, a key with
a name that is none and cannot be written out, or a clock that has left the calendar. -/
namespace ItemStore

open Outcome

/-! ### The arguments of an operation -/

namespace Operation

/-- The values that an operation puts on the wire. -/
def parts : Operation → List Value
  | .get key params =>
    [key, param params "ExpressionAttributeValues", param params "ExclusiveStartKey"]
  | .query params => [param params "ExpressionAttributeValues", param params "ExclusiveStartKey"]
  | .scan params => [param params "ExpressionAttributeValues", param params "ExclusiveStartKey"]
  | .create item id params => [item, id, param params "ExpressionAttributeValues"]
  | .replace key item params => [key, item, param params "ExpressionAttributeValues"]
  | .update key attributes params => [key, attributes, param params "ExpressionAttributeValues"]
  | .delete key params => [key, param params "ExpressionAttributeValues"]
  | .batchWrite requests _ => Batch.members requests
  | _ => []

/-- Whether maps stand where an operation asks its parameters for maps, a text where it asks for a
text, and well-formed requests in a batch. Nothing is asked of keys, items and attributes. -/
def Shaped : Operation → Prop
  | .get _ params => ShapedRead params
  | .query params => (∃ es, params = .map es) ∧ ShapedRead params
  | .scan params => ShapedRead params
  | .create _ _ params => ShapedCondition params
  | .replace _ _ params => ShapedCondition params
  | .update _ _ params => ShapedUpdate params
  | .delete _ params => ShapedCondition params
  | .batchWrite requests _ => Batch.ShapedBatch requests
  | .listTables params => params.IsOptionalMap
  | .createTable params => ∃ es, params = .map es
  | .deleteTable params => params.IsOptionalMap

/-- The keys that an operation checks: its own, or those of the records that a batch deletes. -/
def Checks : Operation → Value → Prop
  | .batchWrite requests _, key => Batch.Deleted requests key
  | op, key => op.key? = some key

end Operation

/-! ### Drawing -/

namespace Lifecycle

variable {schema : Schema} {src : Sources} {d d' : Draws}

/-- The next reading of the clock gives no stamp. -/
def ClockFault (src : Sources) (readings : Nat) (f : Fault) : Prop :=
  f = .outOfRange ∧ (src.clock readings).bind Moment.timestamp? = none

theorem stamp_fails : FailsFrom (ClockFault src d.readings) d src.stamp := by
  unfold Sources.stamp
  refine .bind (.ok _) fun d₀ q hget => ?_
  cases hget
  refine .bind (.ok _) fun u r _ => ?_
  split
  · exact .pure _
  · next hnone => exact .throw ⟨rfl, hnone⟩

theorem freshStamp_fails : FailsFrom (ClockFault src d.readings) d (freshStamp schema src) := by
  unfold freshStamp
  split
  · exact .bind stamp_fails fun _ _ _ => .pure _
  · exact .pure _

theorem newStamps_fails : FailsFrom (ClockFault src d.readings) d (newStamps schema src) := by
  unfold newStamps
  split
  · exact .bind stamp_fails fun _ _ _ => .pure _
  · exact .pure _

theorem newId_fails {P : Fault → Prop} (id : Value) : FailsFrom P d (newId schema src id) := by
  unfold newId
  split
  · split
    · exact .pure _
    · exact .bind (.ok _) fun _ _ _ => .pure _
  · exact .pure _

theorem stampWrite_create_fails (item : Fields) (id : Value) :
    FailsFrom (ClockFault src d.readings) d (stampWrite schema src (.create (.map item) id)) := by
  refine .bind (.lift (.ok _)) fun fs q hfs => ?_
  obtain ⟨-, rfl⟩ := run_lift.mp hfs
  refine .bind (newId_fails id) fun ids r hids => ?_
  rw [← (newId_ok hids).1]
  exact .bind newStamps_fails fun _ _ _ => .pure _

theorem stampWrite_replace_fails (key item : Fields) :
    FailsFrom (ClockFault src d.readings) d
      (stampWrite schema src (.replace (.map key) (.map item))) := by
  refine .bind (.lift (.ok _)) fun fs q hfs => ?_
  obtain ⟨-, rfl⟩ := run_lift.mp hfs
  exact .bind freshStamp_fails fun _ _ _ => .bind (.lift (.ok _)) fun _ _ _ => .pure _

theorem stampWrite_update_fails (key attributes : Fields) :
    FailsFrom (ClockFault src d.readings) d
      (stampWrite schema src (.update (.map key) (.map attributes))) := by
  refine .bind (.lift (.ok _)) fun fs q hfs => ?_
  obtain ⟨-, rfl⟩ := run_lift.mp hfs
  exact .bind freshStamp_fails fun _ _ _ => .bind (.lift (.ok _)) fun _ _ _ => .pure _

/-! ### Numbers in a record -/

theorem signals_overlay {s : Decimal.Signal} {fs upper : Fields}
    (h : (Value.map (fs.overlay upper)).Signals s) :
    (Value.map fs).Signals s ∨ (Value.map upper).Signals s := by
  obtain ⟨e, he, hs⟩ := Value.signals_map_iff.mp h
  rcases Fields.mem_overlay he with ⟨a, ha, hv⟩ | ⟨a, ha, hv⟩
  · exact .inl (.map ha (hv ▸ hs))
  · exact .inr (.map ha (hv ▸ hs))

theorem signals_filter {s : Decimal.Signal} {fs : Fields} {p : Value × Value → Bool}
    (h : (Value.map (fs.filter p)).Signals s) : (Value.map fs).Signals s := by
  obtain ⟨e, he, hs⟩ := Value.signals_map_iff.mp h
  exact .map (List.mem_of_mem_filter he) hs

/-- Managed fields are texts, but for an identifier of the caller. -/
theorem not_signals_of_texts {s : Decimal.Signal} {fs : Fields}
    (h : ∀ e ∈ fs, ∃ t, e.2 = .text t) : ¬ (Value.map fs).Signals s := by
  intro hs
  obtain ⟨e, he, hs⟩ := Value.signals_map_iff.mp hs
  obtain ⟨t, ht⟩ := h e he
  rw [ht] at hs
  exact Value.not_signals_text hs

theorem freshStamp_texts {managed : Fields}
    (h : freshStamp schema src d = (.ok managed, d')) : ∀ e ∈ managed, ∃ t, e.2 = .text t := by
  rcases freshStamp_ok h with ⟨-, rfl⟩ | ⟨-, m, s, -, -, rfl⟩
  · simp
  · simp

theorem newStamps_texts {managed : Fields}
    (h : newStamps schema src d = (.ok managed, d')) : ∀ e ∈ managed, ∃ t, e.2 = .text t := by
  obtain ⟨s, -, rfl⟩ := newStamps_ok h
  intro e he
  rcases List.mem_append.mp he with he | he
  all_goals
    split at he
    · exact ⟨s, congrArg Prod.snd (List.mem_singleton.mp he)⟩
    · cases he

/-- A number among the managed fields of a new record is in the identifier of the caller. -/
theorem signals_created {s : Decimal.Signal} {id : Value} {ids stamps : Fields} {r : Draws}
    (hids : newId schema src id d = (.ok ids, r))
    (hstamps : newStamps schema src r = (.ok stamps, d'))
    (h : (Value.map (ids ++ stamps)).Signals s) : id.Signals s := by
  obtain ⟨e, he, hs⟩ := Value.signals_map_iff.mp h
  rcases List.mem_append.mp he with he | he
  · rcases (newId_ok hids).2 with ⟨-, rfl⟩ | ⟨-, rfl⟩
    · cases he
    · rw [List.mem_singleton.mp he] at hs
      split at hs
      · exact hs
      · exact absurd hs Value.not_signals_text
  · exact absurd (.map he hs) (not_signals_of_texts (newStamps_texts hstamps))

end Lifecycle

/-! ### Preparation -/

namespace Table

open Lifecycle (ClockFault)

/-- The faults with which an operation may be refused before its call. -/
def Refused (t : Table) (op : Operation) (readings : Nat) (f : Fault) : Prop :=
  Refusal op.parts op.Shaped f ∨ NameFault op.Checks f ∨ ClockFault t.sources readings f

theorem queriedAccount_fails (accountField : String) (params : Value) :
    FailsAs (Refusal [] ((∃ es, params = .map es) ∧ ShapedRead params))
      (queriedAccount accountField params) := by
  refine .bind ?_ fun req hreq => .bind ?_ fun _ _ => .pure _
  · exact params.fields_fails.refusal And.left
  · obtain rfl := Value.eq_map_of_fields hreq
    rw [← param_eq (Value.toFieldsOrEmpty_map req)]
    exact (Update.callerValues_fails _).refusal fun hs => hs.2.values

theorem requireMap_fails (v : Value) (fault : CallerFault) :
    FailsAsCaller (requireMap v fault) := by
  cases v with
  | map es => exact .ok _
  | _ => exact .error ⟨fault, rfl⟩

section Steps
variable {t : Table} {op : Operation} {p : Progress} {n : Nat} {α β : Type}

theorem announce_bind_fails {P : Fault → Prop} {context : Fields} {f : Unit → Preparing β}
    (hf : FailsFrom P { p with context := some context } (f ())) :
    FailsFrom P p (announce context >>= f) := by
  refine .bind (.ok ()) fun u q hq => ?_
  rw [prepare_announce.mp hq]
  exact hf

theorem draw_bind_fails {x : Drawing α} {f : α → Preparing β}
    (hx : FailsFrom (ClockFault t.sources p.draws.readings) p.draws x)
    (hf : ∀ a d, x p.draws = (.ok a, d) →
      FailsFrom (t.Refused op p.draws.readings) { p with draws := d } (f a)) :
    FailsFrom (t.Refused op p.draws.readings) p (draw x >>= f) := by
  refine .bind (fun f h => .inr (.inr (hx f h))) fun a q hq => ?_
  obtain ⟨d, hd, rfl⟩ := prepare_draw.mp hq
  exact hf a d hd

theorem Refused.of_caller {f : Fault} (h : ∃ c, f = .caller c) : t.Refused op n f :=
  .inl (.of_caller h)

theorem Refused.of_key {key : Value} {f : Fault} (hkey : op.Checks key)
    (h : (∃ c, f = .caller c) ∨ NameFault (· = key) f) : t.Refused op n f := by
  rcases h with h | ⟨hmalformed, _, rfl, hname⟩
  · exact .of_caller h
  · exact .inr (.inl ⟨hmalformed, _, hkey, hname⟩)

/-- What a part of the preparation is refused with is what the operation is refused with, if its
numbers are to be found in those of the operation. -/
theorem Refused.of_numbers {parts : List Value} {Shaped : Prop} {f : Fault}
    (h : Refusal parts Shaped f) (hshaped : op.Shaped → Shaped)
    (hparts : ∀ v ∈ parts, ∀ s, v.Signals s → ∃ u ∈ op.parts, u.Signals s) : t.Refused op n f := by
  cases h with
  | caller c => exact .inl (.caller c)
  | number hv hs =>
    obtain ⟨u, hu, hs⟩ := hparts _ hv _ hs
    exact .inl (.number hu hs)
  | shape hf h => exact .inl (.shape hf fun hs => h (hshaped hs))

theorem Refused.of_part {parts : List Value} {Shaped : Prop} {f : Fault}
    (h : Refusal parts Shaped f) (hparts : parts ⊆ op.parts) (hshaped : op.Shaped → Shaped) :
    t.Refused op n f :=
  .inl (h.mono hparts hshaped)

theorem Refused.of_item {v : Value} {f : Fault} (h : v.Refused f)
    (hparts : ∀ s, v.Signals s → ∃ u ∈ op.parts, u.Signals s) : t.Refused op n f := by
  have hitem : Refusal [v] op.Shaped f := .of_refused (List.mem_singleton_self v) h
  exact .of_numbers hitem id (List.forall_mem_singleton.mpr hparts)

end Steps

variable {t : Table} {p : Progress}

theorem prepare_get_fails (key params : Value) :
    FailsFrom (t.Refused (.get key params) p.draws.readings) p (t.prepare (.get key params)) := by
  refine .lift_bind ((Key.validate_fails key).mono fun _ => .of_key rfl) fun ks hks => ?_
  obtain ⟨rfl, -⟩ := Key.validate_ok.mp hks
  refine announce_bind_fails (.lift_bind ?_ fun req _ => .lift_bind ?_ fun _ _ => .pure _)
  · exact (ReadRequest.build_fails params).mono fun _ hf =>
      .of_part hf (by simp [Operation.parts]) id
  · exact (Wire.encodeItem_fails _).mono fun _ hf => .of_item hf fun s hs =>
      ⟨_, List.mem_cons_self .., hs⟩

theorem prepare_query_fails (params : Value) :
    FailsFrom (t.Refused (.query params) p.draws.readings) p (t.prepare (.query params)) := by
  refine .lift_bind ?_ fun _ _ => announce_bind_fails (.lift_bind ?_ fun req _ => .pure _)
  · exact (queriedAccount_fails _ params).mono fun _ hf => .of_part hf (List.nil_subset _) id
  · exact (ReadRequest.build_fails params).mono fun _ hf =>
      .of_part hf (List.Subset.refl _) And.right

theorem prepare_scan_fails (params : Value) :
    FailsFrom (t.Refused (.scan params) p.draws.readings) p (t.prepare (.scan params)) := by
  refine announce_bind_fails (.lift_bind ?_ fun req _ => .pure _)
  exact (ReadRequest.build_fails params).mono fun _ hf => .of_part hf (List.Subset.refl _) id

theorem prepare_create_fails (item id params : Value) :
    FailsFrom (t.Refused (.create item id params) p.draws.readings) p
      (t.prepare (.create item id params)) := by
  refine .lift_bind ((requireMap_fails item _).mono fun _ => .of_caller) fun _ hmap => ?_
  obtain ⟨fs, rfl⟩ := requireMap_ok hmap
  refine draw_bind_fails (Lifecycle.stampWrite_create_fails fs id) fun stamped d hdraw => ?_
  obtain ⟨ids, stamps, r, hids, hstamps, rfl⟩ := Lifecycle.stampWrite_create hdraw
  refine announce_bind_fails (.lift_bind ?_ fun req _ => .lift_bind ?_ fun _ _ => .pure _)
  · exact (conditionParams_fails params).mono fun _ hf => .of_part hf (by simp [Operation.parts])
      fun hs => hs
  · refine (Wire.encodeItem_fails _).mono fun _ hf => .of_item hf fun s hs => ?_
    rcases Lifecycle.signals_overlay hs with hs | hs
    · exact ⟨.map fs, by simp [Operation.parts], Lifecycle.signals_filter hs⟩
    · exact ⟨id, by simp [Operation.parts], Lifecycle.signals_created hids hstamps hs⟩

theorem prepare_replace_fails (key item params : Value) :
    FailsFrom (t.Refused (.replace key item params) p.draws.readings) p
      (t.prepare (.replace key item params)) := by
  refine .lift_bind ((Key.validate_fails key).mono fun _ => .of_key rfl) fun ks hks => ?_
  obtain ⟨rfl, -⟩ := Key.validate_ok.mp hks
  refine .lift_bind ((requireMap_fails item _).mono fun _ => .of_caller) fun _ hmap => ?_
  obtain ⟨fs, rfl⟩ := requireMap_ok hmap
  refine announce_bind_fails ?_
  refine draw_bind_fails (Lifecycle.stampWrite_replace_fails ks fs) fun stamped d hdraw => ?_
  obtain ⟨managed, hmanaged, rfl⟩ := Lifecycle.stampWrite_replace hdraw
  refine .lift_bind ?_ fun req _ => .lift_bind ?_ fun _ _ => .pure _
  · exact (conditionParams_fails params).mono fun _ hf => .of_part hf (by simp [Operation.parts]) id
  · refine (Wire.encodeItem_fails _).mono fun _ hf => .of_item hf fun s hs => ?_
    rcases Lifecycle.signals_overlay hs with hs | hs
    · rcases Lifecycle.signals_overlay hs with hs | hs
      · exact ⟨.map fs, by simp [Operation.parts], Lifecycle.signals_filter hs⟩
      · exact absurd hs (Lifecycle.not_signals_of_texts (Lifecycle.freshStamp_texts hmanaged))
    · exact ⟨.map ks, by simp [Operation.parts], hs⟩

theorem prepare_update_fails (key attributes params : Value) :
    FailsFrom (t.Refused (.update key attributes params) p.draws.readings) p
      (t.prepare (.update key attributes params)) := by
  refine .lift_bind ((Key.validate_fails key).mono fun _ => .of_key rfl) fun ks hks => ?_
  obtain ⟨rfl, -⟩ := Key.validate_ok.mp hks
  refine .lift_bind ((requireMap_fails attributes _).mono fun _ => .of_caller) fun _ hmap => ?_
  obtain ⟨fs, rfl⟩ := requireMap_ok hmap
  refine announce_bind_fails ?_
  refine draw_bind_fails (Lifecycle.stampWrite_update_fails ks fs) fun stamped d hdraw => ?_
  obtain ⟨managed, hmanaged, rfl⟩ := Lifecycle.stampWrite_update hdraw
  refine .lift_bind ((Update.compile_fails _ _).mono fun _ => .of_caller) fun u hu => ?_
  refine .lift_bind ?_ fun req hreq => .lift_bind ?_ fun _ _ => .lift_bind ?_ fun _ _ => .pure _
  · exact (freeParams_fails params _).mono fun _ hf => .of_part hf (List.nil_subset _)
      fun hs => hs.isMap
  · have hparam (name : String) : req.getD name = param params name :=
      (param_eq (freeParams_ok hreq) name).symm
    refine (Update.attach_fails u req).mono fun f hf => ?_
    rw [hparam, hparam] at hf
    refine .of_numbers hf (fun hs => ⟨hs.names, hs.values⟩) fun v hv s hs => ?_
    rcases List.mem_pair.mp hv with rfl | rfl
    · rw [Update.compile_ok hu] at hs
      rcases Lifecycle.signals_overlay (Lifecycle.signals_filter hs) with hs | hs
      · exact ⟨.map fs, by simp [Operation.parts], hs⟩
      · exact absurd hs (Lifecycle.not_signals_of_texts (Lifecycle.freshStamp_texts hmanaged))
    · exact ⟨_, by simp [Operation.parts], hs⟩
  · exact (Wire.encodeItem_fails _).mono fun _ hf => .of_item hf fun s hs =>
      ⟨_, List.mem_cons_self .., hs⟩

theorem prepare_delete_fails (key params : Value) :
    FailsFrom (t.Refused (.delete key params) p.draws.readings) p
      (t.prepare (.delete key params)) := by
  refine .lift_bind ((Key.validate_fails key).mono fun _ => .of_key rfl) fun ks hks => ?_
  obtain ⟨rfl, -⟩ := Key.validate_ok.mp hks
  refine announce_bind_fails (.lift_bind ?_ fun req _ => .lift_bind ?_ fun _ _ => .pure _)
  · exact (conditionParams_fails params).mono fun _ hf => .of_part hf (by simp [Operation.parts]) id
  · exact (Wire.encodeItem_fails _).mono fun _ hf => .of_item hf fun s hs =>
      ⟨_, List.mem_cons_self .., hs⟩

theorem prepare_batchWrite_fails (requests account : Value) :
    FailsFrom (t.Refused (.batchWrite requests account) p.draws.readings) p
      (t.prepare (.batchWrite requests account)) := by
  refine announce_bind_fails (.lift_bind ?_ fun _ _ => .pure _)
  exact (Batch.encodeRequests_fails requests).mono fun _ hf => hf.imp_right .inl

/-- **Preparation.** What an operation can be refused with before its call. -/
theorem prepare_fails (op : Operation) :
    FailsFrom (t.Refused op p.draws.readings) p (t.prepare op) := by
  cases op with
  | get key params => exact prepare_get_fails key params
  | query params => exact prepare_query_fails params
  | scan params => exact prepare_scan_fails params
  | create item id params => exact prepare_create_fails item id params
  | replace key item params => exact prepare_replace_fails key item params
  | update key attributes params => exact prepare_update_fails key attributes params
  | delete key params => exact prepare_delete_fails key params
  | batchWrite requests account => exact prepare_batchWrite_fails requests account
  | listTables params | deleteTable params =>
    refine .lift_bind ?_ fun _ _ => .pure _
    exact params.toFieldsOrEmpty_fails.mono fun _ hf => .inl (.shape hf.1 hf.2)
  | createTable params =>
    refine .lift_bind ?_ fun _ _ => .pure _
    exact params.toFields_fails.mono fun _ hf => .inl (.shape hf.1 hf.2)

/-! ### Before the call -/

variable {op : Operation} {s : Session} {f : Fault}

/-- An operation that failed without a call was refused, if its request can be made a call. -/
theorem refused_of_no_call (hparams : CallableParams op.params)
    (hfail : (t.perform op s).1 = .error f)
    (hcalls : (t.perform op s).2.transport.calls = s.transport.calls) :
    t.Refused op s.draws.readings f := by
  rcases hp : t.prepare op ⟨s.draws, none⟩ with ⟨e | prepared, progress⟩
  · rw [perform, hp] at hfail
    cases hfail
    exact prepare_fails op _ (congrArg Prod.fst hp)
  · have hsent : t.Sends op s prepared.request :=
      sends_iff.mpr ⟨prepared, progress, hp, rfl, isCallable_prepare hp hparams⟩
    rw [Sends, hcalls] at hsent
    simp at hsent

/-- **Refusals.** A value that does not go on the wire is refused as a mistake of the caller or for
a number in it that is out of bounds. So an operation whose arguments have their shape fails before
its call for a mistake of the caller, for a number out of bounds in what it puts on the wire, for a
key that it checks whose name is none and cannot be written out, or because the clock has left the
calendar. -/
theorem refusal_causes (v : Value) (t : Table) (op : Operation) (s : Session) (f : Fault) :
    (Wire.encodeValue v = .error f →
      (∃ c, f = .caller c) ∨ ∃ signal, f = .number signal ∧ v.Signals signal) ∧
    (op.Shaped → CallableParams op.params → (t.perform op s).1 = .error f →
      (t.perform op s).2.transport.calls = s.transport.calls →
      (∃ c, f = .caller c) ∨ (∃ signal, f = .number signal ∧ ∃ u ∈ op.parts, u.Signals signal) ∨
        NameFault op.Checks f ∨ ClockFault t.sources s.draws.readings f) := by
  constructor
  · intro hf
    have hrefused := Wire.encodeValue_fails v f hf
    cases f with
    | caller c => exact .inl ⟨c, rfl⟩
    | number signal => exact .inr ⟨signal, rfl, hrefused⟩
    | _ => cases hrefused
  · intro hshaped hparams hfail hcalls
    rcases refused_of_no_call hparams hfail hcalls with h | hname | hclock
    · cases h with
      | caller c => exact .inl ⟨c, rfl⟩
      | number hu hs => exact .inr (.inl ⟨_, rfl, _, hu, hs⟩)
      | shape _ hunshaped => exact absurd hshaped hunshaped
    · exact .inr (.inr (.inl hname))
    · exact .inr (.inr (.inr hclock))

/-- A number beyond the greatest exponent, in a list of a new record. -/
theorem refusal_causes_great_number :
    let t : Table := ⟨"records", ⟨true, false, false⟩, ⟨fun _ => none, fun _ => "i"⟩, "accountId"⟩
    let n : Value := .decimal (.finite false 1 300)
    let op : Operation := .create (.map [(.text "sizes", .list [.int 3, n])]) .null .null
    let s := Session.start []
    let f : Fault := .number .overflow
    Wire.encodeValue n = .error f ∧ op.Shaped ∧ CallableParams op.params ∧
      (t.perform op s).1 = .error f ∧ (t.perform op s).2.transport.calls = s.transport.calls ∧
      ((∃ c, f = .caller c) ∨ ∃ signal, f = .number signal ∧ n.Signals signal) ∧
      ((∃ c, f = .caller c) ∨ (∃ signal, f = .number signal ∧ ∃ u ∈ op.parts, u.Signals signal) ∨
        NameFault op.Checks f ∨ ClockFault t.sources s.draws.readings f) := by
  intro t n op s f
  have hvalue : Wire.encodeValue n = .error f := rfl
  have hshaped : op.Shaped := ⟨fun h => (Bool.false_ne_true h).elim, fun h =>
    (Bool.false_ne_true h).elim⟩
  have hparams : CallableParams op.params := by
    intro req h
    cases h
  have hfail : (t.perform op s).1 = .error f := by cbv
  have hcalls : (t.perform op s).2.transport.calls = s.transport.calls := by cbv
  obtain ⟨hrefused, hcause⟩ := refusal_causes n t op s f
  exact ⟨hvalue, hshaped, hparams, hfail, hcalls, hrefused hvalue,
    hcause hshaped hparams hfail hcalls⟩

/-- Not every value that is refused is a mistake of the caller: an integer of 39 digits is not. -/
theorem not_refused_as_caller :
    ¬ ∀ v f, Wire.encodeValue v = .error f → ∃ c, f = .caller c := by
  intro h
  obtain ⟨c, hc⟩ := h (.int 123456789012345678901234567890123456789) (.number .inexact) rfl
  cases hc

end Table

end ItemStore
