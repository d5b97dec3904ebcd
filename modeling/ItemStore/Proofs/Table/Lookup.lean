import ItemStore.Proofs.Table.Errors

/-! Looking up a record.

A look-up answers with the record in the response to its call, field by field, or with the fault of
the first field that cannot be read. It answers that there is no record exactly if the response
holds none, or a falsy value in its place: the empty map is falsy, so a record of which no field is
asked for counts as missing. -/
namespace ItemStore

open Outcome

/-! ### Fields of which one cannot be read -/

namespace Wire

/-- The fields are read in order, and the first that cannot be read decides the fault. -/
structure FirstFault (es : Fields) (f : Fault) : Prop where
  exists_split : ∃ before e after, es = before ++ e :: after ∧
    (∀ e' ∈ before, ∃ v, decodeValue e'.2 = .ok v) ∧ decodeValue e.2 = .error f

theorem decodeFields_error {es : Fields} {f : Fault} (h : decodeFields es = .error f) :
    FirstFault es f := by
  induction es with
  | nil => cases h
  | cons e es ih =>
    rw [decodeFields] at h
    cases hv : decodeValue e.2 with
    | error g =>
      rw [hv] at h
      cases h
      exact ⟨[], e, es, rfl, List.forall_mem_nil _, hv⟩
    | ok v =>
      rw [hv] at h
      cases hrest : decodeFields es with
      | ok fs =>
        rw [hrest] at h
        cases h
      | error g =>
        rw [hrest] at h
        cases h
        obtain ⟨before, e', after, rfl, hbefore, hfault⟩ := (ih hrest).exists_split
        exact ⟨e :: before, e', after, rfl, List.forall_mem_cons.mpr ⟨⟨v, hv⟩, hbefore⟩, hfault⟩

end Wire

/-! ### Responses -/

namespace Table

variable {t : Table} {op : Operation} {s : Session} {response : Fields}

/-- The operation makes its call, and a response comes back. -/
def Returns (t : Table) (op : Operation) (s : Session) (response : Fields) : Prop :=
  ∃ req, t.Sends op s req ∧ (s.transport.send op.method req).1 = .ok response

theorem returns_iff : t.Returns op s response ↔
    ∃ p progress, t.prepare op ⟨s.draws, none⟩ = (.ok p, progress) ∧
      (s.transport.send op.method p.request).1 = .ok response := by
  constructor
  · intro h
    obtain ⟨req, hsent, hresponse⟩ := h
    obtain ⟨p, progress, hp, rfl, -⟩ := sends_iff.mp hsent
    exact ⟨p, progress, hp, hresponse⟩
  · intro h
    obtain ⟨p, progress, hp, hresponse⟩ := h
    have hcallable : isCallable p.request = true :=
      Transport.isCallable_of_send (by rw [hresponse]; exact nofun)
    exact ⟨p.request, sends_iff.mpr ⟨p, progress, hp, rfl, hcallable⟩, hresponse⟩

/-- One response comes back. -/
theorem Returns.unique {response' : Fields} (h : t.Returns op s response)
    (h' : t.Returns op s response') : response = response' := by
  obtain ⟨req, hsent, hresponse⟩ := h
  obtain ⟨req', hsent', hresponse'⟩ := h'
  cases hsent.unique hsent'
  exact Except.ok.inj (hresponse.symm.trans hresponse')

/-- The answer to a response is concluded from it. -/
theorem answer_of_returns (h : t.Returns op s response) :
    ∃ result, (t.perform op s).1 = conclude op result response := by
  obtain ⟨p, progress, hp, hresponse⟩ := returns_iff.mp h
  exact ⟨p.result, (perform_of_prepared hp).2 response hresponse⟩

/-- The response has no item, or one that is taken for none. -/
def LacksItem (response : Fields) : Prop :=
  response.get? "Item" = none ∨ ∃ v, response.get? "Item" = some v ∧ v.isTruthy = false

theorem lacksItem_iff : LacksItem response ↔ (response.getD "Item").truthy? = none := by
  unfold LacksItem Fields.getD Value.truthy?
  cases response.get? "Item" with
  | none => simp [Value.isTruthy]
  | some v => simp

theorem conclude_get_notFound_iff {key params : Value} {result : Fields} :
    conclude (.get key params) result response = .error .notFound ↔ LacksItem response := by
  rw [lacksItem_iff, conclude]
  split
  · next h => exact iff_of_true rfl h
  · next item h =>
    rw [h]
    refine iff_of_false (fun hmissing => ?_) (Option.some_ne_none item)
    -- Nothing in an item that cannot be read says that the record is missing.
    have hdata : FailsAsData (do return Answer.value (.map (← Wire.decodeItem item))) :=
      .bind (Wire.decodeItem_fails item) fun _ _ => .pure _
    cases hdata _ hmissing

theorem perform_get_notFound_iff {key params : Value} :
    (t.perform (.get key params) s).1 = .error .notFound ↔
      ∃ response, t.Returns (.get key params) s response ∧ LacksItem response := by
  constructor
  · intro h
    rcases perform_error_iff.mp h with
      hprepare | ⟨p, hp, ⟨g, hg, hinterpreted⟩ | ⟨response, hr, hc⟩⟩
    · rcases prepare_error_cases hprepare with ⟨c, hc⟩ | hdata
      · cases hc
      · cases hdata
    · rcases s.transport.send_fails _ p.request g hg with hdata | ⟨e, rfl⟩
      · rw [interpret_of_isData hdata] at hinterpreted
        rw [← hinterpreted] at hdata
        cases hdata
      · have hservice := isOfService_interpret (.get key params) e
        rw [← hinterpreted] at hservice
        cases hservice
    · exact ⟨response, returns_iff.mpr ⟨p, _, Prod.ext hp rfl, hr⟩, conclude_get_notFound_iff.mp hc⟩
  · intro h
    obtain ⟨response, hreturns, hlacks⟩ := h
    obtain ⟨result, hanswer⟩ := answer_of_returns hreturns
    rw [hanswer]
    exact conclude_get_notFound_iff.mpr hlacks

/-- An operation that misses a record is a look-up, and has made its call. -/
theorem sends_of_notFound (h : (t.perform op s).1 = .error .notFound) :
    (∃ key params, op = .get key params) ∧ ∃ req, t.Sends op s req := by
  obtain ⟨key, params, rfl⟩ := perform_notFound h
  obtain ⟨_, ⟨req, hsent, -⟩, -⟩ := perform_get_notFound_iff.mp h
  exact ⟨⟨key, params, rfl⟩, req, hsent⟩

/-- A record with fields is answered as it is read, or fails with its first fault. -/
theorem perform_get_of_item {key params : Value} {es : Fields}
    (hreturns : t.Returns (.get key params) s response)
    (hitem : response.get? "Item" = some (.map es)) (hne : es ≠ []) :
    (∃ fs, (t.perform (.get key params) s).1 = .ok (.value (.map fs)) ∧
        List.Forall₂ (Wire.KeepsKey Wire.decodeValue) es fs) ∨
      ∃ f, (t.perform (.get key params) s).1 = .error f ∧ Wire.FirstFault es f := by
  obtain ⟨result, hanswer⟩ := answer_of_returns hreturns
  have htruthy : (response.getD "Item").truthy? = some (.map es) := by
    rw [Fields.getD, hitem, Option.getD_some, Value.truthy?, if_pos]
    simpa [Value.isTruthy] using hne
  have hread : (t.perform (.get key params) s).1 =
      (Wire.decodeFields es >>= fun fs => return .value (.map fs)) := by
    rw [hanswer, conclude, htruthy]
    rfl
  rw [hread]
  cases hfields : Wire.decodeFields es with
  | ok fs => exact .inl ⟨fs, rfl, Wire.decodeFields_ok.mp hfields⟩
  | error f => exact .inr ⟨f, rfl, Wire.decodeFields_error hfields⟩

/-- **Look-up.** A look-up answers that there is no record exactly if the response to its call has
no item, or a falsy value in its place. An item that is a map is taken for none if it has no fields.
If it has fields, they are answered as they are read, in order, or the first that cannot be read is
the fault. -/
theorem get_misses_or_reads (t : Table) (key params : Value) (s : Session) :
    ((t.perform (.get key params) s).1 = .error .notFound ↔
      ∃ response, t.Returns (.get key params) s response ∧ LacksItem response) ∧
    ∀ response es, t.Returns (.get key params) s response →
      response.get? "Item" = some (.map es) →
      (es = [] → (t.perform (.get key params) s).1 = .error .notFound) ∧
      (es ≠ [] →
        (∃ fs, (t.perform (.get key params) s).1 = .ok (.value (.map fs)) ∧
          List.Forall₂ (Wire.KeepsKey Wire.decodeValue) es fs) ∨
        ∃ f, (t.perform (.get key params) s).1 = .error f ∧ Wire.FirstFault es f) := by
  refine ⟨perform_get_notFound_iff, fun response es hreturns hitem => ⟨?_, ?_⟩⟩
  · rintro rfl
    exact perform_get_notFound_iff.mpr ⟨response, hreturns, .inr ⟨_, hitem, rfl⟩⟩
  · exact perform_get_of_item hreturns hitem

/-- A record of two fields, one whose second field cannot be read, and a reply without an item. -/
theorem get_misses_or_reads_two :
    let t : Table := ⟨"records", ⟨false, false, false⟩, ⟨fun _ => none, fun _ => ""⟩, "accountId"⟩
    let key : Value := .map [(.text "id", .text "k")]
    let reply (item : Value) := Session.start
      [⟨"get_item", .null, .response (.map [(.text "Item", item)])⟩]
    let size : Value × Value := (.text "size", .map [(.text "N", .text "3")])
    let id : Value × Value := (.text "id", .map [(.text "S", .text "k")])
    let odd : Value × Value := (.text "odd", .map [(.text "X", .null)])
    t.Returns (.get key .null) (reply (.map [size, id])) [(.text "Item", .map [size, id])] ∧
      t.Returns (.get key .null) (reply (.map [size, odd])) [(.text "Item", .map [size, odd])] ∧
      t.Returns (.get key .null) (reply .null) [(.text "Item", .null)] ∧
      (∃ fs, (t.perform (.get key .null) (reply (.map [size, id]))).1 = .ok (.value (.map fs)) ∧
        List.Forall₂ (Wire.KeepsKey Wire.decodeValue) [size, id] fs) ∧
      (∃ f, (t.perform (.get key .null) (reply (.map [size, odd]))).1 = .error f ∧
        Wire.FirstFault [size, odd] f) ∧
      (t.perform (.get key .null) (reply .null)).1 = .error .notFound := by
  intro t key reply size id odd
  have hboth : t.Returns (.get key .null) (reply (.map [size, id]))
      [(.text "Item", .map [size, id])] := returns_iff.mpr ⟨_, _, rfl, by cbv⟩
  have hodd : t.Returns (.get key .null) (reply (.map [size, odd]))
      [(.text "Item", .map [size, odd])] := returns_iff.mpr ⟨_, _, rfl, by cbv⟩
  have hnull : t.Returns (.get key .null) (reply .null) [(.text "Item", .null)] :=
    returns_iff.mpr ⟨_, _, rfl, by cbv⟩
  obtain ⟨-, hreads⟩ := get_misses_or_reads t key .null (reply (.map [size, id]))
  obtain ⟨-, hfaults⟩ := get_misses_or_reads t key .null (reply (.map [size, odd]))
  obtain ⟨hmisses, -⟩ := get_misses_or_reads t key .null (reply .null)
  have hok : (t.perform (.get key .null) (reply (.map [size, id]))).1.isOk = true := by cbv
  have hfault : (t.perform (.get key .null) (reply (.map [size, odd]))).1.isOk = false := by cbv
  refine ⟨hboth, hodd, hnull, ?_, ?_, hmisses.mpr ⟨_, hnull, .inr ⟨.null, by cbv, rfl⟩⟩⟩
  · rcases (hreads _ [size, id] hboth (by cbv)).2 (by simp) with hread | ⟨f, hf, -⟩
    · exact hread
    · rw [hf] at hok
      cases hok
  · rcases (hfaults _ [size, odd] hodd (by cbv)).2 (by simp) with ⟨fs, hfs, -⟩ | hread
    · rw [hfs] at hfault
      cases hfault
    · exact hread

/-- A record can be there and count as missing: one of which the response shows no field. -/
theorem get_misses_bare_record :
    ¬ ∀ (t : Table) (key params : Value) (s : Session),
      (t.perform (.get key params) s).1 = .error .notFound ↔
        ∃ response, t.Returns (.get key params) s response ∧
          (response.get? "Item" = none ∨ response.get? "Item" = some .null) := by
  intro h
  let t : Table := ⟨"records", ⟨false, false, false⟩, ⟨fun _ => none, fun _ => ""⟩, "accountId"⟩
  let key : Value := .map [(.text "id", .text "k")]
  let bare : Fields := [(.text "Item", .map [])]
  let s := Session.start [⟨"get_item", .null, .response (.map bare)⟩]
  have hreturns : t.Returns (.get key .null) s bare := returns_iff.mpr ⟨_, _, rfl, by cbv⟩
  have hmissing : (t.perform (.get key .null) s).1 = .error .notFound := by cbv
  obtain ⟨response, hother, hlacks⟩ := (h t key .null s).mp hmissing
  cases hreturns.unique hother
  have hitem : bare.get? "Item" = some (.map []) := by cbv
  rw [hitem] at hlacks
  rcases hlacks with hnone | hnull
  · cases hnone
  · cases hnull

end Table

end ItemStore
