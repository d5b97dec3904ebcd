import ItemStore.Proofs.Requests
import ItemStore.Proofs.Table.Prepared
import ItemStore.Proofs.Wire.Canonical

/-! Retrying what a batch left undone.

What the service leaves undone of a batch is handed to the caller off the wire. Passed to a batch
again, each request is put on the wire as the very same value: items and keys are canonical there,
and the key of a record is still well-formed once it has come off the wire. So a retry sends what
was left undone, in its order, and nothing else. -/
namespace ItemStore.Batch

open Outcome Wire

/-! ### Requests with one part -/

theorem mentions_single (name other : String) (v : Value) :
    (single name v).mentions (.text other) = .ok (name == other) := by
  show Except.ok (Fields.hasKey [(.text name, v)] (.text other)) = _
  rw [Fields.hasKey, List.any_cons, List.any_nil, Bool.or_false, Value.text_same]

theorem entry_single (name : String) (v : Value) : (single name v).entry name = .ok v := by
  rw [single, Value.entry, Fields.get?_cons, if_pos (by rw [Value.text_same, beq_self_eq_true])]

theorem mentions_single_self (name : String) (v : Value) :
    (single name v).mentions (.text name) = .ok true := by
  rw [mentions_single, beq_self_eq_true]

/-- A request to put an item, in wire form or off the wire. -/
def put (item : Fields) : Value := single "PutRequest" (single "Item" (.map item))

/-- A request to delete the record of a key. -/
def remove (key : Fields) : Value := single "DeleteRequest" (single "Key" (.map key))

theorem decodeRequest_put {ws item : Fields} (h : decodeFields ws = .ok item) :
    decodeRequest (put ws) = .ok (put item) := by
  have hitem : decodeItem (.map ws) = .ok item := h
  rw [decodeRequest, put, mentions_single_self, ok_bind, if_pos rfl, entry_single, ok_bind,
    entry_single, ok_bind, hitem, ok_bind]
  rfl

theorem decodeRequest_remove {ws key : Fields} (h : decodeFields ws = .ok key) :
    decodeRequest (remove ws) = .ok (remove key) := by
  have hkey : decodeItem (.map ws) = .ok key := h
  rw [decodeRequest, remove, mentions_single, ok_bind, if_neg (by decide), entry_single, ok_bind,
    entry_single, ok_bind, hkey, ok_bind]
  rfl

/-! ### Requests on the wire -/

/-- A request and what goes on the wire for it. -/
inductive RequestWire (op : Value) : Value → Prop
  | put {item ws : Fields} (h : Puts op (.map item)) (hws : encodeFields item = .ok ws) :
    RequestWire op (put ws)
  | remove {key ws : Fields} (h : Removes op (.map key)) (hkey : Key.validate (.map key) = .ok key)
    (hws : encodeFields key = .ok ws) : RequestWire op (remove ws)

/-- A request goes on the wire either to put an item or to delete the record of a key. -/
theorem encodeRequest_ok {op w : Value} : encodeRequest op = .ok w ↔ RequestWire op w := by
  constructor
  · intro h
    obtain ⟨isPut, hput, h⟩ := bind_ok.mp h
    split at h
    · next htrue =>
      simp only [bind_ok, pure_ok] at h
      obtain ⟨part, hpart, item, hitem, w', hw', rfl⟩ := h
      obtain ⟨fs, ws, rfl, hws, rfl⟩ := encodeItem_ok.mp hw'
      exact .put ⟨htrue ▸ hput, part, hpart, hitem⟩ hws
    · next hfalse =>
      obtain ⟨isRemove, hremove, h⟩ := bind_ok.mp h
      split at h
      · next htrue =>
        simp only [bind_ok, pure_ok] at h
        obtain ⟨part, hpart, v, hv, fs, hfs, w', hw', rfl⟩ := h
        obtain ⟨rfl, -⟩ := Key.validate_ok.mp hfs
        obtain ⟨_, ws, ⟨⟩, hws, rfl⟩ := encodeItem_ok.mp hw'
        exact .remove ⟨Bool.eq_false_iff.mpr hfalse ▸ hput, htrue ▸ hremove, part, hpart, hv⟩
          hfs hws
      · cases h
  · intro h
    cases h with
    | @put item ws h hws =>
      obtain ⟨part, hpart, hitem⟩ := h.entry
      have hencode := encodeItem_ok.mpr ⟨item, ws, rfl, hws, rfl⟩
      rw [encodeRequest, h.mentions, ok_bind, if_pos rfl, hpart, ok_bind, hitem, ok_bind, hencode]
      rfl
    | @remove key ws h hkey hws =>
      obtain ⟨part, hpart, hv⟩ := h.entry
      have hencode := encodeItem_ok.mpr ⟨key, ws, rfl, hws, rfl⟩
      rw [encodeRequest, h.puts, ok_bind, if_neg Bool.false_ne_true, h.mentions, ok_bind,
        if_pos rfl, hpart, ok_bind, hv, ok_bind, hkey, ok_bind, hencode]
      rfl

theorem encodeRequest_put {item ws : Fields} (h : encodeFields item = .ok ws) :
    encodeRequest (put item) = .ok (put ws) :=
  encodeRequest_ok.mpr (.put
    ⟨mentions_single_self .., _, entry_single .., entry_single ..⟩ h)

theorem encodeRequest_remove {key ws : Fields} (hkey : Key.validate (.map key) = .ok key)
    (h : encodeFields key = .ok ws) : encodeRequest (remove key) = .ok (remove ws) :=
  encodeRequest_ok.mpr (.remove
    ⟨mentions_single .., mentions_single_self .., _, entry_single .., entry_single ..⟩ hkey h)

/-! ### Keys off the wire -/

theorem decodeNumber_text_ok {s : String} {r : Value} (h : decodeNumber (.text s) = .ok r) :
    ∃ d, r = .decimal d := by
  rw [decodeNumber] at h
  cases hs : Decimal.acceptText s with
  | error signal =>
    rw [hs] at h
    cases h
  | ok d =>
    rw [hs] at h
    cases h
    exact ⟨d, rfl⟩

/-- A number that went on the wire is a decimal when it comes off. -/
theorem isKeyValue_number {d : Decimal} {w r : Value}
    (hw : (do return WireType.number.wrap (.text (← numberText d))) = Except.ok (ε := Fault) w)
    (hr : decodeValue w = .ok r) : Key.isKeyValue r = true := by
  rw [bind_ok] at hw
  obtain ⟨s, -, hw⟩ := hw
  cases hw
  rw [decodeValue, decode_wrap, readUnder, bind_ok] at hr
  obtain ⟨x, hx, hr⟩ := hr
  obtain ⟨e, rfl⟩ := decodeNumber_text_ok hx
  cases hr
  rfl

/-- A value that can stand in a key still can once it has come off the wire. -/
theorem isKeyValue_decodeValue {v w r : Value} (hv : Key.isKeyValue v = true)
    (hw : encodeValue v = .ok w) (hr : decodeValue w = .ok r) : Key.isKeyValue r = true := by
  have hsame : ∀ {v}, settle v = v → Travels v v → encodeValue v = .ok w → r = v.unwrap := by
    intro v hsettle htravels hw
    obtain ⟨w', hw', hv⟩ := htravels
    rw [encodeValue, hw'] at hw
    cases hw
    rw [decodeValue, hv] at hr
    cases hr
    rfl
  cases v with
  | text s =>
    rw [hsame rfl (travels_text rfl) hw]
    exact hv
  | torn t =>
    rw [hsame rfl (travels_text rfl) hw]
    rfl
  | int n => exact isKeyValue_number hw hr
  | decimal d => exact isKeyValue_number hw hr
  | bytes form data =>
    cases hw
    rw [decodeValue, decode_wrap] at hr
    cases hr
    rfl
  | _ => cases hv

/-- A key is well-formed again once it has come off the wire. -/
theorem validate_decodeFields {fs ws rs : Fields} (hfs : Key.validate (.map fs) = .ok fs)
    (hws : encodeFields fs = .ok ws) (hrs : decodeFields ws = .ok rs) :
    Key.validate (.map rs) = .ok rs := by
  obtain ⟨-, hne, hlength, hfault⟩ := Key.validate_ok.mp hfs
  have hencode := encodeFields_ok.mp hws
  have hdecode := decodeFields_ok.mp hrs
  have hlengths : rs.length = fs.length := by
    rw [← hdecode.length_eq, ← hencode.length_eq]
  refine Key.validate_ok.mpr ⟨rfl, ?_, ?_, ?_⟩
  · rw [← List.length_pos_iff] at hne ⊢
    omega
  · omega
  · intro r hr
    obtain ⟨w, hw, hkey, hwr⟩ := exists_of_mem_right hdecode r hr
    obtain ⟨e, he, hkey', hew⟩ := exists_of_mem_right hencode w hw
    have hfield := Key.fieldFault?_eq_none_iff.mp (hfault e he)
    rw [Key.fieldFault?_eq_none_iff, ← hkey, ← hkey']
    exact ⟨hfield.1, hfield.2.1, isKeyValue_decodeValue hfield.2.2 hew hwr⟩

/-! ### Off the wire and on again -/

/-- **One request.** What comes off the wire for a request goes back as it came. -/
theorem encodeRequest_decodeRequest {op w : Value} (hop : Native op)
    (hw : encodeRequest op = .ok w) :
    ∃ n, decodeRequest w = .ok n ∧ encodeRequest n = .ok w := by
  cases encodeRequest_ok.mp hw with
  | put h hws =>
    obtain ⟨part, hpart, hitem⟩ := h.entry
    obtain ⟨rs, hrs, hback⟩ := encodeFields_decodeFields ((hop.entry hpart).entry hitem).of_map hws
    exact ⟨put rs, decodeRequest_put hrs, encodeRequest_put hback⟩
  | remove h hkey hws =>
    obtain ⟨part, hpart, hv⟩ := h.entry
    obtain ⟨rs, hrs, hback⟩ := encodeFields_decodeFields ((hop.entry hpart).entry hv).of_map hws
    have hagain := validate_decodeFields hkey hws hrs
    exact ⟨remove rs, decodeRequest_remove hrs, encodeRequest_remove hagain hback⟩

/-- What is left undone of one table. -/
def decodeUndone (ops : Value) : Except Fault Value := do
  return .list (← (← ops.elements).mapM decodeRequest)

theorem decodeTables_ok {tables left : Fields} :
    decodeTables tables = .ok left ↔ List.Forall₂ (KeepsKey decodeUndone) tables left := by
  refine @entries_ok _ decodeUndone decodeTables rfl (fun name ops rest => ?_) tables left
  rw [decodeTables, decodeUndone]
  simp only [bind_assoc, pure_bind]

theorem decodeUndone_list {undone again : List Value} :
    decodeUndone (.list undone) = .ok (.list again) ↔
      List.Forall₂ (fun w n => decodeRequest w = .ok n) undone again := by
  rw [← mapM_ok, decodeUndone, bind_ok]
  constructor
  · intro h
    obtain ⟨ops, hops, h⟩ := h
    cases hops
    simp only [bind_ok, pure_ok] at h
    obtain ⟨ns, hns, h⟩ := h
    cases h
    exact hns
  · intro h
    refine ⟨undone, rfl, ?_⟩
    rw [h]
    rfl

/-- A batch goes on the wire request by request. -/
theorem encodeRequests_ok {requests w : Value} : encodeRequests requests = .ok w ↔
    ∃ ops wires, requests.elements = .ok ops ∧
      List.Forall₂ (fun op w => encodeRequest op = .ok w) ops wires ∧ w = .list wires := by
  simp only [encodeRequests, bind_ok, pure_ok, mapM_ok, exists_and_left, @eq_comm _ w]

/-- The response with what is left undone off the wire. -/
theorem decodeResponse_ok {response tables left : Fields}
    (hresponse : response.get? "UnprocessedItems" = some (.map tables)) (hne : tables ≠ [])
    (hleft : decodeTables tables = .ok left) :
    decodeResponse response = .ok (response.put "UnprocessedItems" (.map left)) := by
  have htruthy : (response.getD "UnprocessedItems").truthy? = some (.map tables) := by
    rw [Fields.getD, hresponse, Option.getD_some, Value.truthy?, if_pos]
    simpa [Value.isTruthy] using hne
  rw [decodeResponse, htruthy]
  show (do
    let undone ← decodeTables tables
    return response.put "UnprocessedItems" (.map undone)) = _
  rw [hleft]
  rfl

end ItemStore.Batch

namespace ItemStore.Table

open Batch Outcome Wire

/-! ### The request of a batch -/

/-- The requests for the table that the request of a batch carries, and no others. -/
def Carries (t : Table) (req : Fields) (wires : List Value) : Prop :=
  req.get? "RequestItems" = some (.map [(.text t.name, .list wires)])

/-- The requests for the table that a response leaves undone. What it leaves undone for other
tables can be read. -/
def Leaves (t : Table) (response : Fields) (undone : List Value) : Prop :=
  ∃ tables : Fields, response.get? "UnprocessedItems" = some (.map tables) ∧
    tables.get? t.name = some (.list undone) ∧
    ∀ e ∈ tables, e ≠ (.text t.name, .list undone) → ∃ ops, decodeUndone e.2 = .ok ops

/-- The requests for the table that an answer hands back to the caller. -/
def HandsBack (t : Table) (answer : Except Fault Answer) (again : List Value) : Prop :=
  ∃ fs tables : Fields, answer = .ok (.value (.map fs)) ∧
    fs.get? "UnprocessedItems" = some (.map tables) ∧ tables.get? t.name = some (.list again)

variable {t : Table} {s : Session}

/-- The request that carries requests in wire form. -/
def batchRequest (t : Table) (wires : List Value) : Fields :=
  [(.text "RequestItems", .map [(.text t.name, .list wires)]),
    (.text "ReturnConsumedCapacity", .text "INDEXES")]

theorem carries_batchRequest (wires : List Value) : t.Carries (t.batchRequest wires) wires := by
  rw [Carries, batchRequest, Fields.get?_cons, if_pos (by rw [Value.text_same]; rfl)]

theorem sends_batchWrite_iff {requests account : Value} {req : Fields} :
    t.Sends (.batchWrite requests account) s req ↔ ∃ ops wires, requests.elements = .ok ops ∧
      List.Forall₂ (fun op w => encodeRequest op = .ok w) ops wires ∧
      req = t.batchRequest wires := by
  rw [sends_iff]
  constructor
  · intro h
    obtain ⟨p, progress, hp, rfl, -⟩ := h
    obtain ⟨w, hw, rfl, -⟩ := prepare_batchWrite hp
    obtain ⟨ops, wires, hops, hwires, rfl⟩ := encodeRequests_ok.mp hw
    exact ⟨ops, wires, hops, hwires, rfl⟩
  · intro h
    obtain ⟨ops, wires, hops, hwires, rfl⟩ := h
    have hencode := encodeRequests_ok.mpr ⟨ops, wires, hops, hwires, rfl⟩
    refine ⟨⟨t.batchRequest wires, []⟩, ?_, ?_, rfl, rfl⟩
    · exact ⟨s.draws, some (t.context [] .null account)⟩
    · rw [prepare, run_bind]
      refine ⟨(), _, prepare_announce.mpr rfl, ?_⟩
      rw [run_bind]
      exact ⟨_, _, run_lift.mpr ⟨hencode, rfl⟩, run_pure.mpr ⟨rfl, rfl⟩⟩

theorem sends_batchWrite {requests : List Value} {account : Value} {req : Fields} :
    t.Sends (.batchWrite (.list requests) account) s req ↔
      ∃ wires, List.Forall₂ (fun op w => encodeRequest op = .ok w) requests wires ∧
        req = t.batchRequest wires := by
  rw [sends_batchWrite_iff]
  constructor
  · rintro ⟨_, wires, ⟨⟩, hwires, rfl⟩
    exact ⟨wires, hwires, rfl⟩
  · rintro ⟨wires, hwires, rfl⟩
    exact ⟨requests, wires, rfl, hwires, rfl⟩

/-! ### The retry -/

/-- What is handed back for requests that were on the wire. -/
theorem exists_again {requests wires undone : List Value}
    (hnative : ∀ op ∈ requests, Native op)
    (hwires : List.Forall₂ (fun op w => encodeRequest op = .ok w) requests wires)
    (hundone : undone ⊆ wires) :
    ∃ again, decodeUndone (.list undone) = .ok (.list again) ∧
      List.Forall₂ (fun n w => encodeRequest n = .ok w) again undone := by
  obtain ⟨again, hagain⟩ : ∃ again, List.Forall₂
      (fun w n => decodeRequest w = .ok n ∧ encodeRequest n = .ok w) undone again :=
    exists_forall₂ fun w hw => by
      obtain ⟨op, hop, hopw⟩ := exists_of_mem_right hwires w (hundone hw)
      exact encodeRequest_decodeRequest (hnative op hop) hopw
  refine ⟨again, decodeUndone_list.mpr (hagain.imp fun _ _ h => h.1), ?_⟩
  exact hagain.flip.imp fun _ _ h => h.2

/-- The answer to a response that leaves requests undone. -/
theorem handsBack_of_leaves {response result : Fields} {undone again : List Value}
    {requests account : Value} (hleaves : t.Leaves response undone)
    (hagain : decodeUndone (.list undone) = .ok (.list again)) :
    t.HandsBack (conclude (.batchWrite requests account) result response) again := by
  obtain ⟨tables, htables, hundone, hothers⟩ := hleaves
  have hfound : tables.getKey? (.text t.name) = some (.list undone) := hundone
  obtain ⟨left, hleft⟩ : ∃ left : Fields, List.Forall₂ (KeepsKey decodeUndone) tables left :=
    exists_forall₂ fun e he => by
      by_cases heq : e = (.text t.name, .list undone)
      · rw [heq]
        exact ⟨(.text t.name, .list again), rfl, hagain⟩
      · obtain ⟨ops, hops⟩ := hothers e he heq
        exact ⟨(e.1, ops), rfl, hops⟩
  have hne : tables ≠ [] := by
    intro hnil
    rw [hnil] at hfound
    cases hfound
  refine ⟨response.put "UnprocessedItems" (.map left), left, ?_, ?_, ?_⟩
  · rw [conclude, decodeResponse_ok htables hne (decodeTables_ok.mpr hleft)]
    rfl
  · rw [Fields.get?_put, if_pos rfl]
  · show left.getKey? (.text t.name) = _
    rw [getKey?_of_keepsKey hleft, hfound, Option.bind_some, hagain]
    rfl

/-- **The retry.** A batch that makes its call carries one request in wire form for each that was
passed, in order. Whichever of them the response leaves undone, they are handed back as requests,
and a batch of those carries just what was left undone, in any session. -/
theorem retry_resends {requests : List Value} {account : Value} {req : Fields}
    (hnative : ∀ op ∈ requests, Native op)
    (hsent : t.Sends (.batchWrite (.list requests) account) s req) :
    ∃ wires, t.Carries req wires ∧
      List.Forall₂ (fun op w => encodeRequest op = .ok w) requests wires ∧
      ∀ undone response, undone ⊆ wires →
        (s.transport.send .batchWriteItem req).1 = .ok response → t.Leaves response undone →
        ∃ again, t.HandsBack (t.perform (.batchWrite (.list requests) account) s).1 again ∧
          ∀ account' s', ∃ req', t.Sends (.batchWrite (.list again) account') s' req' ∧
            t.Carries req' undone := by
  obtain ⟨wires, hwires, rfl⟩ := sends_batchWrite.mp hsent
  refine ⟨wires, carries_batchRequest wires, hwires, ?_⟩
  intro undone response hundone hreply hleaves
  obtain ⟨again, hagain, hback⟩ := exists_again hnative hwires hundone
  obtain ⟨p, progress, hp, hreq, -⟩ := sends_iff.mp hsent
  refine ⟨again, ?_, ?_⟩
  · rw [(perform_of_prepared hp).2 response (hreq ▸ hreply)]
    exact handsBack_of_leaves hleaves hagain
  · intro account' s'
    exact ⟨t.batchRequest undone, sends_batchWrite.mpr ⟨undone, hback, rfl⟩,
      carries_batchRequest undone⟩

/-- Of two requests the first is left undone. Its tuple comes back as a list, and its frozen set as
a set. -/
theorem retry_resends_tuple :
    let t : Table := ⟨"records", ⟨false, false, true⟩, ⟨fun _ => none, fun _ => ""⟩, "accountId"⟩
    let item : Fields := [(.text "id", .text "a"),
      (.text "parts", .tuple [.decimal (.finite true 150 (-2)), .set true [.int 7]])]
    let stored : Fields := [(.text "id", WireType.text.wrap (.text "a")),
      (.text "parts", WireType.list.wrap (.list [WireType.number.wrap (.text "-1.50"),
        WireType.numberSet.wrap (.list [.text "7"])]))]
    let requests := [put item, remove [(.text "id", .int 7)]]
    let response : Fields :=
      [(.text "UnprocessedItems", .map [(.text "records", .list [put stored])])]
    let s := Session.start [⟨"batch_write_item", .null, .response (.map response)⟩]
    (∀ op ∈ requests, Native op) ∧ t.Leaves response [put stored] ∧
      ∃ req, t.Sends (.batchWrite (.list requests) .null) s req ∧
        (s.transport.send .batchWriteItem req).1 = .ok response ∧
        ∃ again, t.HandsBack (t.perform (.batchWrite (.list requests) .null) s).1 again ∧
          ∀ account' s', ∃ req', t.Sends (.batchWrite (.list again) account') s' req' ∧
            t.Carries req' [put stored] := by
  intro t item stored requests response s
  have hsingle {name : String} {v : Value} (h : Native v) : Native (single name v) :=
    .map (List.forall_mem_singleton.mpr h)
  have hset : Native (.set true [.int 7]) := by
    refine .set ?_ ?_ (List.pairwise_singleton _ _)
    · exact List.forall_mem_singleton.mpr (.scalar rfl)
    · exact List.forall_mem_singleton.mpr rfl
  have hparts : Native (.tuple [.decimal (.finite true 150 (-2)), .set true [.int 7]]) :=
    .tuple (List.forall_mem_cons.mpr ⟨.decimal rfl, List.forall_mem_singleton.mpr hset⟩)
  have hitem : Native (.map item) :=
    .map (List.forall_mem_cons.mpr ⟨.scalar rfl, List.forall_mem_singleton.mpr hparts⟩)
  have hkey : Native (.map [(.text "id", .int 7)]) :=
    .map (List.forall_mem_singleton.mpr (.scalar rfl))
  have hnative : ∀ op ∈ requests, Native op :=
    List.forall_mem_cons.mpr ⟨hsingle (hsingle hitem),
      List.forall_mem_singleton.mpr (hsingle (hsingle hkey))⟩
  have hleaves : t.Leaves response [put stored] := by
    refine ⟨[(.text "records", .list [put stored])], ?_, ?_, ?_⟩
    · simp [response, Fields.get?_cons, Value.text_same]
    · simp [t, Fields.get?_cons, Value.text_same]
    · simp [t]
  let other := remove [(.text "id", WireType.number.wrap (.text "7"))]
  have hwires : List.Forall₂ (fun op w => encodeRequest op = .ok w) requests
      [put stored, other] :=
    .cons (encodeRequest_put rfl) (.cons (encodeRequest_remove rfl rfl) .nil)
  have hsent : t.Sends (.batchWrite (.list requests) .null) s
      (t.batchRequest [put stored, other]) := sends_batchWrite.mpr ⟨_, hwires, rfl⟩
  have hreply : (s.transport.send .batchWriteItem (t.batchRequest [put stored, other])).1 =
      .ok response := rfl
  refine ⟨hnative, hleaves, _, hsent, hreply, ?_⟩
  obtain ⟨wires, hcarries, -, hretry⟩ := retry_resends hnative hsent
  refine hretry [put stored] response ?_ hreply hleaves
  rw [Carries, carries_batchRequest] at hcarries
  cases hcarries
  exact List.cons_subset.mpr ⟨List.mem_cons_self .., List.nil_subset _⟩

end ItemStore.Table
