import ItemStore.Proofs.Endpoint.Address
import ItemStore.Proofs.Table.Errors
import ItemStore.Proofs.Table.Lookup

/-! The status of a response, and the call behind it.

The status tells whether a call was made. A mistake is found before the call, whether in the event
itself or in what its operation is given, and so is a verb without an operation. Every other status
follows on one call, by the method of the verb. -/
namespace ItemStore

open Outcome

namespace Endpoint

/-! ### Verbs -/

/-- The method by which the operation of a verb makes its call. -/
def Verb.method : Verb → Method
  | .get => .getItem
  | .post => .putItem
  | .patch => .updateItem
  | .put => .putItem
  | .delete => .deleteItem

theorem method_operation (v : Verb) (account id : Value) (body : Fields) :
    (operation v account id body).method = v.method := by
  cases v <;> rfl

/-- The event has a verb with an operation. -/
def Asks (event : Value) (v : Verb) : Prop :=
  ∃ es verb, event = .map es ∧ verbOf es = .ok verb ∧ Verb.ofValue? verb = some v

/-- An event has one verb. -/
theorem Asks.unique {event : Value} {v v' : Verb} (h : Asks event v) (h' : Asks event v') :
    v = v' := by
  obtain ⟨es, verb, rfl, hverb, hv⟩ := h
  obtain ⟨_, verb', ⟨⟩, hverb', hv'⟩ := h'
  cases hverb.symm.trans hverb'
  exact Option.some.inj (hv.symm.trans hv')

/-! ### Statuses -/

/-- The statuses that follow on a call. -/
def calledStatuses : List Nat := [200, 201, 404, 409, 500]

variable {r : Response}

theorem status_of_respond {status : Nat} {body : Fields} (h : respond status body = .ok r) :
    r.status = status := by
  obtain ⟨text, -, h⟩ := bind_ok.mp h
  cases h
  rfl

theorem status_of_answer {v : Verb} {answer : Answer} (h : answerResponse v answer = .ok r) :
    r.status = 200 ∨ r.status = 201 := by
  unfold answerResponse at h
  dsimp only at h
  split at h
  · exact .inl (status_of_respond h)
  · exact .inr (status_of_respond h)
  · exact .inl (status_of_respond h)
  · exact .inl (status_of_respond h)
  · exact .inl (status_of_respond h)

theorem status_of_fault {f : Fault} (h : faultResponse f = .ok r) :
    ∃ kind, statusOf? f = some (r.status, kind) := by
  unfold faultResponse at h
  split at h
  · next status kind hstatus => exact ⟨kind, by rw [hstatus, status_of_respond h]⟩
  · cases h

/-- An event that is refused at once is a bad request. -/
theorem status_of_refused {event : Value} {status : Nat} {text : String}
    (h : Request.ofEvent event = .ok (.refused status text)) : status = 400 := by
  rw [Request.ofEvent] at h
  obtain ⟨_, -, h⟩ := bind_ok.mp h
  obtain ⟨_, -, h⟩ := bind_ok.mp h
  obtain ⟨_, -, h⟩ := bind_ok.mp h
  split at h
  · cases h
    rfl
  · obtain ⟨_, -, h⟩ := bind_ok.mp h
    obtain ⟨_, -, h⟩ := bind_ok.mp h
    dsimp only at h
    split at h
    · cases h
      rfl
    · cases h
  · cases h
    rfl

/-! ### Operations -/

variable {t : Table} {op : Operation} {v : Verb} {s : Session}

/-- **The status of an operation.** A bad request is refused before the call, and any other response
follows on the call. Only a look-up misses a record. -/
theorem status_of_operation (h : responseTo v (t.perform op s).1 = .ok r) :
    r.status = 400 ∧ (t.perform op s).2.transport = s.transport ∨
      r.status ∈ calledStatuses ∧ (∃ req, t.Sends op s req) ∧
        (r.status = 404 → ∃ key params, op = .get key params) := by
  rcases hanswer : (t.perform op s).1 with f | answer
  · rw [hanswer] at h
    obtain ⟨kind, hstatus⟩ := status_of_fault h
    cases f with
    | caller c =>
      have hstatus : 400 = r.status := congrArg Prod.fst (Option.some.inj hstatus)
      exact .inl ⟨hstatus.symm, Table.transport_of_caller hanswer⟩
    | notFound =>
      obtain ⟨hget, hsent⟩ := Table.sends_of_notFound hanswer
      have hstatus : 404 = r.status := congrArg Prod.fst (Option.some.inj hstatus)
      exact .inr ⟨by simp [calledStatuses, ← hstatus], hsent, fun _ => hget⟩
    | conflict e =>
      obtain ⟨-, hfails, -⟩ := Table.perform_conflict_iff.mp hanswer
      have hstatus : 409 = r.status := congrArg Prod.fst (Option.some.inj hstatus)
      exact .inr ⟨by simp [calledStatuses, ← hstatus], hfails.sends, by omega⟩
    | internal code e =>
      obtain ⟨-, hfails, -⟩ := Table.perform_internal_iff.mp hanswer
      have hstatus : 500 = r.status := congrArg Prod.fst (Option.some.inj hstatus)
      exact .inr ⟨by simp [calledStatuses, ← hstatus], hfails.sends, by omega⟩
    | _ => cases hstatus
  · rw [hanswer] at h
    obtain ⟨_, _, _, -, hsent, -⟩ := Table.sends_of_ok hanswer
    have hstatus := status_of_answer h
    exact .inr ⟨by rcases hstatus with hs | hs <;> simp [calledStatuses, hs], ⟨_, hsent⟩, by omega⟩

/-! ### Events -/

/-- What a response says of the calls that were made for it. -/
structure Agrees (event : Value) (answer : Except Fault Response) (made : List Call) : Prop where
  /-- A bad request, and a verb without an operation, lead to no call. -/
  refused : ∀ r, answer = .ok r → r.status = 400 ∨ r.status = 405 → made = []
  /-- Any other status follows on one call, by the method of the verb. -/
  called : ∀ r, answer = .ok r → r.status ∈ calledStatuses →
    ∃ v req, Asks event v ∧ made = [⟨v.method, req⟩]
  statuses : ∀ r, answer = .ok r → r.status = 400 ∨ r.status = 405 ∨ r.status ∈ calledStatuses
  missed : ∀ r, answer = .ok r → r.status = 404 → Asks event .get
  /-- Whether there is a response or not, what asks for no write does not write. -/
  read : Asks event .get → ∀ call ∈ made, call.method = .getItem
  unknown : (∀ v, ¬ Asks event v) → made = []

/-- A response that comes without a call is a bad request, or says that there is no such verb. -/
theorem Agrees.of_refusal {event : Value} {status : Nat} {text : Text.Points}
    (hstatus : status = 400 ∨ status = 405) : Agrees event (refusal status text) [] where
  refused _ _ _ := rfl
  called r hr hcalled := by
    rw [status_of_respond hr] at hcalled
    rcases hstatus with rfl | rfl <;> simp [calledStatuses] at hcalled
  statuses r hr := by
    rw [status_of_respond hr]
    exact hstatus.imp_right .inl
  missed r hr hmissed := by
    rw [status_of_respond hr] at hmissed
    omega
  read _ := List.forall_mem_nil _
  unknown _ := rfl

theorem Agrees.of_fault {event : Value} (f : Fault) : Agrees event (.error f) [] where
  refused := nofun
  called := nofun
  statuses := nofun
  missed := nofun
  read _ := List.forall_mem_nil _
  unknown _ := rfl

theorem eq_get_of_operation {account id key params : Value} {body : Fields}
    (h : operation v account id body = .get key params) : v = .get := by
  cases v with
  | get => rfl
  | _ => cases h

/-- The response to an operation agrees with the call that it makes. -/
theorem Agrees.of_operation {event account id : Value} {body : Fields} (t : Table) (s : Session)
    (hasks : Asks event v) :
    ∃ made, (t.perform (operation v account id body) s).2.transport.calls =
        s.transport.calls ++ made ∧
      Agrees event (responseTo v (t.perform (operation v account id body) s).1) made := by
  have hstatus {r : Response}
      (hr : responseTo v (t.perform (operation v account id body) s).1 = .ok r) :=
    status_of_operation hr
  have hstatuses : ∀ r, responseTo v (t.perform (operation v account id body) s).1 = .ok r →
      r.status = 400 ∨ r.status = 405 ∨ r.status ∈ calledStatuses := fun r hr =>
    (hstatus hr).imp And.left fun h => .inr h.1
  have hmissed : ∀ r, responseTo v (t.perform (operation v account id body) s).1 = .ok r →
      r.status = 404 → Asks event .get := by
    intro r hr h404
    rcases hstatus hr with ⟨h400, -⟩ | ⟨-, -, hget⟩
    · omega
    · obtain ⟨key, params, hop⟩ := hget h404
      exact eq_get_of_operation hop ▸ hasks
  rcases t.perform_after (operation v account id body) s with hsame | ⟨req, hafter⟩
  · refine ⟨[], by rw [hsame, List.append_nil], ?_⟩
    constructor
    case refused => exact fun _ _ _ => rfl
    case called =>
      intro r hr hcalled
      rcases hstatus hr with ⟨h400, -⟩ | ⟨-, ⟨req, hsent⟩, -⟩
      · simp [h400, calledStatuses] at hcalled
      · rw [Table.Sends, hsame] at hsent
        simp at hsent
    case statuses => exact hstatuses
    case missed => exact hmissed
    case read => exact fun _ => List.forall_mem_nil _
    case unknown => exact fun _ => rfl
  · refine ⟨_, hafter.calls, ?_⟩
    rw [method_operation]
    constructor
    case refused =>
      intro r hr hrefused
      rcases hstatus hr with ⟨-, hsame⟩ | ⟨hcalled, -⟩
      · have hcalls := hafter.calls
        rw [hsame] at hcalls
        simp at hcalls
      · rcases hrefused with h | h <;> simp [h, calledStatuses] at hcalled
    case called => exact fun r _ _ => ⟨v, req, hasks, rfl⟩
    case statuses => exact hstatuses
    case missed => exact hmissed
    case read =>
      intro hget
      rw [hasks.unique hget]
      exact List.forall_mem_singleton.mpr rfl
    case unknown => exact fun hnone => absurd hasks (hnone v)

/-- **Statuses and calls.** Whatever an event holds and whatever the service replies, a response
with the status of a bad request or of a verb without an operation comes without a call. A response
with another status follows on one call, by the method of the verb of the event, and says that a
record is missing only if the verb is the one that gets it. So an event that gets a record never
writes, and one with an unknown verb makes no call. -/
theorem status_agrees_with_call (setting : Option String) (sources : Sources) (event : Value)
    (s : Session) :
    ∃ made, (handle setting sources event s).2.transport.calls = s.transport.calls ++ made ∧
      Agrees event (handle setting sources event s).1 made := by
  have hhandled := handle_handled setting sources event s
  generalize handle setting sources event s = result at hhandled ⊢
  have hnone : s.transport.calls = s.transport.calls ++ [] := (List.append_nil _).symm
  cases hhandled with
  | failed f => exact ⟨[], hnone, .of_fault f⟩
  | refused hrequest => exact ⟨[], hnone, .of_refusal (.inl (status_of_refused hrequest))⟩
  | unsupported text => exact ⟨[], hnone, .of_refusal (.inr rfl)⟩
  | @performed t verb account id v body hrequest htable hv =>
    obtain ⟨es, rfl, hverb, -⟩ := ofEvent_record hrequest
    exact Agrees.of_operation t s ⟨es, verb, rfl, hverb, hv⟩

/-- A look-up of a record that is missing, a deletion that the service fails, and a verb in lower
case. -/
theorem status_agrees_with_call_three :
    let event (verb : String) : Value := .map [
      (.text "requestContext", .map [(.text "http", .map [(.text "method", .text verb)])]),
      (.text "queryStringParameters",
        .map [(.text "id", .text "k"), (.text "accountId", .text "a")])]
    let sources : Sources := ⟨fun _ => none, fun _ => ""⟩
    let failure : ServiceError := ⟨"DeleteItem", some (Text.points "Throttled"), none, none⟩
    let missing := Session.start [⟨"get_item", .null, .response .null⟩]
    let failing := Session.start [⟨"delete_item", .null, .failure failure⟩]
    let handled (verb : String) (s : Session) := handle (some "t") sources (event verb) s
    (∃ r req, (handled "GET" missing).1 = .ok r ∧ r.status = 404 ∧
      (handled "GET" missing).2.transport.calls = [⟨.getItem, req⟩]) ∧
    (∃ r req, (handled "DELETE" failing).1 = .ok r ∧ r.status = 500 ∧
      (handled "DELETE" failing).2.transport.calls = [⟨.deleteItem, req⟩]) ∧
    ∃ r, (handled "get" missing).1 = .ok r ∧ r.status = 405 ∧
      (handled "get" missing).2.transport.calls = [] := by
  intro event sources failure missing failing handled
  have hagrees (verb : String) (s : Session) :=
    status_agrees_with_call (some "t") sources (event verb) s
  have hget : (handled "GET" missing).1.map Response.status = .ok 404 := by decide +kernel
  have hdelete : (handled "DELETE" failing).1.map Response.status = .ok 500 := by decide +kernel
  have hlower : (handled "get" missing).1.map Response.status = .ok 405 := by decide +kernel
  refine ⟨?_, ?_, ?_⟩
  · obtain ⟨r, hr, hstatus⟩ := map_ok.mp hget
    obtain ⟨made, hcalls, hagrees⟩ := hagrees "GET" missing
    obtain ⟨v, req, hasks, rfl⟩ := hagrees.called r hr (by simp [hstatus, calledStatuses])
    rw [hasks.unique (hagrees.missed r hr hstatus)] at hcalls
    exact ⟨r, req, hr, hstatus, hcalls⟩
  · obtain ⟨r, hr, hstatus⟩ := map_ok.mp hdelete
    obtain ⟨made, hcalls, hagrees⟩ := hagrees "DELETE" failing
    obtain ⟨v, req, hasks, rfl⟩ := hagrees.called r hr (by simp [hstatus, calledStatuses])
    have hverb : Asks (event "DELETE") .delete := ⟨_, .text "DELETE", rfl, by decide +kernel, rfl⟩
    rw [hasks.unique hverb] at hcalls
    exact ⟨r, req, hr, hstatus, hcalls⟩
  · obtain ⟨r, hr, hstatus⟩ := map_ok.mp hlower
    obtain ⟨made, hcalls, hagrees⟩ := hagrees "get" missing
    rw [hagrees.refused r hr (.inr hstatus)] at hcalls
    exact ⟨r, hr, hstatus, hcalls⟩

end Endpoint

end ItemStore
