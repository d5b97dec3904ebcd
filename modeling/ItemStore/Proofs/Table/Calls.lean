import ItemStore.Proofs.Table.Refusal
import ItemStore.Proofs.Table.Reply

/-! The calls of a run.

An operation makes one call, by its own method, or none, and none if it answers with a mistake of
the caller. A run of operations is looked at step by step, each with the sessions around it; what a
step keeps, the run keeps, so the calls of a run are in the order of its operations. -/
namespace ItemStore

open Outcome

/-! ### One operation -/

namespace Table

variable {t : Table} {op : Operation} {s : Session}

/-- An operation makes one call, by its method, or leaves the transport as it was. -/
theorem perform_after (t : Table) (op : Operation) (s : Session) :
    (t.perform op s).2.transport = s.transport ∨
      ∃ req, s.transport.After [⟨op.method, req⟩] (t.perform op s).2.transport := by
  rcases hp : t.prepare op ⟨s.draws, none⟩ with ⟨f | p, progress⟩
  · exact .inl (perform_of_error hp)
  · rw [(perform_of_prepared hp).1]
    cases hreq : isCallable p.request with
    | false => exact .inl (by rw [Transport.send_of_not_callable hreq])
    | true => exact .inr ⟨p.request, .send hreq⟩

/-- A fault of the data or of a caller is all that preparation can fail with. -/
theorem prepare_error_cases {p : Progress} {f : Fault} (h : (t.prepare op p).1 = .error f) :
    (∃ c, f = .caller c) ∨ f.isData = true := by
  rcases prepare_fails op f h with hrefused | ⟨rfl, -⟩ | ⟨rfl, -⟩
  · cases hrefused with
    | caller c => exact .inl ⟨c, rfl⟩
    | number => exact .inr rfl
    | shape hf => exact .inr (Fault.isData_of_isShape hf)
  · exact .inr rfl
  · exact .inr rfl

/-- A mistake of the caller is found before the call. -/
theorem prepare_of_caller {c : CallerFault} (h : (t.perform op s).1 = .error (.caller c)) :
    (t.prepare op ⟨s.draws, none⟩).1 = .error (.caller c) := by
  rcases perform_error_cases h with hprepare | ⟨p, -, hdata | ⟨hmissing, -⟩ | ⟨e, -, he⟩⟩
  · exact hprepare
  · cases hdata
  · cases hmissing
  · have hservice := isOfService_interpret op e
    rw [← he] at hservice
    cases hservice

theorem transport_of_caller {c : CallerFault} (h : (t.perform op s).1 = .error (.caller c)) :
    (t.perform op s).2.transport = s.transport := by
  rcases hp : t.prepare op ⟨s.draws, none⟩ with ⟨f | p, progress⟩
  · exact perform_of_error hp
  · have hprepare := prepare_of_caller h
    rw [hp] at hprepare
    cases hprepare

end Table

/-! ### A run of operations -/

/-- One operation of a run, with the session before it and the session after it. -/
structure Step where
  operation : Operation
  before : Session
  answer : Except Fault Answer
  after : Session

/-- The operation makes at most one call, by its method, and none for a mistake of the caller. -/
structure Step.OneCall (x : Step) : Prop where
  calls : x.after.transport = x.before.transport ∨
    ∃ req, x.before.transport.After [⟨x.operation.method, req⟩] x.after.transport
  refused : ∀ c, x.answer = .error (.caller c) → x.after.transport = x.before.transport

namespace Table

/-- The steps of a run. -/
def trace (t : Table) : List Operation → Session → List Step
  | [], _ => []
  | op :: ops, s =>
    ⟨op, s, (t.perform op s).1, (t.perform op s).2⟩ :: t.trace ops (t.perform op s).2

/-- A run gives the answers of its steps, and leaves the session of its last. -/
theorem performAll_eq_trace (t : Table) (ops : List Operation) (s : Session) :
    t.performAll ops s = ((t.trace ops s).map Step.answer,
      (((t.trace ops s).getLast?).map Step.after).getD s) := by
  induction ops generalizing s with
  | nil => rfl
  | cons op ops ih =>
    rw [performAll]
    dsimp only
    rw [ih, trace]
    cases t.trace ops (t.perform op s).2 <;> rfl

theorem trace_operations (t : Table) (ops : List Operation) (s : Session) :
    (t.trace ops s).map Step.operation = ops := by
  induction ops generalizing s with
  | nil => rfl
  | cons op ops ih => rw [trace, List.map_cons, ih]

/-- What the operations of a run do in every session holds of each of its steps. -/
theorem forall_trace_of_mem {t : Table} {P : Step → Prop} {ops : List Operation}
    (h : ∀ op ∈ ops, ∀ s, P ⟨op, s, (t.perform op s).1, (t.perform op s).2⟩) (s : Session) :
    ∀ x ∈ t.trace ops s, P x := by
  induction ops generalizing s with
  | nil => exact List.forall_mem_nil _
  | cons op ops ih =>
    obtain ⟨hop, hops⟩ := List.forall_mem_cons.mp h
    exact List.forall_mem_cons.mpr ⟨hop s, ih hops _⟩

/-- What every operation does in every session holds of every step of a run. -/
theorem forall_trace {t : Table} {P : Step → Prop}
    (h : ∀ op s, P ⟨op, s, (t.perform op s).1, (t.perform op s).2⟩) (ops : List Operation)
    (s : Session) : ∀ x ∈ t.trace ops s, P x :=
  forall_trace_of_mem (fun op _ => h op) s

theorem perform_oneCall (t : Table) (op : Operation) (s : Session) :
    Step.OneCall ⟨op, s, (t.perform op s).1, (t.perform op s).2⟩ :=
  ⟨t.perform_after op s, fun _ => transport_of_caller⟩

/-- The calls of a run are those of its operations, in order, as far as they make one. -/
theorem performAll_after (t : Table) (ops : List Operation) (s : Session) :
    ∃ made, s.transport.After made (t.performAll ops s).2.transport ∧
      (made.map Call.method).Sublist (ops.map Operation.method) := by
  induction ops generalizing s with
  | nil => exact ⟨[], .refl _, .slnil⟩
  | cons op ops ih =>
    obtain ⟨made, hmade, hmethods⟩ := ih (t.perform op s).2
    rcases t.perform_after op s with hsame | ⟨req, hcall⟩
    · rw [hsame] at hmade
      exact ⟨made, hmade, hmethods.cons _⟩
    · exact ⟨⟨op.method, req⟩ :: made, hcall.trans hmade, hmethods.cons_cons _⟩

end Table

/-! ### Operations by name -/

/-- The name by which an operation is called. -/
def Operation.callName : Operation → String
  | .get .. => "get_item"
  | .query .. => "query"
  | .scan .. => "scan"
  | .create .. => "create_item"
  | .replace .. => "replace_item"
  | .update .. => "update_attributes"
  | .delete .. => "delete_item"
  | .batchWrite .. => "batch_write"
  | .listTables .. => "list_tables"
  | .createTable .. => "create_table"
  | .deleteTable .. => "delete_table"

/-- A name and arguments call an operation of that name, or none. -/
theorem Operation.callName_of_ofCall {name : String} {args : List Value} {op : Operation}
    (h : Operation.ofCall name args = .ok op) : op.callName = name := by
  unfold Operation.ofCall at h
  split at h <;> cases h <;> rfl

/-- The method by which an operation that is called by a name makes its call. -/
def Method.nameFor (call : String) : String :=
  match call with
  | "create_item" => "put_item"
  | "replace_item" => "put_item"
  | "update_attributes" => "update_item"
  | "batch_write" => "batch_write_item"
  | call => call

theorem Operation.name_method {name : String} {args : List Value} {op : Operation}
    (h : Operation.ofCall name args = .ok op) : op.method.name = Method.nameFor name := by
  rw [← Operation.callName_of_ofCall h]
  cases op <;> rfl

namespace Table

/-- **Calls.** Whatever operations run, with whatever arguments and replies, each makes at most one
call, by the method that belongs to it, and takes at most the first expectation for it; one that
answers with a mistake of the caller leaves the transport as it was. -/
theorem trace_oneCall (t : Table) (ops : List Operation) (s : Session) :
    t.performAll ops s = ((t.trace ops s).map Step.answer,
      (((t.trace ops s).getLast?).map Step.after).getD s) ∧
    (t.trace ops s).map Step.operation = ops ∧
    (∀ x ∈ t.trace ops s, x.OneCall) ∧
    (∃ made, s.transport.After made (t.performAll ops s).2.transport ∧
      (made.map Call.method).Sublist (ops.map Operation.method)) ∧
    ∀ name args op, Operation.ofCall name args = .ok op →
      op.method.name = Method.nameFor name := by
  refine ⟨?_, ?_, ?_, ?_, fun name args op => Operation.name_method⟩
  · exact t.performAll_eq_trace ops s
  · exact t.trace_operations ops s
  · exact forall_trace (t.perform_oneCall) ops s
  · exact t.performAll_after ops s

/-- An update under an empty key is refused; the record that is looked up after it still takes the
one expectation. -/
theorem trace_oneCall_refused :
    let t : Table := ⟨"records", ⟨false, false, true⟩, ⟨fun _ => none, fun _ => ""⟩, "accountId"⟩
    let key : Value := .map [(.text "id", .text "k")]
    let attributes : Value := .map [(.text "size", .int 3)]
    let ops : List Operation := [.update (.map []) attributes .null, .get key .null]
    let s := Session.start [⟨"get_item", .null, .response (.map [(.text "Item", .map [])])⟩]
    ∃ refused missing : Step, t.trace ops s = [refused, missing] ∧
      refused.answer = .error (.caller .keyShape) ∧ missing.answer = .error .notFound ∧
      refused.after.transport = refused.before.transport ∧ refused.OneCall ∧ missing.OneCall ∧
      (∃ made, s.transport.After made (t.performAll ops s).2.transport ∧
        (made.map Call.method).Sublist [.updateItem, .getItem]) ∧
      Operation.ofCall "update_attributes" [.map [], attributes] =
        .ok (.update (.map []) attributes .null) ∧
      (Operation.update (.map []) attributes .null).method.name = "update_item" := by
  intro t key attributes ops s
  obtain ⟨-, -, hsteps, hmade, hmethod⟩ := trace_oneCall t ops s
  have hcall : Operation.ofCall "update_attributes" [.map [], attributes] =
      .ok (.update (.map []) attributes .null) := rfl
  have hrefused : (t.perform (.update (.map []) attributes .null) s).1 =
      .error (.caller .keyShape) := by cbv
  have hfirst := hsteps _ (List.mem_cons_self ..)
  have hsecond := hsteps _ (List.mem_cons_of_mem _ (List.mem_cons_self ..))
  refine ⟨_, _, rfl, hrefused, ?_, hfirst.refused _ hrefused, hfirst, hsecond, hmade, hcall, ?_⟩
  · cbv
  · exact hmethod _ _ _ hcall

end Table

end ItemStore
