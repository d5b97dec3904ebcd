import ItemStore.Proofs.Table.Calls

/-! Steps on their own.

A session carries three things from one operation to the next: the expectations that are left, what
was recorded, and how much was drawn. What was recorded is never read. What was drawn is not either,
if the clock stands still and every new record brings its identifier along. So each step of a run
does what it does on a new session that holds only the expectation the step took. -/
namespace ItemStore

open Outcome

/-! ### What does not look at its state -/

namespace Outcome

variable {α β σ : Type} {R : σ → σ → Prop}

/-- From related states on a computation comes to the same, and leaves related states. -/
def Blind (R : σ → σ → Prop) (x : ExceptT Fault (StateM σ) α) : Prop :=
  ∀ p q, R p q → (x p).1 = (x q).1 ∧ R (x p).2 (x q).2

theorem Blind.pure (a : α) : Blind R (Pure.pure a) := fun _ _ h => ⟨rfl, h⟩

theorem Blind.lift (x : Except Fault α) : Blind R (liftM x : ExceptT Fault (StateM σ) α) :=
  fun _ _ h => ⟨rfl, h⟩

theorem Blind.bind {x : ExceptT Fault (StateM σ) α} {f : α → ExceptT Fault (StateM σ) β}
    (hx : Blind R x) (hf : ∀ a, Blind R (f a)) : Blind R (x >>= f) := by
  intro p q h
  have hbind (p : σ) : (x >>= f) p = ExceptT.bindCont f (x p).1 (x p).2 := rfl
  obtain ⟨hsame, hleft⟩ := hx p q h
  rw [hbind, hbind, hsame]
  cases (x q).1 with
  | error e => exact ⟨rfl, hleft⟩
  | ok a => exact hf a _ _ hleft

/-- A computation that asks for its state may do what the two states agree on. -/
theorem Blind.get_bind {f : σ → ExceptT Fault (StateM σ) α}
    (hf : ∀ p q, R p q → (f p p).1 = (f q q).1 ∧ R (f p p).2 (f q q).2) :
    Blind R (get >>= f) :=
  fun p q h => hf p q h

end Outcome

/-! ### Drawing from a clock that stands still -/

/-- A clock without a step stands still. -/
theorem Clock.reading?_of_still {c : Clock} (h : c.step = 0) (n m : Nat) :
    c.reading? n = c.reading? m := by
  simp [reading?, shownAt, h]

/-- A new record brings its identifier along where the schema manages identifiers. -/
def RecordWrite.BringsId (schema : Schema) : RecordWrite → Prop
  | .create _ id => schema.managesId = true → id.isTruthy = true
  | _ => True

namespace Lifecycle

variable {schema : Schema} {src : Sources}

/-- Any two states of the sources. -/
def AnyDraws (_ _ : Draws) : Prop := True

section Still
variable (hclock : ∀ n m, src.clock n = src.clock m)
include hclock

theorem blind_stamp : Blind AnyDraws src.stamp := by
  refine .get_bind fun p q h => ?_
  rw [hclock p.readings q.readings]
  cases (src.clock q.readings).bind Moment.timestamp? <;> exact ⟨rfl, trivial⟩

theorem blind_freshStamp : Blind AnyDraws (freshStamp schema src) := by
  unfold freshStamp
  split
  · exact .bind (blind_stamp hclock) fun _ => .pure _
  · exact .pure _

theorem blind_newStamps : Blind AnyDraws (newStamps schema src) := by
  unfold newStamps
  split
  · exact .bind (blind_stamp hclock) fun _ => .pure _
  · exact .pure _

omit hclock in
/-- No identifier is drawn for a record that brings one along. -/
theorem blind_newId {id : Value} (hid : schema.managesId = true → id.isTruthy = true) :
    Blind AnyDraws (newId schema src id) := by
  unfold newId
  split
  · next hmanages =>
    rw [if_pos (hid hmanages)]
    exact .pure _
  · exact .pure _

theorem blind_stampWrite {write : RecordWrite} (hid : write.BringsId schema) :
    Blind AnyDraws (stampWrite schema src write) := by
  cases write with
  | create item id =>
    refine .bind (.lift _) fun _ => .bind (blind_newId hid) fun _ => ?_
    exact .bind (blind_newStamps hclock) fun _ => .pure _
  | replace key item =>
    refine .bind (.lift _) fun _ => .bind (blind_freshStamp hclock) fun _ => ?_
    exact .bind (.lift _) fun _ => .pure _
  | update key attributes =>
    refine .bind (.lift _) fun _ => .bind (blind_freshStamp hclock) fun _ => ?_
    exact .bind (.lift _) fun _ => .pure _

end Still

end Lifecycle

/-! ### Preparation -/

/-- An operation that writes a new record brings its identifier along where the schema manages
identifiers. -/
def Operation.BringsId (schema : Schema) : Operation → Prop
  | .create _ id _ => schema.managesId = true → id.isTruthy = true
  | _ => True

namespace Table

/-- Progress that differs at most in what was drawn. -/
def SameContext (p q : Progress) : Prop := p.context = q.context

theorem blind_announce (context : Fields) : Blind SameContext (announce context) :=
  fun _ _ _ => ⟨rfl, rfl⟩

variable {t : Table} {op : Operation}

theorem blind_stamped (hclock : ∀ n m, t.sources.clock n = t.sources.clock m) {write : RecordWrite}
    (hid : write.BringsId t.schema) :
    Blind SameContext (draw (Lifecycle.stampWrite t.schema t.sources write)) :=
  fun p q h => ⟨(Lifecycle.blind_stampWrite hclock hid p.draws q.draws trivial).1, h⟩

theorem blind_prepare (hclock : ∀ n m, t.sources.clock n = t.sources.clock m)
    (hop : op.BringsId t.schema) : Blind SameContext (t.prepare op) := by
  cases op with
  | get key params =>
    refine .bind (.lift _) fun _ => .bind (blind_announce _) fun _ => ?_
    exact .bind (.lift _) fun _ => .bind (.lift _) fun _ => .pure _
  | query params =>
    refine .bind (.lift _) fun _ => .bind (blind_announce _) fun _ => ?_
    exact .bind (.lift _) fun _ => .pure _
  | scan params => exact .bind (blind_announce _) fun _ => .bind (.lift _) fun _ => .pure _
  | create item id params =>
    refine .bind (.lift _) fun _ => .bind (blind_stamped hclock hop) fun _ => ?_
    refine .bind (blind_announce _) fun _ => .bind (.lift _) fun _ => ?_
    exact .bind (.lift _) fun _ => .pure _
  | replace key item params =>
    refine .bind (.lift _) fun _ => .bind (.lift _) fun _ => .bind (blind_announce _) fun _ => ?_
    refine .bind (blind_stamped hclock trivial) fun _ => .bind (.lift _) fun _ => ?_
    exact .bind (.lift _) fun _ => .pure _
  | update key attributes params =>
    refine .bind (.lift _) fun _ => .bind (.lift _) fun _ => .bind (blind_announce _) fun _ => ?_
    refine .bind (blind_stamped hclock trivial) fun _ => .bind (.lift _) fun _ => ?_
    refine .bind (.lift _) fun _ => .bind (.lift _) fun _ => ?_
    exact .bind (.lift _) fun _ => .pure _
  | delete key params =>
    refine .bind (.lift _) fun _ => .bind (blind_announce _) fun _ => ?_
    exact .bind (.lift _) fun _ => .bind (.lift _) fun _ => .pure _
  | batchWrite requests account =>
    exact .bind (blind_announce _) fun _ => .bind (.lift _) fun _ => .pure _
  | listTables params => exact .bind (.lift _) fun _ => .pure _
  | createTable params => exact .bind (.lift _) fun _ => .pure _
  | deleteTable params => exact .bind (.lift _) fun _ => .pure _

end Table

/-! ### One call -/

/-- A call on a transport that holds only the expectation the call took. -/
theorem Transport.send_alone (transport : Transport) (m : Method) (req : Fields) :
    ∃ taken made, taken.length ≤ 1 ∧
      transport.pending = taken ++ (transport.send m req).2.pending ∧
      (transport.send m req).2.calls = transport.calls ++ made ∧
      (Transport.scripted taken).send m req = ((transport.send m req).1, ⟨[], made⟩) := by
  cases hreq : isCallable req with
  | false =>
    have hsend (transport : Transport) : transport.send m req = (.error .wrongType, transport) :=
      send_of_not_callable hreq
    rw [hsend]
    exact ⟨[], [], by decide, rfl, (List.append_nil _).symm, hsend _⟩
  | true =>
    rcases transport with ⟨_ | ⟨e, rest⟩, calls⟩
    · refine ⟨[], [⟨m, req⟩], by decide, ?_, ?_, ?_⟩ <;> simp [send, hreq, scripted]
    · refine ⟨[e], [⟨m, req⟩], le_rfl, ?_, ?_, ?_⟩ <;> simp [send, hreq, scripted]

/-! ### A step of a run -/

namespace Step

/-- The expectations that the step took. -/
def taken (x : Step) : List Expectation :=
  x.before.transport.pending.take
    (x.before.transport.pending.length - x.after.transport.pending.length)

/-- The operation of the step on a new session that holds what the step took and nothing else. -/
def alone (x : Step) (t : Table) : Except Fault Answer × Session :=
  t.perform x.operation (.start x.taken)

/-- The step took at most one expectation, answers as it does on its own, and adds to the calls and
the log what it adds on its own. -/
structure StandsAlone (x : Step) (t : Table) : Prop where
  taken : x.taken.length ≤ 1
  pending : x.before.transport.pending = x.taken ++ x.after.transport.pending
  answer : x.answer = (x.alone t).1
  calls : x.after.transport.calls = x.before.transport.calls ++ (x.alone t).2.transport.calls
  log : x.after.log = x.before.log ++ (x.alone t).2.log

theorem taken_eq {x : Step} {es : List Expectation}
    (h : x.before.transport.pending = es ++ x.after.transport.pending) : x.taken = es := by
  simp [taken, h]

/-- What a step took can be told from the session after it. -/
theorem StandsAlone.of_append {x : Step} {t : Table} {es : List Expectation}
    (hone : es.length ≤ 1) (hpending : x.before.transport.pending = es ++ x.after.transport.pending)
    (hanswer : x.answer = (t.perform x.operation (.start es)).1)
    (hcalls : x.after.transport.calls =
      x.before.transport.calls ++ (t.perform x.operation (.start es)).2.transport.calls)
    (hlog : x.after.log = x.before.log ++ (t.perform x.operation (.start es)).2.log) :
    x.StandsAlone t := by
  obtain rfl := taken_eq hpending
  exact ⟨hone, hpending, hanswer, hcalls, hlog⟩

end Step

/-! ### What an operation leaves behind -/

namespace Table

variable {t : Table} {op : Operation} {ops : List Operation}

/-- The answer to what came back of a call. -/
def settled (op : Operation) (p : Prepared) : Except Fault Fields → Except Fault Answer
  | .error f => .error (interpret op f)
  | .ok response => conclude op p.result response

/-- What is logged about what came back of a call. -/
def settledEntries (op : Operation) (p : Prepared) (context : Option Fields) :
    Except Fault Fields → List LogEntry
  | .error f => entriesAbout context (failureEntries op · f)
  | .ok response => entriesAbout context (replyEntries op · (conclude op p.result response))

/-- What is logged ahead of a call. -/
def announcedEntries (op : Operation) (context : Option Fields) : List LogEntry :=
  entriesAbout context fun c => [announced op c]

theorem perform_eq_of_error {s : Session} {f : Fault} {progress : Progress}
    (h : t.prepare op ⟨s.draws, none⟩ = (.error f, progress)) :
    t.perform op s = (.error f,
      ⟨s.transport, progress.draws, s.log ++ announcedEntries op progress.context⟩) := by
  rw [perform, h]
  rfl

theorem perform_eq_of_ok {s : Session} {p : Prepared} {progress : Progress}
    (h : t.prepare op ⟨s.draws, none⟩ = (.ok p, progress)) :
    t.perform op s = (settled op p (s.transport.send op.method p.request).1,
      ⟨(s.transport.send op.method p.request).2, progress.draws,
        s.log ++ announcedEntries op progress.context ++
          settledEntries op p progress.context (s.transport.send op.method p.request).1⟩) := by
  rw [perform, h]
  dsimp only
  rcases s.transport.send op.method p.request with ⟨f | response, transport⟩ <;> rfl

/-- What an operation does in a session it does on its own. -/
theorem perform_alone (hclock : ∀ n m, t.sources.clock n = t.sources.clock m)
    (hop : op.BringsId t.schema) (s : Session) :
    Step.StandsAlone ⟨op, s, (t.perform op s).1, (t.perform op s).2⟩ t := by
  obtain ⟨hsame, hcontext⟩ := blind_prepare hclock hop ⟨s.draws, none⟩ ⟨⟨0, 0⟩, none⟩ rfl
  rcases hp : t.prepare op ⟨s.draws, none⟩ with ⟨prepared, progress⟩
  rcases hq : t.prepare op ⟨⟨0, 0⟩, none⟩ with ⟨prepared', progress'⟩
  rw [hp, hq] at hsame hcontext
  obtain rfl : prepared = prepared' := hsame
  have hsaid : progress'.context = progress.context := Eq.symm hcontext
  cases prepared with
  | error f =>
    have halone := perform_eq_of_error (t := t) (s := .start []) hq
    rw [hsaid] at halone
    rw [perform_eq_of_error hp]
    have hnone : ([] : List Expectation).length ≤ 1 := Nat.zero_le 1
    refine .of_append hnone rfl ?_ ?_ ?_ <;> rw [halone]
    · exact (List.append_nil _).symm
    · rfl
  | ok p =>
    obtain ⟨taken, made, hone, hpending, hcalls, hsend⟩ :=
      s.transport.send_alone op.method p.request
    have halone := perform_eq_of_ok (t := t) (s := .start taken) hq
    rw [hsaid, show (Session.start taken).transport = .scripted taken from rfl, hsend] at halone
    rw [perform_eq_of_ok hp]
    refine .of_append hone hpending ?_ ?_ ?_ <;> rw [halone]
    · exact hcalls
    · exact List.append_assoc ..

/-! ### A run of steps -/

/-- The calls and the log of a run whose steps stand alone. -/
theorem performAll_appends {s : Session} (hsteps : ∀ x ∈ t.trace ops s, x.StandsAlone t) :
    (t.performAll ops s).2.transport.calls = s.transport.calls ++
        (t.trace ops s).flatMap (fun x => (x.alone t).2.transport.calls) ∧
      (t.performAll ops s).2.log = s.log ++ (t.trace ops s).flatMap fun x => (x.alone t).2.log := by
  induction ops generalizing s with
  | nil => simp [performAll, trace]
  | cons op ops ih =>
    obtain ⟨hstep, hrest⟩ := List.forall_mem_cons.mp hsteps
    obtain ⟨hcalls, hlog⟩ := ih hrest
    rw [trace, List.flatMap_cons, List.flatMap_cons, ← List.append_assoc, ← List.append_assoc,
      ← hstep.calls, ← hstep.log]
    exact ⟨hcalls, hlog⟩

/-- **Steps stand alone.** Let the clock stand still, and let every new record of a run bring its
identifier along where the schema manages identifiers. Then each step answers, calls and logs as it
does on a new session that holds only the expectation it took; and the calls and the log of the run
are those it began with, with what each step adds on its own behind them. -/
theorem steps_stand_alone (hclock : ∀ n m, t.sources.clock n = t.sources.clock m)
    (hops : ∀ op ∈ ops, op.BringsId t.schema) (s : Session) :
    (∀ x ∈ t.trace ops s, x.StandsAlone t) ∧
      (t.performAll ops s).1 = (t.trace ops s).map (fun x => (x.alone t).1) ∧
      (t.performAll ops s).2.transport.calls = s.transport.calls ++
        (t.trace ops s).flatMap (fun x => (x.alone t).2.transport.calls) ∧
      (t.performAll ops s).2.log = s.log ++ (t.trace ops s).flatMap fun x => (x.alone t).2.log := by
  have hsteps : ∀ x ∈ t.trace ops s, x.StandsAlone t :=
    forall_trace_of_mem (fun op hop s => perform_alone hclock (hops op hop) s) s
  refine ⟨hsteps, ?_, ?_⟩
  · rw [performAll_eq_trace]
    exact List.map_congr_left fun x hx => (hsteps x hx).answer
  · exact performAll_appends hsteps

/-- A refused update, a look-up that the service fails, and a new record. -/
theorem steps_stand_alone_mixed :
    let clock : Clock := ⟨0, none, 0⟩
    let t : Table := ⟨"records", ⟨true, false, true⟩, ⟨clock.reading?, fun _ => ""⟩, "account"⟩
    let ops : List Operation := [.update (.map []) (.map []) .null,
      .get (.map [(.text "id", .text "k")]) .null, .create (.map []) (.text "i") .null]
    let failure : ServiceError := ⟨"GetItem", some (Text.points "Throttled"), none, none⟩
    let s := Session.start
      [⟨"get_item", .null, .failure failure⟩, ⟨"put_item", .null, .response .null⟩]
    (∀ n m, t.sources.clock n = t.sources.clock m) ∧ (∀ op ∈ ops, op.BringsId t.schema) ∧
      (t.performAll ops s).2.transport.pending = [] ∧
      (∀ x ∈ t.trace ops s, x.StandsAlone t) ∧
      (t.performAll ops s).1 = (t.trace ops s).map (fun x => (x.alone t).1) ∧
      (t.performAll ops s).2.transport.calls = s.transport.calls ++
        (t.trace ops s).flatMap (fun x => (x.alone t).2.transport.calls) ∧
      (t.performAll ops s).2.log = s.log ++ (t.trace ops s).flatMap fun x => (x.alone t).2.log := by
  intro clock t ops failure s
  have hreading : t.sources.clock = clock.reading? := by dsimp only [t]
  have hclock : ∀ n m, t.sources.clock n = t.sources.clock m := by
    rw [hreading]
    exact Clock.reading?_of_still rfl
  have hops : ∀ op ∈ ops, op.BringsId t.schema := by
    simp [ops, Operation.BringsId, Value.isTruthy]
  have hpending : (t.performAll ops s).2.transport.pending = [] := by decide +kernel
  exact ⟨hclock, hops, hpending, steps_stand_alone hclock hops s⟩

end Table

end ItemStore
