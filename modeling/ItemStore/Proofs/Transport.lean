import ItemStore.Proofs.Matching
import ItemStore.Transport.Basic

/-! Calls on the transport.

Every call that can be made at all is recorded and takes the first expectation there is, whatever it
comes back with (`After`). So in a run of calls the nth is answered by the nth expectation, if there
is one. If no call of a run is reported as different and no expectation is left, each call met its
own: it was made by the expected method, its request matches, and it got the reply that was
scripted for it. Only where comparing the two came to no answer, the call came back with that. -/
namespace ItemStore

open Outcome

namespace Expectation

/-- Compares a request with the one that was expected. -/
def compare (e : Expectation) (m : Method) (req : Fields) : Except Fault Unit :=
  match e.expected with
  | .null => .ok ()
  | expected => do
    Matching.check (Text.points m.name) (.map (← expected.toFields)) (.map req)

/-- What is given for a request that is the expected one. -/
def given (e : Expectation) : Except Fault Fields :=
  match e.reply with
  | .failure err => throw (.service err)
  | .raised err => throw (.raised err)
  | .response v => v.toFieldsOrEmpty

theorem answer_eq (e : Expectation) (m : Method) (req : Fields) :
    e.answer m req =
      if e.method != m.name then .error (.mismatch (.wrongMethod e.method m.name))
      else e.compare m req >>= fun _ => e.given := by
  unfold answer compare given
  by_cases hm : e.method = m.name
  · simp only [hm, bne_self_eq_false, Bool.false_eq_true, if_false]
    cases e.reply
    all_goals
      cases e.expected with
      | null => rfl
      | _ => simp only [bind_assoc]
  · simp only [bne_iff_ne, ne_eq, hm, not_false_eq_true, if_true]
    cases e.reply <;> rfl

theorem compare_fails (e : Expectation) (m : Method) (req : Fields) :
    FailsAsData (e.compare m req) := by
  unfold compare
  split
  · exact .ok ()
  · exact .bind (Value.toFields_fails _).data fun _ _ =>
      (Matching.check_fails _ _ _).mono fun _ => Matching.IsVerdict.isData

/-- An expected call fails with an error of the service only if that is the reply to it. -/
theorem answer_fails (e : Expectation) (m : Method) (req : Fields) :
    FailsAs (fun f => f.isData = true ∨ ∃ err, f = .service err ∧ e.reply = .failure err)
      (e.answer m req) := by
  rw [answer_eq]
  refine .ite (.error (.inl rfl)) (.bind ((e.compare_fails m req).mono fun _ => .inl) fun _ _ => ?_)
  unfold given
  split
  · next err herr => exact .error (.inr ⟨err, rfl, herr⟩)
  · exact .error (.inl rfl)
  · exact (Value.toFieldsOrEmpty_fails _).data.mono fun _ => .inl

end Expectation

namespace Transport

variable {transport : Transport} {m : Method} {req : Fields}

theorem send_of_not_callable (hreq : isCallable req = false) :
    transport.send m req = (.error .wrongType, transport) := by
  rw [send, if_neg (by simp [hreq])]

/-- Whatever a call comes back with, it was made, unless that is a fault of type. -/
theorem isCallable_of_send (h : (transport.send m req).1 ≠ .error .wrongType) :
    isCallable req = true := by
  rw [← Bool.not_eq_false]
  intro hreq
  rw [send_of_not_callable hreq] at h
  exact h rfl

/-- A call fails for the data at hand, or with an error of the service. -/
theorem send_fails (transport : Transport) (m : Method) (req : Fields) :
    FailsAs (fun f => f.isData = true ∨ ∃ err, f = .service err) (transport.send m req).1 := by
  unfold send
  split
  · dsimp only
    split
    · exact .error (.inl rfl)
    · next e _ _ =>
      refine (e.answer_fails m req).mono fun f hf => hf.imp id ?_
      exact fun h => h.imp fun _ => And.left
  · exact .error (.inl rfl)

/-! ### The transport after some calls -/

/-- The transport has recorded some more calls, and each took the first expectation there was. -/
structure After (before : Transport) (made : List Call) (after : Transport) : Prop where
  calls : after.calls = before.calls ++ made
  pending : after.pending = before.pending.drop made.length

namespace After

theorem refl (transport : Transport) : After transport [] transport :=
  ⟨(List.append_nil _).symm, rfl⟩

theorem trans {before middle after : Transport} {made made' : List Call}
    (h : After before made middle) (h' : After middle made' after) :
    After before (made ++ made') after where
  calls := by rw [h'.calls, h.calls, List.append_assoc]
  pending := by rw [h'.pending, h.pending, List.drop_drop, List.length_append]

/-- A request that can be made a call is one call more. -/
theorem send (hreq : isCallable req = true) :
    After transport [⟨m, req⟩] (transport.send m req).2 := by
  rw [Transport.send, if_pos hreq]
  cases h : transport.pending with
  | nil => exact ⟨rfl, by rw [h]; rfl⟩
  | cons e rest => exact ⟨rfl, by rw [h]; rfl⟩

end After

end Transport

/-! ### A run of calls -/

/-- A call that was attempted, and what it came back with. -/
structure Exchange where
  call : Call
  outcome : Except Fault Fields

/-- Whether the call could be made at all. -/
def Exchange.isMade (x : Exchange) : Bool := isCallable x.call.request

/-- Whether the call was reported as one that was not expected. -/
def Exchange.IsReported (x : Exchange) : Prop := ∃ m, x.outcome = .error (.mismatch m)

/-- What a call comes back with if this expectation is there for it, or none. -/
def Call.answered (c : Call) : Option Expectation → Except Fault Fields
  | some e => e.answer c.method c.request
  | none => .error (.mismatch (.unexpected c.method.name))

namespace Transport

theorem send_outcome {transport : Transport} {c : Call} (hc : isCallable c.request = true) :
    (transport.send c.method c.request).1 = c.answered transport.pending[0]? := by
  rw [send, if_pos hc]
  cases transport.pending <;> rfl

/-- Attempts some calls, one after the other. -/
def exchanges (transport : Transport) : List Call → List Exchange × Transport
  | [] => ([], transport)
  | c :: cs =>
    let (outcome, next) := transport.send c.method c.request
    let (xs, last) := next.exchanges cs
    (⟨c, outcome⟩ :: xs, last)

/-- The calls of a run that were made. -/
def made (xs : List Exchange) : List Exchange := xs.filter Exchange.isMade

theorem exchanges_calls (transport : Transport) (cs : List Call) :
    (transport.exchanges cs).1.map Exchange.call = cs := by
  induction cs generalizing transport with
  | nil => rfl
  | cons c cs ih =>
    rw [exchanges, List.map_cons, ih]

/-- **The state of a run.** Just the calls that can be made are recorded, in order, and each takes
an expectation. -/
theorem exchanges_after (transport : Transport) (cs : List Call) :
    transport.After ((made (transport.exchanges cs).1).map Exchange.call)
      (transport.exchanges cs).2 := by
  induction cs generalizing transport with
  | nil => exact .refl _
  | cons c cs ih =>
    have hrest := ih (transport.send c.method c.request).2
    rw [exchanges, made, List.filter_cons, Exchange.isMade]
    cases hc : isCallable c.request with
    | true => exact (After.send hc).trans hrest
    | false =>
      rw [send_of_not_callable hc] at hrest ⊢
      exact hrest

/-- **The outcomes of a run.** The nth call that is made is answered by the nth expectation. -/
theorem exchanges_outcome (transport : Transport) (cs : List Call) (i : Nat) (x : Exchange)
    (hx : (made (transport.exchanges cs).1)[i]? = some x) :
    x.outcome = x.call.answered transport.pending[i]? := by
  induction cs generalizing transport i with
  | nil => cases hx
  | cons c cs ih =>
    rw [exchanges, made, List.filter_cons, Exchange.isMade] at hx
    cases hc : isCallable c.request with
    | true =>
      rw [if_pos hc] at hx
      cases i with
      | zero =>
        cases hx
        exact send_outcome hc
      | succ i =>
        have hafter : transport.After [c] (transport.send c.method c.request).2 := .send hc
        rw [ih _ i hx, hafter.pending, List.getElem?_drop, Nat.add_comm]
        rfl
    | false =>
      rw [if_neg (by simp [hc]), send_of_not_callable hc] at hx
      exact ih _ i hx

end Transport

/-! ### Calls that meet their expectations -/

namespace Expectation

/-- The expectation asks for a map or for nothing, and its reply is an error, a map or nothing. -/
structure IsPlain (e : Expectation) : Prop where
  expected : e.expected = .null ∨ ∃ es, e.expected = .map es
  reply : ∀ v, e.reply = .response v → v = .null ∨ ∃ fs, v = .map fs

/-- The request is one that the expectation asks for. -/
inductive Accepts (e : Expectation) (req : Fields) : Prop
  | anything (h : e.expected = .null)
  | request {es : Fields} (h : e.expected = .map es)
    (hmatches : Matching.Matches (.map es) (.map req))

/-- What the expectation gives to a call that meets it. -/
inductive Gives (e : Expectation) : Except Fault Fields → Prop
  | failure {err : ServiceError} (h : e.reply = .failure err) : Gives e (.error (.service err))
  | raised {err : Raised} (h : e.reply = .raised err) : Gives e (.error (.raised err))
  | nothing (h : e.reply = .response .null) : Gives e (.ok [])
  | response {fs : Fields} (h : e.reply = .response (.map fs)) : Gives e (.ok fs)

/-- The call is the expected one, and got the reply to it. -/
structure Met (e : Expectation) (x : Exchange) : Prop where
  method : e.method = x.call.method.name
  request : e.Accepts x.call.request
  outcome : e.Gives x.outcome

/-- The call is by the expected method, but comparing its request with the one asked for came to no
answer, and the call came back with that: either the two cannot be compared, and do not match, or
there is a value that could not be written out. -/
structure Undecided (e : Expectation) (x : Exchange) : Prop where
  method : e.method = x.call.method.name
  outcome : ∃ f, (f = .incomparable ∧ ¬ e.Accepts x.call.request ∨ Matching.IsUnwritten f) ∧
    e.compare x.call.method x.call.request = .error f ∧ x.outcome = .error f

variable {e : Expectation} {m : Method} {req : Fields}

theorem compare_map {es : Fields} (h : e.expected = .map es) :
    e.compare m req = Matching.check (Text.points m.name) (.map es) (.map req) := by
  rw [compare, h]
  rfl

theorem gives_given (h : e.IsPlain) : e.Gives e.given := by
  rw [given]
  cases hreply : e.reply with
  | failure err => exact .failure hreply
  | raised err => exact .raised hreply
  | response v =>
    rcases h.reply v hreply with rfl | ⟨fs, rfl⟩
    · exact .nothing hreply
    · dsimp only
      rw [Value.toFieldsOrEmpty_map]
      exact .response hreply

theorem accepts_of_compare (h : e.IsPlain) (hcompare : e.compare m req = .ok ()) :
    e.Accepts req := by
  rcases h.expected with hnull | ⟨es, hmap⟩
  · exact .anything hnull
  · rw [compare_map hmap] at hcompare
    exact .request hmap (Matching.matches_of_check hcompare)

theorem compare_verdict (h : e.IsPlain) : FailsAs Matching.IsVerdict (e.compare m req) := by
  rcases h.expected with hnull | ⟨es, hmap⟩
  · rw [compare, hnull]
    exact .ok ()
  · rw [compare_map hmap]
    exact Matching.check_fails _ _ _

/-- A request that the expectation asks for is not reported as different. -/
theorem compare_of_accepts (h : e.Accepts req) :
    FailsAs Matching.IsUnwritten (e.compare m req) := by
  cases h with
  | anything hnull =>
    rw [compare, hnull]
    exact .ok ()
  | request hmap hmatches =>
    rw [compare_map hmap]
    exact Matching.check_of_matches hmatches

/-- A comparison that came to no answer, and found no difference either. -/
theorem undecided_of_compare {f : Fault} (h : e.IsPlain) (hcompare : e.compare m req = .error f)
    (hsame : ∀ m, f ≠ .mismatch m) :
    f = .incomparable ∧ ¬ e.Accepts req ∨ Matching.IsUnwritten f := by
  rcases compare_verdict h f hcompare with hf | hf | ⟨m, hf⟩
  · refine .inl ⟨hf, fun haccepts => ?_⟩
    subst hf
    rcases compare_of_accepts haccepts _ hcompare with hf | hf
    all_goals cases hf
  · exact .inr hf
  · exact absurd hf (hsame m)

/-- A call that is not reported as different met its expectation, or was not decided. -/
theorem met_or_undecided {x : Exchange} (h : e.IsPlain)
    (hx : x.outcome = e.answer x.call.method x.call.request)
    (hsame : ¬ x.IsReported) : e.Met x ∨ e.Undecided x := by
  rw [answer_eq] at hx
  by_cases hm : e.method = x.call.method.name
  · rw [if_neg (by simpa using hm)] at hx
    cases hcompare : e.compare x.call.method x.call.request with
    | ok =>
      rw [hcompare] at hx
      exact .inl ⟨hm, accepts_of_compare h hcompare, hx ▸ gives_given h⟩
    | error f =>
      rw [hcompare] at hx
      have hf : ∀ m, f ≠ .mismatch m := fun m hf => hsame ⟨m, hf ▸ hx⟩
      exact .inr ⟨hm, f, undecided_of_compare h hcompare hf, hcompare, hx⟩
  · rw [if_pos (by simpa using hm)] at hx
    exact absurd ⟨_, hx⟩ hsame

end Expectation

namespace Transport

theorem pending_of_assertNonePending {transport : Transport}
    (h : transport.assertNonePending = .ok ()) : transport.pending = [] := by
  rw [assertNonePending] at h
  split at h
  · next hempty => exact List.isEmpty_iff.mp hempty
  · split at h <;> cases h

/-- **A run without complaint.** If nothing was reported as different and nothing is left, each
expectation was there for one call, in order, and the call met it or was not decided. -/
theorem meets_of_silent {transport : Transport} {cs : List Call}
    (hplain : ∀ e ∈ transport.pending, e.IsPlain)
    (hsame : ∀ x ∈ (transport.exchanges cs).1, ¬ x.IsReported)
    (hdone : (transport.exchanges cs).2.assertNonePending = .ok ()) :
    List.Forall₂ (fun e x => e.Met x ∨ e.Undecided x) transport.pending
      (made (transport.exchanges cs).1) := by
  have hleft := (exchanges_after transport cs).pending
  rw [pending_of_assertNonePending hdone, List.length_map] at hleft
  have hshort := List.drop_eq_nil_iff.mp hleft.symm
  have houtcome := exchanges_outcome transport cs
  have hmade : ∀ x ∈ made (transport.exchanges cs).1, ¬ x.IsReported :=
    fun x hx => hsame x (List.mem_of_mem_filter hx)
  generalize made (transport.exchanges cs).1 = xs at *
  refine List.forall₂_iff_get.mpr ⟨?_, fun i hi hx => ?_⟩
  · -- A call for which no expectation is there would have been reported.
    refine Nat.le_antisymm hshort (Nat.le_of_not_lt fun hlong => ?_)
    have hx := houtcome _ _ (List.getElem?_eq_getElem hlong)
    rw [List.getElem?_eq_none (Nat.le_refl _)] at hx
    exact hmade _ (List.getElem_mem hlong) ⟨_, hx⟩
  · have hxi := houtcome i _ (List.getElem?_eq_getElem hx)
    rw [List.getElem?_eq_getElem hi] at hxi
    rw [List.get_eq_getElem, List.get_eq_getElem]
    exact Expectation.met_or_undecided (hplain _ (List.getElem_mem hi)) hxi
      (hmade _ (List.getElem_mem hx))

/-- **Runs.** Whatever is attempted, and whatever comes of it, just the calls that could be made are
recorded, in order, each with the next expectation gone and answered by it; the requests of a method
are those of its calls. So if nothing was reported as different and nothing is left, there were as
many calls as expectations, and each call met its own, or comparing it came to no answer. -/
theorem run_as_scripted (script : List Expectation) (cs : List Call) :
    let run := (scripted script).exchanges cs
    run.1.map Exchange.call = cs ∧
    run.2.calls = (made run.1).map Exchange.call ∧
    (∀ name, run.2.requests name =
      (((made run.1).map Exchange.call).filter fun c => c.method.name == name).map Call.request) ∧
    run.2.pending = script.drop (made run.1).length ∧
    (∀ (i : Nat) (x : Exchange), (made run.1)[i]? = some x →
      x.outcome = x.call.answered script[i]?) ∧
    ((∀ e ∈ script, e.IsPlain) → (∀ x ∈ run.1, ¬ x.IsReported) →
      run.2.assertNonePending = .ok () →
      List.Forall₂ (fun e x => e.Met x ∨ e.Undecided x) script (made run.1)) := by
  intro run
  have hafter := exchanges_after (scripted script) cs
  have hcalls : run.2.calls = (made run.1).map Exchange.call :=
    hafter.calls.trans (List.nil_append _)
  refine ⟨exchanges_calls _ cs, hcalls, fun name => ?_, ?_, exchanges_outcome _ cs, ?_⟩
  · rw [requests, hcalls]
  · exact hafter.pending.trans (by rw [List.length_map]; rfl)
  · exact fun hplain => @meets_of_silent (scripted script) cs hplain

/-- Four attempts, of which the second cannot be made. A record is looked up; deleting another and
storing a third fail as scripted, the one with an error of the service and the other without. -/
theorem run_as_scripted_failing :
    let key : Value := .map [(.text "id", .map [(.text "S", .text "a")])]
    let throttled := ServiceError.ofCode "DeleteItem" "ThrottlingException" ""
    let late : Raised := ⟨"TimeoutError", Text.points "late", "TimeoutError('late')"⟩
    let script : List Expectation :=
      [⟨"get_item", .map [(.text "Key", key)], .response (.map [(.text "Item", key)])⟩,
        ⟨"delete_item", .null, .failure throttled⟩, ⟨"put_item", .null, .raised late⟩]
    let found : Call := ⟨.getItem, [(.text "TableName", .text "records"), (.text "Key", key)]⟩
    let deleted : Call := ⟨.deleteItem, [(.text "Key", key)]⟩
    let stored : Call := ⟨.putItem, [(.text "Item", key)]⟩
    let attempts := [found, ⟨.query, [(.int 7, .null)]⟩, deleted, stored]
    let run := (scripted script).exchanges attempts
    (∀ e ∈ script, e.IsPlain) ∧ (∀ x ∈ run.1, ¬ x.IsReported) ∧
      run.2.assertNonePending = .ok () ∧ run.2.calls = [found, deleted, stored] ∧
      List.Forall₂ (fun e x => e.Met x ∨ e.Undecided x) script (made run.1) := by
  intro key throttled late script found deleted stored attempts run
  have hplain : ∀ e ∈ script, e.IsPlain := by
    refine List.forall_mem_cons.mpr ⟨⟨.inr ⟨_, rfl⟩, ?_⟩, List.forall_mem_cons.mpr
      ⟨⟨.inl rfl, nofun⟩, List.forall_mem_singleton.mpr ⟨.inl rfl, nofun⟩⟩⟩
    rintro _ ⟨⟩
    exact .inr ⟨_, rfl⟩
  have hsame : ∀ x ∈ run.1, ¬ x.IsReported := by
    have houtcomes : run.1.map Exchange.outcome = [.ok [(.text "Item", key)],
        .error .wrongType, .error (.service throttled), .error (.raised late)] := by
      decide +kernel
    rintro x hx ⟨m, hm⟩
    have hmem := List.mem_map_of_mem (f := Exchange.outcome) hx
    rw [houtcomes, hm] at hmem
    simp at hmem
  have hdone : run.2.assertNonePending = .ok () := by decide +kernel
  obtain ⟨-, hcalls, -, -, -, hmeets⟩ := run_as_scripted script attempts
  exact ⟨hplain, hsame, hdone, hcalls, hmeets hplain hsame hdone⟩

/-- A call need not have met its expectation for nothing to be reported: a NaN that signals is not
compared with a number. -/
theorem silent_without_meeting :
    ¬ ∀ (script : List Expectation) (cs : List Call), (∀ e ∈ script, e.IsPlain) →
      (∀ x ∈ ((scripted script).exchanges cs).1, ¬ x.IsReported) →
      ((scripted script).exchanges cs).2.assertNonePending = .ok () →
      List.Forall₂ Expectation.Met script (made ((scripted script).exchanges cs).1) := by
  intro h
  let e : Expectation :=
    ⟨"put_item", .map [(.text "a", .decimal (.nan false true 0 none))], .response .null⟩
  let c : Call := ⟨.putItem, [(.text "a", .int 1)]⟩
  have houtcome : e.answer c.method c.request = .error .incomparable := by decide +kernel
  have hplain : ∀ e' ∈ [e], e'.IsPlain := by
    refine List.forall_mem_singleton.mpr ⟨.inr ⟨_, rfl⟩, ?_⟩
    rintro _ ⟨⟩
    exact .inl rfl
  have hrun : (scripted [e]).exchanges [c] = ([⟨c, .error .incomparable⟩], ⟨[], [c]⟩) := by
    rw [← houtcome]
    rfl
  have hmet := h [e] [c] hplain
  rw [hrun] at hmet
  obtain _ | ⟨hmet, -⟩ := hmet (by simp [Exchange.IsReported]) rfl
  cases hmet.outcome

end Transport

end ItemStore
