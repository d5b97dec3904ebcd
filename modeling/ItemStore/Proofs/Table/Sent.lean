import ItemStore.Proofs.Outcome
import ItemStore.Table.Perform

/-! What an operation sends.

An operation makes a call exactly if it can be prepared and its request can be made a call at all,
and then the request is the one it prepared: whatever the reply is, it comes later. Preparation
goes step by step; a step that only checks or computes leaves the progress as it is. -/
namespace ItemStore.Table

open Outcome

/-! ### Steps of a preparation -/

variable {p q : Progress}

theorem prepare_announce {context : Fields} {u : Unit} :
    announce context p = (.ok u, q) ↔ q = { p with context := some context } := by
  show (Except.ok (), { p with context := some context }) = (.ok u, q) ↔ _
  rw [Prod.mk.injEq, eq_comm (a := q)]
  exact and_iff_right rfl

theorem prepare_draw {α : Type} {x : Drawing α} {a : α} :
    draw x p = (.ok a, q) ↔ ∃ d, x p.draws = (.ok a, d) ∧ q = { p with draws := d } := by
  show ((x p.draws).1, { p with draws := (x p.draws).2 }) = (.ok a, q) ↔ _
  rw [Prod.mk.injEq]
  constructor
  · intro h
    obtain ⟨ha, hq⟩ := h
    exact ⟨_, Prod.ext ha rfl, hq.symm⟩
  · intro h
    obtain ⟨d, hd, hq⟩ := h
    rw [hd]
    exact ⟨rfl, hq.symm⟩

/-! ### The call -/

/-- The operation makes one call, by its method and with this request. -/
def Sends (t : Table) (op : Operation) (s : Session) (req : Fields) : Prop :=
  (t.perform op s).2.transport.calls = s.transport.calls ++ [⟨op.method, req⟩]

variable {t : Table} {op : Operation} {s : Session}

/-- One operation sends one request. -/
theorem Sends.unique {req req' : Fields} (h : t.Sends op s req) (h' : t.Sends op s req') :
    req = req' := by
  rw [Sends] at h h'
  rw [h] at h'
  simpa using h'

theorem send_calls (transport : Transport) (m : Method) (req : Fields) :
    (transport.send m req).2.calls =
      if isCallable req then transport.calls ++ [⟨m, req⟩] else transport.calls := by
  rw [Transport.send]
  split
  · cases transport.pending <;> rfl
  · rfl

/-- A reply is concluded from what was prepared; the calls are those of the transport. -/
theorem perform_of_prepared {p : Prepared} {progress : Progress}
    (h : t.prepare op ⟨s.draws, none⟩ = (.ok p, progress)) :
    (t.perform op s).2.transport = (s.transport.send op.method p.request).2 ∧
      ∀ response, (s.transport.send op.method p.request).1 = .ok response →
        (t.perform op s).1 = conclude op p.result response := by
  rw [perform, h]
  dsimp only
  rcases s.transport.send op.method p.request with ⟨f | response, transport⟩
  · refine ⟨rfl, ?_⟩
    intro response h
    cases h
  · refine ⟨rfl, ?_⟩
    intro response h
    cases h
    rfl

theorem perform_of_error {f : Fault} {progress : Progress}
    (h : t.prepare op ⟨s.draws, none⟩ = (.error f, progress)) :
    (t.perform op s).2.transport = s.transport := by
  rw [perform, h]

/-- **The request.** An operation sends the request it prepares, if that can be sent. -/
theorem sends_iff {req : Fields} : t.Sends op s req ↔
    ∃ p progress, t.prepare op ⟨s.draws, none⟩ = (.ok p, progress) ∧ p.request = req ∧
      isCallable req = true := by
  rw [Sends]
  constructor
  · intro h
    rcases hp : t.prepare op ⟨s.draws, none⟩ with ⟨f | p, progress⟩
    · rw [perform_of_error hp] at h
      simp at h
    · rw [(perform_of_prepared hp).1, send_calls] at h
      split at h
      · next hcallable =>
        have hreq : p.request = req := by simpa using h
        exact ⟨p, progress, rfl, hreq, hreq ▸ hcallable⟩
      · simp at h
  · intro h
    obtain ⟨p, progress, hp, rfl, hcallable⟩ := h
    rw [(perform_of_prepared hp).1, send_calls, if_pos hcallable]

theorem exists_sends {p : Prepared} {progress : Progress}
    (hp : t.prepare op ⟨s.draws, none⟩ = (.ok p, progress))
    (hcallable : isCallable p.request = true) : ∃ req, t.Sends op s req :=
  ⟨p.request, sends_iff.mpr ⟨p, progress, hp, rfl, hcallable⟩⟩

end ItemStore.Table
