import ItemStore.Proofs.Table.Sent
import ItemStore.Proofs.Transport
import ItemStore.Proofs.Wire.Reading

/-! What a call comes back with.

After its call an operation fails with an error of the service, with a record that is not there, or
with a fault of the data in the reply. `perform_error_iff` says where each failed operation failed:
before its call, in it, or at the reply. -/
namespace ItemStore

open Outcome

/-! ### Replies that cannot be read -/

theorem Value.numeral_fails (cs : List Char) : FailsAsData (Value.numeral cs) := by
  unfold Value.numeral
  split
  · exact .ok _
  · exact .error rfl

theorem Value.wholePart_fails (d : Decimal) : FailsAsData (Value.wholePart d) := by
  unfold Value.wholePart
  split
  · exact .ok _
  · exact .error rfl
  · exact .error rfl

theorem Value.toInteger_fails (v : Value) : FailsAsData v.toInteger := by
  unfold Value.toInteger
  split
  · exact numeral_fails _
  · exact .error rfl
  · exact .ite (.error rfl) (.ite (numeral_fails _) (.error rfl))
  · split
    · exact wholePart_fails _
    · exact .error rfl

namespace Page

theorem countOf_fails (response : Fields) (name : String) (default : Nat) :
    FailsAsData (countOf response name default) := by
  unfold countOf
  split
  · exact .ok _
  · exact Value.toInteger_fails _

theorem itemsOf_fails (response : Fields) : FailsAsData (itemsOf response) := by
  unfold itemsOf
  split
  · exact .ok _
  · exact .bind (Value.elements_fails _).data fun xs _ =>
      .mapM fun x _ => Wire.decodeItem_fails x

theorem lastOf_fails (response : Fields) : FailsAsData (lastOf response) := by
  unfold lastOf
  split
  · exact .ok _
  · exact (Wire.decodeItem_fails _).map _

theorem ofResponse_fails (response : Fields) : FailsAsData (ofResponse response) :=
  .bind (itemsOf_fails response) fun _ _ => .bind (lastOf_fails response) fun _ _ =>
    .bind (countOf_fails _ _ _) fun _ _ => .bind (countOf_fails _ _ _) fun _ _ => .pure _

end Page

namespace Batch

theorem entry_fails (v : Value) (name : String) : FailsAsData (v.entry name) :=
  (v.entry_fails name).data

theorem decodeRequest_fails (op : Value) : FailsAsData (decodeRequest op) := by
  refine .bind (op.mentions_fails _).data fun isPut _ => ?_
  split
  · exact .bind (entry_fails op _) fun _ _ => .bind (entry_fails _ _) fun _ _ =>
      .bind (Wire.decodeItem_fails _) fun _ _ => .pure _
  · exact .bind (entry_fails op _) fun _ _ => .bind (entry_fails _ _) fun _ _ =>
      .bind (Wire.decodeItem_fails _) fun _ _ => .pure _

theorem decodeTables_fails (tables : Fields) : FailsAsData (decodeTables tables) := by
  induction tables with
  | nil => exact .ok _
  | cons e tables ih =>
    rw [decodeTables]
    exact .bind (Value.elements_fails _).data fun xs _ =>
      .bind (.mapM fun x _ => decodeRequest_fails x) fun _ _ => .bind ih fun _ _ => .pure _

theorem decodeResponse_fails (response : Fields) : FailsAsData (decodeResponse response) := by
  unfold decodeResponse
  split
  · exact .pure _
  · exact .bind (Value.fields_fails _).data fun fs _ =>
      .bind (decodeTables_fails fs) fun _ _ => .pure _

end Batch

/-! ### Operations that fail -/

namespace Table

variable {t : Table} {op : Operation} {s : Session} {f : Fault}

/-- A reply cannot be concluded for the data in it, or because it holds no record to get. -/
theorem conclude_fails (op : Operation) (result response : Fields) :
    FailsAs (fun f => f.isData = true ∨ f = .notFound ∧ ∃ key params, op = .get key params)
      (conclude op result response) := by
  unfold conclude
  split
  · next key params =>
    split
    · exact .error (.inr ⟨rfl, key, params, rfl⟩)
    · exact .bind ((Wire.decodeItem_fails _).mono fun _ => .inl) fun _ _ => .pure _
  · exact ((Page.ofResponse_fails response).mono fun _ => .inl).map _
  · exact ((Page.ofResponse_fails response).mono fun _ => .inl).map _
  · exact .ok _
  · exact .ok _
  · exact .ok _
  · split
    · exact .ok _
    · exact .bind ((Wire.decodeItem_fails _).mono fun _ => .inl) fun _ _ => .pure _
  · exact .bind ((Batch.decodeResponse_fails response).mono fun _ => .inl) fun _ _ => .pure _
  · exact .ok _
  · exact .ok _
  · exact .ok _

/-- **Where an operation fails.** It fails while it is prepared, or in its call, whose fault it
interprets, or as it concludes from the reply. -/
theorem perform_error_iff : (t.perform op s).1 = .error f ↔
    (t.prepare op ⟨s.draws, none⟩).1 = .error f ∨
    ∃ p, (t.prepare op ⟨s.draws, none⟩).1 = .ok p ∧
      ((∃ g, (s.transport.send op.method p.request).1 = .error g ∧ f = interpret op g) ∨
        ∃ response, (s.transport.send op.method p.request).1 = .ok response ∧
          conclude op p.result response = .error f) := by
  rw [perform]
  rcases t.prepare op ⟨s.draws, none⟩ with ⟨g | p, progress⟩
  · simp
  · dsimp only
    rcases hsend : s.transport.send op.method p.request with ⟨g | response, transport⟩
    · simp [hsend, eq_comm]
    · simp [hsend]

/-- An operation that answers has made its call, and concluded its answer from the response. -/
theorem sends_of_ok {answer : Answer} (h : (t.perform op s).1 = .ok answer) :
    ∃ p progress response, t.prepare op ⟨s.draws, none⟩ = (.ok p, progress) ∧
      t.Sends op s p.request ∧ conclude op p.result response = .ok answer := by
  rcases hp : t.prepare op ⟨s.draws, none⟩ with ⟨f | p, progress⟩
  · rw [perform, hp] at h
    cases h
  · rcases hsend : (s.transport.send op.method p.request).1 with f | response
    · have hfail := perform_error_iff (f := interpret op f).mpr
        (.inr ⟨p, congrArg Prod.fst hp, .inl ⟨f, hsend, rfl⟩⟩)
      rw [hfail] at h
      cases h
    · have hcallable : isCallable p.request = true := by
        rw [← Bool.not_eq_false]
        intro hreq
        rw [Transport.send_of_not_callable hreq] at hsend
        cases hsend
      rw [(perform_of_prepared hp).2 response hsend] at h
      exact ⟨p, progress, response, rfl, sends_iff.mpr ⟨p, progress, hp, rfl, hcallable⟩, h⟩

/-- A page is the answer of a query or of a scan. -/
theorem conclude_page {result response : Fields} {page : Page}
    (h : conclude op result response = .ok (.page page)) :
    ∃ params, op = .query params ∨ op = .scan params := by
  cases op with
  | query params => exact ⟨params, .inl rfl⟩
  | scan params => exact ⟨params, .inr rfl⟩
  | get | delete =>
    rw [conclude] at h
    split at h
    · cases h
    · obtain ⟨_, -, hvalue⟩ := bind_ok.mp h
      cases hvalue
  | batchWrite =>
    obtain ⟨_, -, hvalue⟩ := bind_ok.mp h
    cases hvalue
  | _ => cases h

theorem perform_page {page : Page} (h : (t.perform op s).1 = .ok (.page page)) :
    ∃ params, op = .query params ∨ op = .scan params := by
  obtain ⟨_, _, _, -, -, hconclude⟩ := sends_of_ok h
  exact conclude_page hconclude

theorem interpret_of_isData (hf : f.isData = true) : interpret op f = f := by
  cases f with
  | service e => cases hf
  | _ => rfl

/-- What an operation makes of an error of the service. -/
theorem interpret_service (op : Operation) (e : ServiceError) :
    interpret op (.service e) =
      if op.interpretsErrors then Fault.ofServiceError e else .service e := rfl

theorem isOfService_interpret (op : Operation) (e : ServiceError) :
    (interpret op (.service e)).isOfService = true := by
  rw [interpret_service, Fault.ofServiceError]
  split
  · split <;> rfl
  · rfl

/-- **What an operation fails with.** Beside the faults of its preparation there are those of the
data in the reply, a record that is not there, and what it makes of an error of the service. -/
theorem perform_error_cases (h : (t.perform op s).1 = .error f) :
    (t.prepare op ⟨s.draws, none⟩).1 = .error f ∨
    ∃ p, (t.prepare op ⟨s.draws, none⟩).1 = .ok p ∧
      (f.isData = true ∨ (f = .notFound ∧ ∃ key params, op = .get key params) ∨
        ∃ e, (s.transport.send op.method p.request).1 = .error (.service e) ∧
          f = interpret op (.service e)) := by
  rcases perform_error_iff.mp h with hprepare | ⟨p, hp, hsend | hconclude⟩
  · exact .inl hprepare
  · obtain ⟨g, hg, rfl⟩ := hsend
    refine .inr ⟨p, hp, ?_⟩
    rcases s.transport.send_fails op.method p.request g hg with hdata | ⟨e, rfl⟩
    · rw [interpret_of_isData hdata]
      exact .inl hdata
    · exact .inr (.inr ⟨e, hg, rfl⟩)
  · obtain ⟨response, -, hfail⟩ := hconclude
    refine .inr ⟨p, hp, ?_⟩
    rcases conclude_fails op p.result response f hfail with hdata | hmissing
    · exact .inl hdata
    · exact .inr (.inl hmissing)

end Table

end ItemStore
