import ItemStore.Proofs.Table.Calls
import ItemStore.Transport.Failure

/-! Errors of the service, as callers see them.

An operation that interprets errors answers with a conflict if a condition did not hold, and with
an internal error that names the code otherwise; any other operation lets the error through. No
operation answers so unless its own call failed with that error, and none but a look-up misses a
record. -/
namespace ItemStore

open Outcome
open ItemStore.Text (Points points)

/-! ### Codes -/

/-- The code of a condition that did not hold. -/
def conditionFailed : Points := points "ConditionalCheckFailedException"

/-- The code that is reported: that of the error, or a name for an error without one. -/
def ServiceError.Reports (e : ServiceError) (code : Points) : Prop :=
  (e.code = some code ∧ code ≠ []) ∨
    (code = points "UnknownError" ∧ (e.code = none ∨ e.code = some []))

namespace Fault

theorem ofServiceError_eq (e : ServiceError) : ofServiceError e =
    if e.codeText = conditionFailed then .conflict e
    else .internal (if e.codeText = [] then points "UnknownError" else e.codeText) e := rfl

theorem codeText_eq_conditionFailed_iff {e : ServiceError} :
    e.codeText = conditionFailed ↔ e.code = some conditionFailed := by
  have hne : conditionFailed ≠ [] := by decide
  unfold ServiceError.codeText
  cases e.code with
  | none => simp [hne.symm]
  | some c => simp

theorem ofServiceError_eq_conflict_iff {e e' : ServiceError} :
    ofServiceError e = .conflict e' ↔ e = e' ∧ e.code = some conditionFailed := by
  rw [← codeText_eq_conditionFailed_iff, ofServiceError_eq]
  by_cases hc : e.codeText = conditionFailed
  · rw [if_pos hc]
    simp [hc]
  · rw [if_neg hc]
    simp [hc]

/-- The code of an internal error is what the error reports. -/
theorem reports_iff {e : ServiceError} {code : Points} :
    e.Reports code ↔ (if e.codeText = [] then points "UnknownError" else e.codeText) = code := by
  unfold ServiceError.Reports ServiceError.codeText
  cases hcode : e.code with
  | none => simp [eq_comm]
  | some c =>
    by_cases hempty : c = []
    · simp [hempty, eq_comm]
    · simp only [Option.some.injEq, hempty, reduceCtorEq, or_self, and_false, or_false,
        Option.getD_some, if_false, and_iff_left_iff_imp]
      exact fun h => h ▸ hempty

theorem ofServiceError_eq_internal_iff {e e' : ServiceError} {code : Points} :
    ofServiceError e = .internal code e' ↔
      e = e' ∧ e.code ≠ some conditionFailed ∧ e.Reports code := by
  rw [reports_iff, ne_eq, ← codeText_eq_conditionFailed_iff, ofServiceError_eq]
  by_cases hc : e.codeText = conditionFailed
  · rw [if_pos hc]
    simp [hc]
  · rw [if_neg hc]
    simp [hc, and_comm]

theorem ofServiceError_ne_service (e e' : ServiceError) : ofServiceError e ≠ .service e' := by
  unfold ofServiceError
  split
  · exact Fault.noConfusion
  · exact Fault.noConfusion

end Fault

namespace ServiceError

theorem fieldText?_ok {fs : Fields} {name : String} {found : Option Points}
    (h : fieldText? fs name = .ok found) : found = (fs.get? name).bind Value.shown? := by
  unfold fieldText? at h
  cases hv : fs.get? name with
  | none =>
    rw [hv] at h
    cases h
    rfl
  | some v =>
    rw [hv] at h
    obtain ⟨ps, hps, rfl⟩ := map_ok.mp h
    exact (Value.shown_ok_iff.mp hps).1.symm

/-- The code of an error is the text of what stands under `Error` and `Code` in its response. -/
theorem code_of_ofResponse {operation : String} {response : Value} {e : ServiceError}
    (h : ofResponse operation response = .ok e) :
    ∃ fs error : Fields, response = .map fs ∧ (fs.get? "Error").getD (.map []) = .map error ∧
      e.code = (error.get? "Code").bind Value.shown? := by
  simp only [ofResponse, bind_ok, pure_ok] at h
  obtain ⟨retries, -, fs, hfs, error, herror, code, hcode, message, -, rfl⟩ := h
  exact ⟨fs, error, Value.eq_map_of_fields hfs, Value.eq_map_of_fields herror, fieldText?_ok hcode⟩

end ServiceError

/-! ### Operations whose call fails -/

namespace Table

variable {t : Table} {op : Operation} {s : Session} {f : Fault}

/-- The operation makes its call, and the service answers with an error. -/
def CallFails (t : Table) (op : Operation) (s : Session) (e : ServiceError) : Prop :=
  ∃ req, t.Sends op s req ∧ (s.transport.send op.method req).1 = .error (.service e)

theorem callFails_iff {e : ServiceError} : t.CallFails op s e ↔
    ∃ p, (t.prepare op ⟨s.draws, none⟩).1 = .ok p ∧
      (s.transport.send op.method p.request).1 = .error (.service e) := by
  constructor
  · intro h
    obtain ⟨req, hsent, hfail⟩ := h
    obtain ⟨p, progress, hp, rfl, -⟩ := sends_iff.mp hsent
    exact ⟨p, congrArg Prod.fst hp, hfail⟩
  · intro h
    obtain ⟨p, hp, hfail⟩ := h
    have hcallable : isCallable p.request = true :=
      Transport.isCallable_of_send (by rw [hfail]; exact nofun)
    exact ⟨p.request, sends_iff.mpr ⟨p, _, Prod.ext hp rfl, rfl, hcallable⟩, hfail⟩

/-- An operation answers with an error of the service exactly if its own call failed with it. -/
theorem perform_ofService_iff (hf : f.isOfService = true) : (t.perform op s).1 = .error f ↔
    ∃ e, t.CallFails op s e ∧ interpret op (.service e) = f := by
  constructor
  · intro h
    rcases perform_error_cases h with hprepare | ⟨p, hp, hdata | ⟨rfl, -⟩ | ⟨e, he, rfl⟩⟩
    · rcases prepare_error_cases hprepare with ⟨c, rfl⟩ | hdata
      · cases hf
      · simp [Fault.not_isData_of_isOfService hf] at hdata
    · simp [Fault.not_isData_of_isOfService hf] at hdata
    · cases hf
    · exact ⟨e, callFails_iff.mpr ⟨p, hp, he⟩, rfl⟩
  · intro h
    obtain ⟨e, hfails, rfl⟩ := h
    obtain ⟨p, hp, he⟩ := callFails_iff.mp hfails
    exact perform_error_iff.mpr (.inr ⟨p, hp, .inl ⟨.service e, he, rfl⟩⟩)

theorem CallFails.sends {e : ServiceError} (h : t.CallFails op s e) : ∃ req, t.Sends op s req := by
  obtain ⟨req, hsent, -⟩ := h
  exact ⟨req, hsent⟩

theorem callFails_of_prepared {p : Prepared} {q : Progress} {e : ServiceError}
    (hp : t.prepare op ⟨s.draws, none⟩ = (.ok p, q)) :
    t.CallFails op s e ↔ (s.transport.send op.method p.request).1 = .error (.service e) := by
  rw [callFails_iff]
  constructor
  · intro h
    obtain ⟨p', hp', hfail⟩ := h
    rw [hp] at hp'
    cases hp'
    exact hfail
  · exact fun h => ⟨p, congrArg Prod.fst hp, h⟩

theorem CallFails.unique {e e' : ServiceError} (h : t.CallFails op s e) (h' : t.CallFails op s e') :
    e = e' := by
  obtain ⟨p, hp, he⟩ := callFails_iff.mp h
  rw [callFails_of_prepared (Prod.ext hp rfl), he] at h'
  cases h'
  rfl

theorem CallFails.answer {e : ServiceError} (h : t.CallFails op s e) :
    (t.perform op s).1 = .error (interpret op (.service e)) :=
  (perform_ofService_iff (isOfService_interpret op e)).mpr ⟨e, h, rfl⟩

theorem CallFails.not_missed {e : ServiceError} (h : t.CallFails op s e) :
    (t.perform op s).1 ≠ .error .notFound := by
  intro hmissed
  have hservice := isOfService_interpret op e
  rw [← Except.error.inj (hmissed.symm.trans h.answer)] at hservice
  cases hservice

theorem perform_conflict_iff {e : ServiceError} : (t.perform op s).1 = .error (.conflict e) ↔
    op.interpretsErrors = true ∧ t.CallFails op s e ∧
      e.code = some conditionFailed := by
  rw [perform_ofService_iff rfl]
  cases hop : op.interpretsErrors with
  | false => simp [interpret_service, hop]
  | true => simp [interpret_service, hop, Fault.ofServiceError_eq_conflict_iff]

theorem perform_internal_iff {e : ServiceError} {code : Points} :
    (t.perform op s).1 = .error (.internal code e) ↔
      op.interpretsErrors = true ∧ t.CallFails op s e ∧
        e.code ≠ some conditionFailed ∧ e.Reports code := by
  rw [perform_ofService_iff rfl]
  cases hop : op.interpretsErrors with
  | false => simp [interpret_service, hop]
  | true => simp [interpret_service, hop, Fault.ofServiceError_eq_internal_iff]

theorem perform_service_iff {e : ServiceError} : (t.perform op s).1 = .error (.service e) ↔
    op.interpretsErrors = false ∧ t.CallFails op s e := by
  rw [perform_ofService_iff rfl]
  cases hop : op.interpretsErrors with
  | false => simp [interpret_service, hop]
  | true => simp [interpret_service, hop, Fault.ofServiceError_ne_service]

/-- Only a look-up answers that there is no record. -/
theorem perform_notFound (h : (t.perform op s).1 = .error .notFound) :
    ∃ key params, op = .get key params := by
  rcases perform_error_cases h with hprepare | ⟨p, -, hdata | ⟨-, hop⟩ | ⟨e, -, he⟩⟩
  · rcases prepare_error_cases hprepare with ⟨c, hc⟩ | hdata
    · cases hc
    · cases hdata
  · cases hdata
  · exact hop
  · have hservice := isOfService_interpret op e
    rw [← he] at hservice
    cases hservice

end Table

/-! ### Operations by name -/

/-- The names of the operations that interpret errors. -/
def Operation.interpreting : List String :=
  ["get_item", "create_item", "replace_item", "update_attributes", "delete_item", "batch_write"]

theorem Operation.interpretsErrors_iff {name : String} {args : List Value} {op : Operation}
    (h : Operation.ofCall name args = .ok op) :
    op.interpretsErrors = true ↔ name ∈ Operation.interpreting := by
  rw [← Operation.callName_of_ofCall h]
  cases op <;> simp [Operation.interpretsErrors, Operation.callName, Operation.interpreting]

theorem Operation.isGet_iff {name : String} {args : List Value} {op : Operation}
    (h : Operation.ofCall name args = .ok op) :
    (∃ key params, op = .get key params) ↔ name = "get_item" := by
  rw [← Operation.callName_of_ofCall h]
  cases op <;> simp [Operation.callName]

namespace Table

/-- **Errors.** An operation that interprets errors answers with a conflict exactly if its call
failed with the code of a condition that did not hold, and with an internal error exactly if its
call failed otherwise; the others hand on the error of their call. Only a look-up misses a record.
The code of an error is the text in the response it describes. -/
theorem error_taxonomy (t : Table) (op : Operation) (s : Session) (e : ServiceError)
    (code : Points) :
    ((t.perform op s).1 = .error (.conflict e) ↔ op.interpretsErrors = true ∧
      t.CallFails op s e ∧ e.code = some conditionFailed) ∧
    ((t.perform op s).1 = .error (.internal code e) ↔ op.interpretsErrors = true ∧
      t.CallFails op s e ∧ e.code ≠ some conditionFailed ∧ e.Reports code) ∧
    ((t.perform op s).1 = .error (.service e) ↔
      op.interpretsErrors = false ∧ t.CallFails op s e) ∧
    ((t.perform op s).1 = .error .notFound → ∃ key params, op = .get key params) ∧
    (∀ name args, Operation.ofCall name args = .ok op →
      (op.interpretsErrors = true ↔ name ∈ Operation.interpreting) ∧
      ((∃ key params, op = .get key params) ↔ name = "get_item")) ∧
    ∀ operation response, ServiceError.ofResponse operation response = .ok e →
      ∃ fs error : Fields, response = .map fs ∧ (fs.get? "Error").getD (.map []) = .map error ∧
        e.code = (error.get? "Code").bind Value.shown? := by
  refine ⟨?_, ?_, ?_, ?_, fun name args h => ⟨?_, ?_⟩, fun operation response => ?_⟩
  · exact perform_conflict_iff
  · exact perform_internal_iff
  · exact perform_service_iff
  · exact perform_notFound
  · exact Operation.interpretsErrors_iff h
  · exact Operation.isGet_iff h
  · exact ServiceError.code_of_ofResponse

/-- A response without a code fails a deletion and a scan alike: to the one it is an internal error
of an unknown kind, and the other hands it on. -/
theorem error_taxonomy_no_code :
    let t : Table := ⟨"records", ⟨false, false, true⟩, ⟨fun _ => none, fun _ => ""⟩, "accountId"⟩
    let response : Value := .map [(.text "Error", .map [(.text "Message", .text "late")])]
    let e : ServiceError := ⟨"DeleteItem", none, some (points "late"), none⟩
    let remove : Operation := .delete (.map [(.text "id", .text "k")]) .null
    let look : Operation := .get (.map [(.text "id", .text "k")]) .null
    let s := Session.start [⟨"delete_item", .null, .failure e⟩]
    let s' := Session.start [⟨"scan", .null, .failure e⟩]
    let s'' := Session.start [⟨"get_item", .null, .response .null⟩]
    ServiceError.ofResponse "DeleteItem" response = .ok e ∧
      (∃ fs error : Fields, response = .map fs ∧ (fs.get? "Error").getD (.map []) = .map error ∧
        e.code = (error.get? "Code").bind Value.shown?) ∧
      t.CallFails remove s e ∧
      (t.perform remove s).1 = .error (.internal (points "UnknownError") e) ∧
      t.CallFails (.scan .null) s' e ∧ (t.perform (.scan .null) s').1 = .error (.service e) ∧
      (t.perform look s'').1 = .error .notFound ∧ (∃ key params, look = .get key params) ∧
      Operation.ofCall "scan" [] = .ok (.scan .null) ∧ "scan" ∉ Operation.interpreting := by
  intro t response e remove look s s' s''
  have hresponse : ServiceError.ofResponse "DeleteItem" response = .ok e := by cbv
  have hremove : t.CallFails remove s e := callFails_iff.mpr ⟨_, by cbv, by cbv⟩
  have hscan : t.CallFails (.scan .null) s' e := callFails_iff.mpr ⟨_, by cbv, by cbv⟩
  have hmissing : (t.perform look s'').1 = .error .notFound := by cbv
  have hname : Operation.ofCall "scan" [] = .ok (.scan .null) := rfl
  obtain ⟨-, hinternal, -, -, -, hcode⟩ := error_taxonomy t remove s e (points "UnknownError")
  obtain ⟨-, -, hservice, -, hnames, -⟩ := error_taxonomy t (.scan .null) s' e []
  obtain ⟨-, -, -, hnotFound, -, -⟩ := error_taxonomy t look s'' e []
  refine ⟨hresponse, hcode _ _ hresponse, hremove, ?_, hscan, ?_, hmissing, ?_, hname, ?_⟩
  · exact hinternal.mpr ⟨rfl, hremove, (Option.some_ne_none _).symm, .inr ⟨rfl, .inl rfl⟩⟩
  · exact hservice.mpr ⟨rfl, hscan⟩
  · exact hnotFound hmissing
  · exact fun h => Bool.false_ne_true ((hnames _ _ hname).1.mpr h)

end Table

end ItemStore
