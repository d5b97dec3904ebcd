import ItemStore.Proofs.Table.Alone
import ItemStore.Proofs.Table.Lookup
import ItemStore.Proofs.Table.Prepared

/-! The log of a run.

An operation on items announces what it is about before it makes its call: it has one entry in the
log by then, or none if its key or its record was refused. After the call comes at most one more,
for an error of the service, a record that is missing, or a page. The administration of tables logs
nothing. So the log of a run can be told from what its steps came to, and is never rewritten. -/
namespace ItemStore

open Outcome

/-! ### What an operation is about -/

namespace Operation

/-- An operation on items; the others administer tables. -/
def concernsItems : Operation → Bool
  | .listTables .. => false
  | .createTable .. => false
  | .deleteTable .. => false
  | _ => true

/-- The record that an operation writes, or the fields it writes in one. -/
def record? : Operation → Option Value
  | .create item _ _ => some item
  | .replace _ item _ => some item
  | .update _ attributes _ => some attributes
  | _ => none

/-- The key of the operation does not pass its check, or its record is no map. -/
def Misfits (op : Operation) : Prop :=
  (∃ key f, op.key? = some key ∧ Key.validate key = .error f) ∨
    ∃ v, op.record? = some v ∧ ∀ es, v ≠ .map es

end Operation

/-! ### Preparations that announce nothing -/

namespace Table

section Quiet
variable {α β : Type} {p : Progress}

/-- Nothing is announced from here on. -/
def Quiet (x : Preparing α) : Prop := ∀ p, (x p).2.context = p.context

theorem Quiet.pure (a : α) : Quiet (Pure.pure a) := fun _ => rfl

theorem Quiet.lift (x : Except Fault α) : Quiet (liftM x) := fun _ => rfl

theorem Quiet.draw (x : Drawing α) : Quiet (Table.draw x) := fun _ => rfl

theorem Quiet.bind {x : Preparing α} {f : α → Preparing β} (hx : Quiet x) (hf : ∀ a, Quiet (f a)) :
    Quiet (x >>= f) := by
  intro p
  have hbind : (x >>= f) p = ExceptT.bindCont f (x p).1 (x p).2 := rfl
  rw [hbind]
  cases (x p).1 with
  | error e => exact hx p
  | ok a => exact (hf a _).trans (hx p)

/-- From here on just this is announced. -/
def Says (A : Fields → Prop) (p : Progress) (x : Preparing α) : Prop :=
  ∀ c, (x p).2.context = some c ↔ A c

/-- What is announced last stays announced. -/
theorem Says.announce {c : Fields} {f : Unit → Preparing α} (hf : Quiet (f ())) :
    Says (c = ·) p (Table.announce c >>= f) := by
  intro c'
  have hlast : ((Table.announce c >>= f) p).2.context = some c := hf _
  rw [hlast, Option.some.injEq]

/-- A step that fails before anything is announced is the last. -/
theorem Says.lift {x : Except Fault α} {f : α → Preparing β} {A : α → Fields → Prop}
    (hp : p.context = none) (hf : ∀ a, Says (A a) p (f a)) :
    Says (fun c => ∃ a, x = .ok a ∧ A a c) p (liftM x >>= f) := by
  intro c
  cases x with
  | error e =>
    refine iff_of_false (fun h => Option.some_ne_none c (h.symm.trans hp)) ?_
    rintro ⟨_, ⟨⟩, -⟩
  | ok a =>
    refine (hf a c).trans ⟨fun h => ⟨a, rfl, h⟩, ?_⟩
    rintro ⟨_, ⟨⟩, h⟩
    exact h

theorem Says.draw {x : Drawing α} {f : α → Preparing β} {A : α → Fields → Prop}
    (hp : p.context = none) (hf : ∀ a d, Says (A a) { p with draws := d } (f a)) :
    Says (fun c => ∃ a d, x p.draws = (.ok a, d) ∧ A a c) p (Table.draw x >>= f) := by
  intro c
  have hbind : (Table.draw x >>= f) p =
      ExceptT.bindCont f (x p.draws).1 { p with draws := (x p.draws).2 } := rfl
  rw [hbind]
  rcases x p.draws with ⟨e | a, d⟩
  · refine iff_of_false (fun h => Option.some_ne_none c (h.symm.trans hp)) ?_
    rintro ⟨_, _, ⟨⟩, -⟩
  · refine (hf a d c).trans ⟨fun h => ⟨a, d, rfl, h⟩, ?_⟩
    rintro ⟨_, _, ⟨⟩, h⟩
    exact h

end Quiet

/-! ### What an operation announces -/

variable {t : Table} {op : Operation} {s : Session} {d : Draws} {c : Fields}

/-- The administration of tables announces nothing. -/
theorem prepare_context_of_administration (hop : op.concernsItems = false) :
    (t.prepare op ⟨d, none⟩).2.context = none := by
  have hquiet (x : Except Fault Fields) (f : Fields → Prepared) :
      Quiet (liftM x >>= fun req => (Pure.pure (f req) : Preparing Prepared)) :=
    .bind (.lift x) fun _ => .pure _
  cases op with
  | listTables params | createTable params | deleteTable params => exact hquiet _ _ _
  | _ => cases hop

/-- What an operation says it is about, with so much drawn before it. A key and a record have passed
their checks by then; what a batch holds is looked at later. -/
inductive Announces (t : Table) (d : Draws) : Operation → Fields → Prop
  | get {key : Value} {ks : Fields} (params : Value) (h : Key.validate key = .ok ks) :
    Announces t d (.get key params) (t.context ks .null .null)
  | query {params account : Value} (h : queriedAccount t.accountField params = .ok account) :
    Announces t d (.query params) (t.context [] .null account)
  | scan (params : Value) : Announces t d (.scan params) (t.context [] .null .null)
  | create {fs : Fields} {id : Value} {stamped : Stamped} {d' : Draws} (params : Value)
    (h : Lifecycle.stampWrite t.schema t.sources (.create (.map fs) id) d = (.ok stamped, d')) :
    Announces t d (.create (.map fs) id params)
      (t.context stamped.record ((stamped.record.get? "id").getD id) .null)
  | replace {key : Value} {ks : Fields} (fs : Fields) (params : Value)
    (h : Key.validate key = .ok ks) :
    Announces t d (.replace key (.map fs) params) (t.context ks .null .null)
  | update {key : Value} {ks : Fields} (fs : Fields) (params : Value)
    (h : Key.validate key = .ok ks) :
    Announces t d (.update key (.map fs) params) (t.context ks .null .null)
  | delete {key : Value} {ks : Fields} (params : Value) (h : Key.validate key = .ok ks) :
    Announces t d (.delete key params) (t.context ks .null .null)
  | batchWrite (requests account : Value) :
    Announces t d (.batchWrite requests account) (t.context [] .null account)

/-- **What is announced.** However far its preparation comes, an operation has announced what
`Announces` says, or nothing if that says nothing. -/
theorem prepare_context_iff :
    (t.prepare op ⟨d, none⟩).2.context = some c ↔ t.Announces d op c := by
  cases op with
  | get key params =>
    have hstates : Says (fun c => ∃ ks, Key.validate key = .ok ks ∧ t.context ks .null .null = c)
        ⟨d, none⟩ (t.prepare (.get key params)) :=
      .lift rfl fun _ => .announce (.bind (.lift _) fun _ => .bind (.lift _) fun _ => .pure _)
    refine (hstates c).trans ⟨?_, ?_⟩
    · rintro ⟨ks, hkey, rfl⟩
      exact .get params hkey
    · rintro ⟨⟩
      next hkey => exact ⟨_, hkey, rfl⟩
  | query params =>
    have hstates : Says (fun c => ∃ account, queriedAccount t.accountField params = .ok account ∧
        t.context [] .null account = c) ⟨d, none⟩ (t.prepare (.query params)) :=
      .lift rfl fun _ => .announce (.bind (.lift _) fun _ => .pure _)
    refine (hstates c).trans ⟨?_, ?_⟩
    · rintro ⟨account, haccount, rfl⟩
      exact .query haccount
    · rintro ⟨⟩
      next haccount => exact ⟨_, haccount, rfl⟩
  | scan params =>
    have hstates : Says (t.context [] .null .null = ·) ⟨d, none⟩ (t.prepare (.scan params)) :=
      .announce (.bind (.lift _) fun _ => .pure _)
    refine (hstates c).trans ⟨?_, ?_⟩
    · rintro rfl
      exact .scan params
    · rintro ⟨⟩
      rfl
  | create item id params =>
    have hstates : Says (fun c => ∃ u : Unit, requireMap item .itemShape = .ok u ∧ ∃ stamped d',
        Lifecycle.stampWrite t.schema t.sources (.create item id) d = (.ok stamped, d') ∧
        t.context stamped.record ((stamped.record.get? "id").getD id) .null = c)
        ⟨d, none⟩ (t.prepare (.create item id params)) :=
      .lift rfl fun _ => .draw rfl fun _ _ =>
        .announce (.bind (.lift _) fun _ => .bind (.lift _) fun _ => .pure _)
    refine (hstates c).trans ⟨?_, ?_⟩
    · rintro ⟨u, hmap, stamped, d', hstamped, rfl⟩
      obtain ⟨fs, rfl⟩ := requireMap_ok hmap
      exact .create params hstamped
    · rintro ⟨⟩
      next hstamped => exact ⟨(), rfl, _, _, hstamped, rfl⟩
  | replace key item params =>
    have hstates : Says (fun c => ∃ ks, Key.validate key = .ok ks ∧ ∃ u : Unit,
        requireMap item .itemShape = .ok u ∧ t.context ks .null .null = c)
        ⟨d, none⟩ (t.prepare (.replace key item params)) :=
      .lift rfl fun _ => .lift rfl fun _ => .announce (.bind (.draw _) fun _ =>
        .bind (.lift _) fun _ => .bind (.lift _) fun _ => .pure _)
    refine (hstates c).trans ⟨?_, ?_⟩
    · rintro ⟨ks, hkey, u, hmap, rfl⟩
      obtain ⟨fs, rfl⟩ := requireMap_ok hmap
      exact .replace fs params hkey
    · rintro ⟨⟩
      next hkey => exact ⟨_, hkey, (), rfl, rfl⟩
  | update key attributes params =>
    have hstates : Says (fun c => ∃ ks, Key.validate key = .ok ks ∧ ∃ u : Unit,
        requireMap attributes .attributesShape = .ok u ∧ t.context ks .null .null = c)
        ⟨d, none⟩ (t.prepare (.update key attributes params)) :=
      .lift rfl fun _ => .lift rfl fun _ => .announce (.bind (.draw _) fun _ =>
        .bind (.lift _) fun _ => .bind (.lift _) fun _ => .bind (.lift _) fun _ =>
        .bind (.lift _) fun _ => .pure _)
    refine (hstates c).trans ⟨?_, ?_⟩
    · rintro ⟨ks, hkey, u, hmap, rfl⟩
      obtain ⟨fs, rfl⟩ := requireMap_ok hmap
      exact .update fs params hkey
    · rintro ⟨⟩
      next hkey => exact ⟨_, hkey, (), rfl, rfl⟩
  | delete key params =>
    have hstates : Says (fun c => ∃ ks, Key.validate key = .ok ks ∧ t.context ks .null .null = c)
        ⟨d, none⟩ (t.prepare (.delete key params)) :=
      .lift rfl fun _ => .announce (.bind (.lift _) fun _ => .bind (.lift _) fun _ => .pure _)
    refine (hstates c).trans ⟨?_, ?_⟩
    · rintro ⟨ks, hkey, rfl⟩
      exact .delete params hkey
    · rintro ⟨⟩
      next hkey => exact ⟨_, hkey, rfl⟩
  | batchWrite requests account =>
    have hstates : Says (t.context [] .null account = ·) ⟨d, none⟩
        (t.prepare (.batchWrite requests account)) :=
      .announce (.bind (.lift _) fun _ => .pure _)
    refine (hstates c).trans ⟨?_, ?_⟩
    · rintro rfl
      exact .batchWrite requests account
    · rintro ⟨⟩
      rfl
  | listTables params | createTable params | deleteTable params =>
    refine iff_of_false (fun h => Option.some_ne_none c (h.symm.trans ?_)) nofun
    exact prepare_context_of_administration rfl

/-- What has come to its call has announced itself, unless it administers tables. -/
theorem announces_of_prepared {p : Prepared} {q : Progress}
    (h : t.prepare op ⟨d, none⟩ = (.ok p, q)) (hop : op.concernsItems = true) :
    ∃ c, q.context = some c ∧ t.Announces d op c := by
  have hcontext : ∃ c, q.context = some c := by
    cases op with
    | get key params =>
      obtain ⟨_, _, _, -, -, -, -, rfl⟩ := prepare_get h
      exact ⟨_, rfl⟩
    | query params =>
      obtain ⟨_, _, -, -, -, rfl⟩ := prepare_query h
      exact ⟨_, rfl⟩
    | scan params =>
      obtain ⟨_, -, -, rfl⟩ := prepare_scan h
      exact ⟨_, rfl⟩
    | create item id params =>
      obtain ⟨_, _, _, _, _, -, -, -, -, -, rfl⟩ := prepare_create h
      exact ⟨_, rfl⟩
    | replace key item params =>
      obtain ⟨_, _, _, _, _, _, -, -, -, -, -, -, rfl⟩ := prepare_replace h
      exact ⟨_, rfl⟩
    | update key attributes params =>
      obtain ⟨_, _, _, _, _, _, _, _, -, -, -, -, -, -, -, -, rfl⟩ := prepare_update h
      exact ⟨_, rfl⟩
    | delete key params =>
      obtain ⟨_, _, _, -, -, -, -, rfl⟩ := prepare_delete h
      exact ⟨_, rfl⟩
    | batchWrite requests account =>
      obtain ⟨_, -, -, rfl⟩ := prepare_batchWrite h
      exact ⟨_, rfl⟩
    | listTables | createTable | deleteTable => cases hop
  obtain ⟨c, hc⟩ := hcontext
  refine ⟨c, hc, prepare_context_iff.mp ?_⟩
  rw [h]
  exact hc

theorem Announces.concernsItems (h : t.Announces d op c) : op.concernsItems = true := by
  cases h <;> rfl

/-! ### Arguments that do not pass their check -/

theorem Announces.not_misfits (h : t.Announces d op c) : ¬ op.Misfits := by
  rintro (⟨key, f, hkey, hf⟩ | ⟨v, hv, hmap⟩)
  · cases h with
    | get _ hks | replace _ _ hks | update _ _ hks | delete _ hks =>
      cases hkey
      rw [hf] at hks
      cases hks
    | _ => cases hkey
  · cases h with
    | create | replace | update =>
      cases hv
      exact hmap _ rfl
    | _ => cases hv

/-- What an operation is refused with whose key or record does not pass: a mistake of the caller, or
a name in its key that cannot be written out. -/
def RefusedFor (op : Operation) (f : Fault) : Prop :=
  (∃ cause, f = .caller cause) ∨ NameFault (fun key => op.key? = some key) f

/-- Where a check fails, the preparation ends. -/
theorem prepare_of_refused {α : Type} {x : Except Fault α} {P : Fault → Prop} {f : Fault}
    {p : Progress} (hx : FailsAs P x) (hf : x = .error f) (g : α → Preparing Prepared) :
    ∃ f, P f ∧ ((liftM x >>= g : Preparing Prepared) p).1 = .error f := by
  refine ⟨f, hx f hf, ?_⟩
  rw [hf]
  rfl

theorem key_refused {key : Value} (h : op.key? = some key) :
    FailsAs (RefusedFor op) (Key.validate key) := by
  intro f hf
  rcases Key.validate_fails key f hf with hcaller | ⟨hmalformed, _, rfl, hname⟩
  · exact .inl hcaller
  · exact .inr ⟨hmalformed, _, h, hname⟩

theorem requireMap_refused (v : Value) (fault : CallerFault) :
    FailsAs (RefusedFor op) (requireMap v fault) :=
  (requireMap_fails v fault).mono fun _ => .inl

theorem requireMap_error {v : Value} (hv : ∀ es, v ≠ .map es) (fault : CallerFault) :
    requireMap v fault = .error (.caller fault) := by
  cases v with
  | map es => exact absurd rfl (hv es)
  | _ => rfl

/-- An operation whose key or record does not pass is refused for that. -/
theorem prepare_of_misfits (h : op.Misfits) {p : Progress} :
    ∃ f, RefusedFor op f ∧ (t.prepare op p).1 = .error f := by
  rcases h with ⟨key, f, hop, hf⟩ | ⟨v, hop, hv⟩
  · have hkey := key_refused hop
    cases op with
    | get | replace | update | delete =>
      cases hop
      exact prepare_of_refused hkey hf _
    | _ => cases hop
  · have hrecord (fault : CallerFault) := requireMap_error hv fault
    cases op with
    | create item id params =>
      cases hop
      exact prepare_of_refused (requireMap_refused v _) (hrecord _) _
    | replace key _ params | update key _ params =>
      cases hop
      -- The key is looked at first.
      cases hks : Key.validate key with
      | error f => exact prepare_of_refused (key_refused rfl) hks _
      | ok ks =>
        rw [prepare, hks]
        exact prepare_of_refused (requireMap_refused v _) (hrecord _) _
    | _ => cases hop

/-! ### Errors -/

/-- The call of the operation failed with an error of the service, or the record that it looked up
is missing; the text says so. -/
inductive Errs (t : Table) (op : Operation) (s : Session) : Text.Points → Prop
  | call {e : ServiceError} (h : t.CallFails op s e) : Errs t op s e.text
  | missed (h : (t.perform op s).1 = .error .notFound) : Errs t op s Fault.notFoundText

/-- There is one text to report. -/
theorem Errs.unique {text text' : Text.Points} (h : t.Errs op s text) (h' : t.Errs op s text') :
    text = text' := by
  cases h with
  | call hcall =>
    cases h' with
    | call hcall' => rw [hcall.unique hcall']
    | missed hmissed => exact absurd hmissed hcall.not_missed
  | missed hmissed =>
    cases h' with
    | call hcall => exact absurd hmissed hcall.not_missed
    | missed => rfl

theorem Errs.not_ok {text : Text.Points} {answer : Answer} (h : t.Errs op s text) :
    (t.perform op s).1 ≠ .ok answer := by
  intro hok
  cases h with
  | call hcall => cases hok.symm.trans hcall.answer
  | missed hmissed => cases hok.symm.trans hmissed

/-- Only an operation that makes its call has an error to report. -/
theorem Errs.sends {text : Text.Points} (h : t.Errs op s text) : ∃ req, t.Sends op s req := by
  cases h with
  | call hcall => exact hcall.sends
  | missed hmissed => exact (sends_of_notFound hmissed).2

/-! ### What one operation logs -/

/-- What is left to do with a request: the call, and what is concluded and logged after it. -/
def finish (op : Operation) (p : Prepared) (context : Option Fields) (s : Session) :
    Except Fault Answer × Session :=
  let (reply, transport) := s.transport.send op.method p.request
  (settled op p reply, ⟨transport, s.draws, s.log ++ settledEntries op p context reply⟩)

theorem perform_eq_finish {p : Prepared} {q : Progress}
    (h : t.prepare op ⟨s.draws, none⟩ = (.ok p, q)) :
    t.perform op s =
      finish op p q.context ⟨s.transport, q.draws, s.log ++ announcedEntries op q.context⟩ :=
  perform_eq_of_ok h

/-- What an operation adds to the log. -/
inductive Logs (t : Table) (op : Operation) (s : Session) : List LogEntry → Prop
  | nothing (h : op.concernsItems = true → ∀ c, ¬ t.Announces s.draws op c) : Logs t op s []
  | announced {c : Fields} (hc : t.Announces s.draws op c) (herr : ∀ text, ¬ t.Errs op s text)
    (hpage : ∀ page, (t.perform op s).1 ≠ .ok (.page page)) : Logs t op s [announced op c]
  | failed {c : Fields} {text : Text.Points} (hc : t.Announces s.draws op c)
    (herr : t.Errs op s text) : Logs t op s [announced op c, failed op c text]
  | counted {c : Fields} {page : Page} (hc : t.Announces s.draws op c)
    (hpage : (t.perform op s).1 = .ok (.page page)) :
    Logs t op s [announced op c, counted op c page]

/-- Without a call there is nothing to log but the announcement. -/
theorem logs_of_error {f : Fault} {q : Progress}
    (hp : t.prepare op ⟨s.draws, none⟩ = (.error f, q)) :
    t.Logs op s (announcedEntries op q.context) := by
  have hcontext {c : Fields} : q.context = some c ↔ t.Announces s.draws op c := by
    rw [← prepare_context_iff, hp]
  cases hc : q.context with
  | none =>
    refine .nothing fun _ c hannounced => Option.some_ne_none c ?_
    rw [← hcontext.mpr hannounced, hc]
  | some c =>
    refine .announced (hcontext.mp hc) (fun text herr => ?_) fun page hpage => ?_
    · obtain ⟨_, hsent⟩ := herr.sends
      obtain ⟨_, _, hprepared, -⟩ := sends_iff.mp hsent
      cases hp.symm.trans hprepared
    · rw [perform_eq_of_error hp] at hpage
      cases hpage

/-- After a call there is an error to log, or a page, or nothing more. -/
theorem logs_of_prepared {p : Prepared} {q : Progress} {c : Fields}
    (hp : t.prepare op ⟨s.draws, none⟩ = (.ok p, q)) (hc : t.Announces s.draws op c) :
    t.Logs op s (announced op c ::
      settledEntries op p (some c) (s.transport.send op.method p.request).1) := by
  have hanswer : (t.perform op s).1 = settled op p (s.transport.send op.method p.request).1 := by
    rw [perform_eq_of_ok hp]
  have hcall {e : ServiceError} := callFails_of_prepared (e := e) hp
  have hsettled : ∀ reply, (s.transport.send op.method p.request).1 = reply →
      (∀ e, reply ≠ .error (.service e)) → settled op p reply ≠ .error .notFound →
      (∀ page, settled op p reply ≠ .ok (.page page)) → t.Logs op s [announced op c] := by
    rintro reply rfl hservice hmissed hpage
    rw [← hanswer] at hmissed hpage
    refine .announced hc (fun text herr => ?_) hpage
    cases herr with
    | call h => exact hservice _ (hcall.mp h)
    | missed h => exact hmissed h
  rcases hreply : (s.transport.send op.method p.request).1 with f | response
  · rcases s.transport.send_fails op.method p.request f hreply with hdata | ⟨e, rfl⟩
    · have hentries : settledEntries op p (some c) (.error f) = [] := by
        cases f with
        | service e => cases hdata
        | _ => rfl
      have hinterpreted : settled op p (.error f) = .error f :=
        congrArg Except.error (interpret_of_isData hdata)
      rw [hentries]
      refine hsettled _ hreply (fun e he => ?_) (fun hmissed => ?_) fun page => ?_
      · cases he
        cases hdata
      · rw [hinterpreted] at hmissed
        cases hmissed
        cases hdata
      · rw [hinterpreted]
        exact nofun
    · exact .failed hc (.call (hcall.mpr hreply))
  · have hconclude : settled op p (.ok response) = conclude op p.result response := rfl
    have hentries : settledEntries op p (some c) (.ok response) =
      replyEntries op c (conclude op p.result response) := rfl
    have hplain := hsettled _ hreply fun e => nofun
    rw [hreply, hconclude] at hanswer
    rw [hconclude] at hplain
    rw [hentries]
    generalize conclude op p.result response = answer at hanswer hplain ⊢
    rcases answer with f | v | page
    · cases f with
      | notFound => exact .failed hc (.missed hanswer)
      | _ => exact hplain nofun fun _ => nofun
    · exact hplain nofun fun _ => nofun
    · exact .counted hc hanswer

/-- **What one operation logs.** The log is only added to. -/
theorem perform_logs (t : Table) (op : Operation) (s : Session) :
    ∃ entries, (t.perform op s).2.log = s.log ++ entries ∧ t.Logs op s entries := by
  rcases hp : t.prepare op ⟨s.draws, none⟩ with ⟨f | p, q⟩
  · rw [perform_eq_of_error hp]
    exact ⟨_, rfl, logs_of_error hp⟩
  · rw [perform_eq_of_ok hp]
    refine ⟨_, List.append_assoc .., ?_⟩
    cases hop : op.concernsItems with
    | false =>
      have hcontext := prepare_context_of_administration (t := t) (d := s.draws) hop
      rw [hp] at hcontext
      rw [show q.context = none from hcontext]
      rcases (s.transport.send op.method p.request).1 with f | response
      · exact .nothing fun h => by cases hop.symm.trans h
      · exact .nothing fun h => by cases hop.symm.trans h
    | true =>
      obtain ⟨c, hcontext, hc⟩ := announces_of_prepared hp hop
      rw [hcontext]
      exact logs_of_prepared hp hc

theorem Sends.announces {req : Fields} (h : t.Sends op s req) (hop : op.concernsItems = true) :
    ∃ c, t.Announces s.draws op c := by
  obtain ⟨_, _, hp, -⟩ := sends_iff.mp h
  obtain ⟨c, -, hc⟩ := announces_of_prepared hp hop
  exact ⟨c, hc⟩

namespace Logs

variable {entries : List LogEntry}

/-- An error is logged right after the announcement, as one about the same. -/
theorem eq_of_errs {text : Text.Points} (h : t.Logs op s entries) (hop : op.concernsItems = true)
    (herr : t.Errs op s text) :
    ∃ c, t.Announces s.draws op c ∧ entries = [Table.announced op c, Table.failed op c text] := by
  cases h with
  | nothing hnone =>
    obtain ⟨req, hsent⟩ := herr.sends
    obtain ⟨c, hc⟩ := hsent.announces hop
    exact absurd hc (hnone hop c)
  | announced _ hquiet _ => exact absurd herr (hquiet text)
  | failed hc herr' => exact ⟨_, hc, by rw [herr.unique herr']⟩
  | counted _ hpage => exact absurd hpage herr.not_ok

theorem eq_of_page {page : Page} (h : t.Logs op s entries)
    (hpage : (t.perform op s).1 = .ok (.page page)) :
    ∃ c, t.Announces s.draws op c ∧ entries = [Table.announced op c, Table.counted op c page] := by
  cases h with
  | nothing hnone =>
    obtain ⟨_, _, _, -, hsent, -⟩ := sends_of_ok hpage
    have hop : op.concernsItems = true := by
      obtain ⟨params, rfl | rfl⟩ := perform_page hpage <;> rfl
    obtain ⟨c, hc⟩ := hsent.announces hop
    exact absurd hc (hnone hop c)
  | announced _ _ hquiet => exact absurd hpage (hquiet page)
  | failed _ herr => exact absurd hpage herr.not_ok
  | counted hc hpage' =>
    cases hpage.symm.trans hpage'
    exact ⟨_, hc, rfl⟩

theorem eq_of_quiet (h : t.Logs op s entries) (herr : ∀ text, ¬ t.Errs op s text)
    (hpage : ∀ page, (t.perform op s).1 ≠ .ok (.page page)) :
    entries = [] ∨ ∃ c, t.Announces s.draws op c ∧ entries = [Table.announced op c] := by
  cases h with
  | nothing => exact .inl rfl
  | announced hc => exact .inr ⟨_, hc, rfl⟩
  | failed _ herr' => exact absurd herr' (herr _)
  | counted _ hpage' => exact absurd hpage' (hpage _)

/-- There is an entry for an error exactly if there is an error to report. -/
theorem error_iff (h : t.Logs op s entries) : (∃ entry ∈ entries, entry.level = .error) ↔
    op.concernsItems = true ∧ ∃ text, t.Errs op s text := by
  constructor
  · intro herror
    obtain ⟨entry, hentry, hlevel⟩ := herror
    cases h with
    | nothing => cases hentry
    | announced =>
      rw [List.mem_singleton.mp hentry] at hlevel
      cases hlevel
    | failed hc herr => exact ⟨hc.concernsItems, _, herr⟩
    | counted =>
      rcases List.mem_pair.mp hentry with rfl | rfl
      · cases hlevel
      · cases hlevel
  · intro herr
    obtain ⟨hop, text, herr⟩ := herr
    obtain ⟨c, -, rfl⟩ := h.eq_of_errs hop herr
    exact ⟨Table.failed op c text, List.mem_pair.mpr (.inr rfl), rfl⟩

/-- There is an entry for a page exactly if a page is answered. -/
theorem page_iff (h : t.Logs op s entries) :
    (∃ c page, entries = [Table.announced op c, Table.counted op c page]) ↔
      ∃ page, (t.perform op s).1 = .ok (.page page) := by
  constructor
  · intro hcounted
    obtain ⟨c, page, hentries⟩ := hcounted
    cases h with
    | nothing | announced => cases hentries
    | failed =>
      simp only [List.cons.injEq, Table.failed, Table.counted, LogEntry.mk.injEq] at hentries
      cases hentries.2.1.1
    | counted _ hpage => exact ⟨_, hpage⟩
  · intro hpage
    obtain ⟨page, hpage⟩ := hpage
    obtain ⟨c, -, hentries⟩ := h.eq_of_page hpage
    exact ⟨c, page, hentries⟩

end Logs

end Table

/-! ### The log of a run -/

namespace Step

/-- What the step adds to the log. -/
def logged (x : Step) : List LogEntry := x.after.log.drop x.before.log.length

/-- What the log says of a step. -/
structure Audited (x : Step) (t : Table) : Prop where
  /-- Nothing that was logged is rewritten. -/
  appended : x.after.log = x.before.log ++ x.logged
  /-- An operation on items makes its call with one entry more in the log: what it is about. All
  that is left by then is to finish. -/
  ahead : x.operation.concernsItems = true → ∀ req, t.Sends x.operation x.before req →
    ∃ c p draws, t.Announces x.before.draws x.operation c ∧ p.request = req ∧
      x.logged.head? = some (Table.announced x.operation c) ∧
      (x.answer, x.after) = Table.finish x.operation p (some c)
        ⟨x.before.transport, draws, x.before.log ++ [Table.announced x.operation c]⟩
  /-- An entry for an error, of the service or of a record that is missing, and for no other. -/
  error_iff : (∃ entry ∈ x.logged, entry.level = .error) ↔
    x.operation.concernsItems = true ∧ ∃ text, t.Errs x.operation x.before text
  failed : x.operation.concernsItems = true → ∀ text, t.Errs x.operation x.before text →
    ∃ c, t.Announces x.before.draws x.operation c ∧
      x.logged = [Table.announced x.operation c, Table.failed x.operation c text]
  /-- An entry for a page, and for no other answer. -/
  page_iff : (∃ c page, x.logged = [Table.announced x.operation c,
    Table.counted x.operation c page]) ↔ ∃ page, x.answer = .ok (.page page)
  counted : ∀ page, x.answer = .ok (.page page) →
    (∃ params, x.operation = .query params ∨ x.operation = .scan params) ∧
      ∃ c, t.Announces x.before.draws x.operation c ∧
        x.logged = [Table.announced x.operation c, Table.counted x.operation c page]
  /-- With neither there is at most what the operation announced. -/
  otherwise : (∀ text, ¬ t.Errs x.operation x.before text) →
    (∀ page, x.answer ≠ .ok (.page page)) →
    x.logged = [] ∨ ∃ c, t.Announces x.before.draws x.operation c ∧
      x.logged = [Table.announced x.operation c]
  unsent : (∀ req, ¬ t.Sends x.operation x.before req) →
    x.logged = [] ∨ ∃ c, t.Announces x.before.draws x.operation c ∧
      x.logged = [Table.announced x.operation c]
  administration : x.operation.concernsItems = false → x.logged = []
  misfit : x.operation.Misfits →
    (∃ f, Table.RefusedFor x.operation f ∧ x.answer = .error f) ∧ x.logged = []
  /-- A batch is in the log whatever its requests are. -/
  batch : ∀ requests account, x.operation = .batchWrite requests account →
    x.logged.head? = some (Table.announced x.operation (t.context [] .null account))

end Step

namespace Table

theorem perform_audited (t : Table) (op : Operation) (s : Session) :
    Step.Audited ⟨op, s, (t.perform op s).1, (t.perform op s).2⟩ t := by
  obtain ⟨entries, hlog, hlogs⟩ := t.perform_logs op s
  have hlogged : Step.logged ⟨op, s, (t.perform op s).1, (t.perform op s).2⟩ = entries := by
    rw [Step.logged, hlog, List.drop_left]
  have hempty (hnone : ∀ c, ¬ t.Announces s.draws op c) : entries = [] := by
    cases hlogs with
    | nothing => rfl
    | announced hc | failed hc | counted hc => exact absurd hc (hnone _)
  constructor <;> rw [hlogged]
  case appended => exact hlog
  case ahead =>
    intro hop req hsent
    obtain ⟨p, q, hp, rfl, -⟩ := sends_iff.mp hsent
    obtain ⟨c, hcontext, hc⟩ := announces_of_prepared hp hop
    have hfinish := perform_eq_finish hp
    rw [hcontext] at hfinish
    have hentries : s.log ++ entries = s.log ++ (announced op c ::
        settledEntries op p (some c) (s.transport.send op.method p.request).1) := by
      rw [← hlog, hfinish]
      exact List.append_assoc ..
    refine ⟨c, p, q.draws, hc, rfl, ?_, hfinish⟩
    rw [List.append_cancel_left hentries, List.head?_cons]
  case error_iff => exact hlogs.error_iff
  case failed => exact fun hop text herr => hlogs.eq_of_errs hop herr
  case page_iff => exact hlogs.page_iff
  case counted => exact fun page hpage => ⟨perform_page hpage, hlogs.eq_of_page hpage⟩
  case otherwise => exact hlogs.eq_of_quiet
  case unsent =>
    intro hunsent
    refine hlogs.eq_of_quiet (fun text herr => ?_) fun page hpage => ?_
    · obtain ⟨req, hsent⟩ := herr.sends
      exact hunsent req hsent
    · obtain ⟨_, _, _, -, hsent, -⟩ := sends_of_ok hpage
      exact hunsent _ hsent
  case administration =>
    intro hop
    exact hempty fun c hc => Bool.false_ne_true (hop.symm.trans hc.concernsItems)
  case misfit =>
    intro hmisfits
    obtain ⟨f, hf, hprepare⟩ := prepare_of_misfits hmisfits
    exact ⟨⟨f, hf, perform_error_iff.mpr (.inl hprepare)⟩,
      hempty fun c hc => hc.not_misfits hmisfits⟩
  case batch =>
    rintro requests account rfl
    cases hlogs with
    | nothing hnone => exact absurd (.batchWrite requests account) (hnone rfl _)
    | announced hc | failed hc | counted hc =>
      cases hc
      rfl

/-- **The log of a run.** Whatever operations run, the log is what it was, with what each step adds
to it behind. An operation on items that makes its call has announced itself in one entry by then.
An entry for an error follows exactly if the service answered the call with one or the record that
was looked up is missing, and one for a page exactly if a query or a scan answers with it. Else
there is at most the announcement: none for the administration of tables, and none for an operation
whose key or record does not pass its check. -/
theorem log_audit (t : Table) (ops : List Operation) (s : Session) :
    (∀ x ∈ t.trace ops s, x.Audited t) ∧
      (t.performAll ops s).2.log = s.log ++ (t.trace ops s).flatMap Step.logged := by
  refine ⟨forall_trace t.perform_audited ops s, ?_⟩
  induction ops generalizing s with
  | nil => exact (List.append_nil _).symm
  | cons op ops ih =>
    rw [trace, List.flatMap_cons, ← List.append_assoc, ← (t.perform_audited op s).appended]
    exact ih _

/-- A refused look-up, a record that is missing, a page, a deletion that the service fails, a batch
that is refused, and a list of tables. -/
theorem log_audit_six :
    let t : Table := ⟨"records", ⟨false, false, false⟩, ⟨fun _ => none, fun _ => ""⟩, "account"⟩
    let key : Value := .map [(.text "id", .text "k")]
    let removal : Value := .map [(.text "DeleteRequest", .map [(.text "Key", .map [])])]
    let ops : List Operation := [.get (.map []) .null, .get key .null, .scan .null,
      .delete key .null, .batchWrite (.list [removal]) (.text "a"), .listTables .null]
    let failure : ServiceError := ⟨"DeleteItem", some (Text.points "Throttled"), none, none⟩
    let s := Session.start [⟨"get_item", .null, .response .null⟩,
      ⟨"scan", .null, .response (.map [(.text "Count", .int 3)])⟩,
      ⟨"delete_item", .null, .failure failure⟩, ⟨"list_tables", .null, .response .null⟩]
    (t.trace ops s).map (fun x => x.logged.map LogEntry.level) =
        [[], [.debug, .error], [.debug, .debug], [.debug, .error], [.debug], []] ∧
      (∀ x ∈ t.trace ops s, x.Audited t) ∧
      (t.performAll ops s).2.log = s.log ++ (t.trace ops s).flatMap Step.logged := by
  intro t key removal ops failure s
  exact ⟨by decide +kernel, log_audit t ops s⟩

/-- A batch says what it is about before it looks at its requests, so one that is refused for the
key of a request is in the log. -/
theorem batch_logged_when_refused :
    ¬ ∀ (t : Table) (op : Operation) (s : Session) (key : Value) (f : Fault),
      Key.validate key = .error f → (t.perform op s).1 = .error f →
      (t.perform op s).2.log = s.log := by
  intro h
  let t : Table := ⟨"records", ⟨false, false, false⟩, ⟨fun _ => none, fun _ => ""⟩, "account"⟩
  let removal : Value := .map [(.text "DeleteRequest", .map [(.text "Key", .map [])])]
  let op : Operation := .batchWrite (.list [removal]) .null
  have hrefused : (t.perform op (.start [])).1 = .error (.caller .keyShape) := by cbv
  have hlog : (t.perform op (.start [])).2.log = [announced op (t.context [] .null .null)] := by cbv
  rw [h t op (.start []) (.map []) _ rfl hrefused] at hlog
  cases hlog

end Table

end ItemStore
