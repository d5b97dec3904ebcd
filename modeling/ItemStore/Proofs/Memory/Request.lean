import ItemStore.Memory.Request
import ItemStore.Proofs.Memory.Basic
import ItemStore.Proofs.Requests

/-! Requests in memory and requests as values.

Seen as values, requests in memory come out as they do by the definitions on values: a step in
memory `Follows` a function of requests if it fails when the function fails and leaves the request
that the function makes, and changes that request only. So a read is built in memory as it is built
of values, and whatever was in memory stays as it was, the caller's parameters and their tables
included. -/
namespace ItemStore.Memory

open Outcome

variable {m m' : Memory} {r : Nat}

/-! ### Single steps -/

theorem parameter_run (name : String) :
    parameter r name m = (.ok ((m.view r).getD name), m) := rfl

theorem putParameter_run (hr : r < m.requests.length) (hslots : m.HasAll (m.request r)) {s : Slot}
    (hs : m.Has s) (name : String) :
    ∃ m', putParameter r name s m = (.ok (), m') ∧
      Rewritten r m m' ((m.view r).put name (m.load s)) := by
  obtain ⟨m', hrun, hm'⟩ := writeRequest_run (·.put name s) hr (hslots.put hs name)
  rw [loadAll_put] at hm'
  exact ⟨m', hrun, hm'⟩

/-- A value is put into a request, and then a table for the names in it. -/
theorem putNames_run (hr : r < m.requests.length) (hslots : m.HasAll (m.request r)) {n : Nat}
    (hn : n < m.tables.length) (name : String) (v : Value) :
    ∃ m', (do
        putParameter r name (.value v)
        putParameter r "ExpressionAttributeNames" (.table n)) m = (.ok (), m') ∧
      Rewritten r m m' (((m.view r).put name v).put "ExpressionAttributeNames"
        (.map (m.table n))) := by
  obtain ⟨m', hrun, hm'⟩ := putParameter_run hr hslots (s := .value v) trivial name
  have hn' : n < m'.tables.length := Nat.lt_of_lt_of_le hn hm'.changes.tables.length_le
  obtain ⟨m'', hrun', hm''⟩ := putParameter_run (hm'.changes.length ▸ hr) hm'.hasAll
    (s := .table n) hn' "ExpressionAttributeNames"
  refine ⟨m'', (run_bind_of_ok hrun).trans hrun', hm'.changes.trans hm''.changes, hm''.hasAll, ?_⟩
  rw [hm''.view, hm'.view, load_eq hm'.changes.tables (s := .table n) hn]
  rfl

/-! ### Steps that follow a function -/

/-- The step ends as the function does, and then the request `r` is what the function makes of it.
Nothing else that was in memory changes. -/
def Follows (r : Nat) (x : InMemory Unit) (f : Fields → Except Fault Fields) : Prop :=
  ∀ m : Memory, r < m.requests.length → m.HasAll (m.request r) →
    ∃ m', x m = ((f (m.view r)).map fun _ => (), m') ∧ Changes r m m' ∧
      m'.HasAll (m'.request r) ∧ ∀ req, f (m.view r) = .ok req → m'.view r = req

theorem follows_pure (r : Nat) : Follows r (pure ()) .ok := fun m _ hslots =>
  ⟨m, rfl, .refl r m, hslots, fun _ h => Except.ok.inj h⟩

theorem Follows.bind {x y : InMemory Unit} {f g : Fields → Except Fault Fields}
    (hx : Follows r x f) (hy : Follows r y g) :
    Follows r (x >>= fun _ => y) (fun req => f req >>= g) := by
  intro m hr hslots
  obtain ⟨m', hrun, hchanges, hslots', hview⟩ := hx m hr hslots
  dsimp only
  cases hf : f (m.view r) with
  | error e =>
    rw [hf] at hrun
    exact ⟨m', run_bind_of_error hrun, hchanges, hslots', fun _ h => by cases h⟩
  | ok req =>
    rw [hf] at hrun
    obtain ⟨m'', hrun', hchanges', hslots'', hview'⟩ := hy m' (hchanges.length ▸ hr) hslots'
    rw [hview req hf] at hrun' hview'
    rw [ok_bind, run_bind_of_ok hrun]
    exact ⟨m'', hrun', hchanges.trans hchanges', hslots'', hview'⟩

theorem follows_putParameter (name : String) (v : Value) :
    Follows r (putParameter r name (.value v)) fun req => .ok (req.put name v) := by
  intro m hr hslots
  obtain ⟨m', hrun, hm'⟩ := putParameter_run hr hslots (s := .value v) trivial name
  exact ⟨m', hrun, hm'.changes, hm'.hasAll, fun _ h => hm'.view.trans (Except.ok.inj h)⟩

theorem follows_encodeParam (name : String) (encode : Value → Except Fault Value) :
    Follows r (encodeParam r name encode) (ReadRequest.encodeParam name encode) := by
  intro m hr hslots
  rw [encodeParam, run_bind_of_ok (parameter_run name), ReadRequest.encodeParam]
  cases ((m.view r).getD name).truthy? with
  | none => exact follows_pure r m hr hslots
  | some v =>
    dsimp only
    cases encode v with
    | error e => exact ⟨m, run_error_bind e, .refl r m, hslots, fun _ h => by cases h⟩
    | ok w =>
      rw [run_ok_bind]
      exact follows_putParameter name w m hr hslots

/-! ### Projections -/

/-- Names are added to a new table as they are to a table by itself. -/
theorem addNames_grown (m : Memory) (t : Fields) (es : Fields) :
    ∃ t', addNames m.tables.length es (m.grown t) =
        ((Projection.addNames t es).map fun _ => (), m.grown t') ∧
      ∀ found, Projection.addNames t es = .ok found → t' = found := by
  induction es generalizing t with
  | nil => exact ⟨t, rfl, fun found h => Except.ok.inj h⟩
  | cons e es ih =>
    obtain ⟨ref, field⟩ := e
    rw [addNames, run_get, table_grown, Projection.addNames]
    by_cases hsame : ((t.getKey? ref).getD field).same field = true
    · rw [if_pos hsame, if_pos hsame, run_bind_of_ok (writeTable_grown m t _)]
      exact ih _
    · rw [if_neg hsame, if_neg hsame]
      exact ⟨t, rfl, fun found h => by cases h⟩

/-- **The projection of a request in memory.** It is spelled out as that of the request as a value,
whether or not this fails, and nothing that was in memory changes but this request. -/
theorem spellOut_run (hr : r < m.requests.length) (hslots : m.HasAll (m.request r)) :
    ∃ m', spellOut r m = ((Projection.spellOut.amend (m.view r)).1, m') ∧
      Rewritten r m m' (Projection.spellOut.amend (m.view r)).2 := by
  have hsame : Rewritten r m m (m.view r) := (Extends.refl m).unwritten hslots
  rw [spellOut, run_bind_of_ok (parameter_run _), Projection.spellOut, Amendment.amend_checked,
    Projection.table?]
  cases Projection.requested? ((m.view r).getD "ProjectionExpression") with
  | error f => exact ⟨m, rfl, hsame⟩
  | ok found =>
    rw [run_ok_bind, ok_bind]
    cases found with
    | none => exact eraseParameter_run hr hslots "ProjectionExpression"
    | some p =>
      dsimp only
      rw [run_bind_of_ok (parameter_run _)]
      cases ((m.view r).getD "ExpressionAttributeNames").toFieldsOrEmpty with
      | error f => exact ⟨m, rfl, hsame⟩
      | ok names =>
        rw [run_ok_bind, ok_bind, run_bind_of_ok (newTable_run m names)]
        obtain ⟨t, hrun, ht⟩ := addNames_grown m names p.names
        have hgrown := extends_grown m t
        cases hadded : Projection.addNames names p.names with
        | error f =>
          rw [hadded] at hrun
          exact ⟨m.grown t, run_bind_of_error hrun, hgrown.unwritten hslots⟩
        | ok found =>
          rw [hadded] at hrun
          obtain rfl := ht found hadded
          obtain ⟨m', hrun', hm'⟩ := putNames_run (m := m.grown t) hr (hgrown.hasAll hslots)
            (n := m.tables.length) (by simp [grown]) "ProjectionExpression" p.expression
          rw [hgrown.view hslots, table_grown] at hm'
          exact ⟨m', (run_bind_of_ok hrun).trans hrun', hgrown.rewritten hm'⟩

theorem follows_spellOut : Follows r (spellOut r) Projection.spellOut.result := by
  intro m hr hslots
  obtain ⟨m', hrun, hm'⟩ := spellOut_run hr hslots
  refine ⟨m', ?_, hm'.changes, hm'.hasAll, fun req h => ?_⟩
  · rw [hrun, Amendment.result]
    rcases Projection.spellOut.amend (m.view r) with ⟨f | u, req⟩ <;> rfl
  · obtain ⟨-, -, rfl⟩ := map_ok.mp h
    exact hm'.view

/-! ### Reads -/

/-- Parameters that lead to nothing that is not there. -/
def HasParams (m : Memory) : Params → Prop
  | .value _ => True
  | .request r => r < m.requests.length ∧ m.HasAll (m.request r)

theorem Keeps.passed {params : Params} (h : m.Keeps m') (hparams : m.HasParams params) :
    m'.passed params = m.passed params := by
  cases params with
  | value v => rfl
  | request r => exact congrArg Value.map (h.view hparams.1 hparams.2)

theorem follows_spelled : Follows r (spelled r) ReadRequest.spelled := by
  intro m hr hslots
  rw [spelled, run_get, ReadRequest.spelled]
  by_cases hthere : (m.view r).has "ProjectionExpression" = true
  · rw [if_pos hthere, if_pos hthere]
    exact follows_spellOut m hr hslots
  · rw [if_neg hthere, if_neg hthere]
    exact follows_pure r m hr hslots

/-- A copy is a new request that looks like what was passed. -/
theorem copyParams_run {params : Params} (hparams : m.HasParams params) {fs : Fields}
    (hfs : (m.passed params).toFieldsOrEmpty = .ok fs) :
    ∃ slots, copyParams params m = (.ok m.requests.length, m.begun slots) ∧ m.HasAll slots ∧
      m.loadAll slots = fs := by
  cases params with
  | value v =>
    have hv : v.toFieldsOrEmpty = .ok fs := hfs
    refine ⟨fs.map fun e => (e.1, .value e.2), ?_, ?_, ?_⟩
    · rw [copyParams, hv]
      rfl
    · exact List.forall_mem_map.mpr fun _ _ => trivial
    · rw [loadAll, List.map_map]
      exact List.map_id fs
  | request r =>
    have hview : m.view r = fs := Except.ok.inj ((Value.toFieldsOrEmpty_map _).symm.trans hfs)
    exact ⟨m.request r, rfl, hparams.2, hview⟩

/-- What is done to the copy. -/
theorem follows_prepareRead : Follows r (prepareRead r) fun req =>
    ReadRequest.spelled req >>= fun req => ReadRequest.encodeValues req >>=
      ReadRequest.encodeParam "ExclusiveStartKey" Wire.encodeItem :=
  follows_spelled.bind ((follows_encodeParam _ _).bind (follows_encodeParam _ _))

/-- **Reads in memory.** A read is built in memory as it is built of values, and whether or not
this fails, all that was in memory stays as it was. -/
theorem buildRead_run {params : Params} (hparams : m.HasParams params) :
    ∃ outcome m', buildRead params m = (outcome, m') ∧ m.Keeps m' ∧
      outcome.map m'.view = ReadRequest.build (m.passed params) := by
  rw [ReadRequest.build_eq]
  cases hfs : (m.passed params).toFieldsOrEmpty with
  | error e =>
    have hcopy : copyParams params m = (.error e, m) := by
      cases params with
      | value v =>
        have hv : v.toFieldsOrEmpty = .error e := hfs
        rw [copyParams, hv]
        rfl
      | request r => cases (Value.toFieldsOrEmpty_map _).symm.trans hfs
    exact ⟨.error e, m, run_bind_of_error hcopy, ⟨List.prefix_rfl, List.prefix_rfl⟩, rfl⟩
  | ok fs =>
    obtain ⟨slots, hcopy, hslots, rfl⟩ := copyParams_run hparams hfs
    have hseen : (m.begun slots).view m.requests.length = m.loadAll slots :=
      congrArg m.loadAll (request_begun m slots)
    obtain ⟨m', hrun, hchanges, -, hview⟩ := follows_prepareRead (m.begun slots)
      (by simp [begun]) ((request_begun m slots).symm ▸ hslots)
    rw [hseen] at hrun hview
    rw [buildRead, run_bind_of_ok hcopy, ok_bind]
    dsimp only at hrun hview
    generalize ReadRequest.spelled (m.loadAll slots) >>= _ = built at hrun hview ⊢
    cases built with
    | error e => exact ⟨.error e, m', run_bind_of_error hrun, hchanges.keeps, rfl⟩
    | ok req =>
      refine ⟨.ok m.requests.length, m', run_bind_of_ok hrun, hchanges.keeps, ?_⟩
      exact congrArg Except.ok (hview req rfl)

end ItemStore.Memory
