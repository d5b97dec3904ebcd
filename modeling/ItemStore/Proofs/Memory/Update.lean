import ItemStore.Memory.Update
import ItemStore.Proofs.Memory.Request

/-! Updates in memory and updates of values.

The names and the values of an update are added to two new tables, one after the other, and the
request is written over only when both are whole. So an update comes out in memory as it does in a
request that is a value; if it fails, at most new tables are left behind that lead nowhere, and if
it does not, the tables that the request had are those of its caller, as they were. -/
namespace ItemStore

open Outcome

/-! ### The two tables of an update -/

namespace Update

/-- The names of a request and those of the update. -/
def allNames (u : Update) (req : Fields) : Except Fault Fields := do
  addNew .nameCollision (← (req.getD "ExpressionAttributeNames").toFieldsOrEmpty) u.names

/-- The values of a request and those of the update, in wire form. -/
def allValues (u : Update) (req : Fields) : Except Fault Fields := do
  let present ← Wire.encodeFields (← callerValues (req.getD "ExpressionAttributeValues"))
  addNew .valueCollision present (← encodeReferences u.values)

theorem tables_eq (u : Update) (req : Fields) : u.tables req = do
    let names ← u.allNames req
    let values ← u.allValues req
    return (names, values) := by
  simp only [tables, allNames, allValues, bind_assoc]

end Update

namespace Memory

variable {m : Memory} {r : Nat} {u : Update}

/-! ### New tables -/

/-- Placeholders are added to a new table as they are to a table by itself. -/
theorem addNew_grown (collision : Text.Points → CallerFault) (m : Memory) (t : Fields)
    (rs : References) :
    ∃ t', addNew collision m.tables.length rs (m.grown t) =
        ((Update.addNew collision t rs).map fun _ => (), m.grown t') ∧
      ∀ found, Update.addNew collision t rs = .ok found → t' = found := by
  induction rs generalizing t with
  | nil => exact ⟨t, rfl, fun _ h => Except.ok.inj h⟩
  | cons e rs ih =>
    obtain ⟨ref, v⟩ := e
    rw [addNew, run_get, table_grown, Update.addNew]
    by_cases hthere : t.has ref = true
    · rw [if_pos hthere, if_pos hthere]
      exact ⟨t, rfl, fun _ h => by cases h⟩
    · rw [if_neg hthere, if_neg hthere, run_bind_of_ok (writeTable_grown m t _)]
      exact ih _

/-- The step makes one new table, if the computation succeeds, and that holds what it found. -/
def Tabulates (x : InMemory Nat) (m : Memory) (found : Except Fault Fields) : Prop :=
  ∃ m', x m = (found.map fun _ => m.tables.length, m') ∧ m.Extends m' ∧
    ∀ t, found = .ok t → m' = m.grown t

/-- A new table to which placeholders are added. -/
theorem tabulates_addNew (collision : Text.Points → CallerFault) (m : Memory) (t : Fields)
    (rs : References) :
    Tabulates (do
      let n ← newTable t
      addNew collision n rs
      return n) m (Update.addNew collision t rs) := by
  obtain ⟨t', hrun, ht'⟩ := addNew_grown collision m t rs
  rw [Tabulates, run_bind_of_ok (newTable_run m t)]
  cases hadded : Update.addNew collision t rs with
  | error f =>
    rw [hadded] at hrun
    exact ⟨_, run_bind_of_error hrun, extends_grown m t', nofun⟩
  | ok found =>
    rw [hadded] at hrun
    obtain rfl := ht' found hadded
    exact ⟨_, run_bind_of_ok hrun, extends_grown m t', fun _ h => by rw [Except.ok.inj h]⟩

theorem tabulates_names (u : Update) (m : Memory) (r : Nat) :
    Tabulates (namesTable u r) m (u.allNames (m.view r)) := by
  unfold Tabulates namesTable Update.allNames
  rw [run_bind_of_ok (parameter_run _)]
  cases ((m.view r).getD "ExpressionAttributeNames").toFieldsOrEmpty with
  | error f => exact ⟨m, rfl, .refl m, nofun⟩
  | ok names => exact tabulates_addNew .nameCollision m names u.names

theorem tabulates_values (u : Update) (m : Memory) (r : Nat) :
    Tabulates (valuesTable u r) m (u.allValues (m.view r)) := by
  unfold Tabulates valuesTable Update.allValues
  rw [run_bind_of_ok (parameter_run _)]
  cases Update.callerValues ((m.view r).getD "ExpressionAttributeValues") with
  | error f => exact ⟨m, rfl, .refl m, nofun⟩
  | ok values =>
    rw [run_ok_bind, ok_bind]
    cases Wire.encodeFields values with
    | error f => exact ⟨m, rfl, .refl m, nofun⟩
    | ok present =>
      rw [run_ok_bind, ok_bind]
      cases Update.encodeReferences u.values with
      | error f => exact ⟨m.grown present, rfl, extends_grown m present, nofun⟩
      | ok refs => exact tabulates_addNew .valueCollision m present refs

/-! ### The request -/

/-- A request gets the text of an update and two tables, which are there. -/
theorem writeUpdate_run (u : Update) (hr : r < m.requests.length)
    (hslots : m.HasAll (m.request r)) {names values : Nat} (hnames : names < m.tables.length)
    (hvalues : values < m.tables.length) :
    ∃ m', (do
        putParameter r "UpdateExpression" (.value (.text u.expression))
        putParameter r "ExpressionAttributeNames" (.table names)
        if ((← get).table values).isEmpty then writeRequest r (·.erase "ExpressionAttributeValues")
        else putParameter r "ExpressionAttributeValues" (.table values)) m = (.ok (), m') ∧
      Rewritten r m m' (u.write (m.table names, m.table values) (m.view r)) := by
  obtain ⟨m₁, hrun, hm₁⟩ := putNames_run hr hslots hnames "UpdateExpression" (.text u.expression)
  have hr₁ : r < m₁.requests.length := hm₁.changes.length ▸ hr
  have htables := hm₁.changes.tables
  have hvalues₁ : values < m₁.tables.length := Nat.lt_of_lt_of_le hvalues htables.length_le
  rw [← bind_assoc, run_bind_of_ok hrun, run_get, Update.write, table_eq htables hvalues]
  cases hempty : (m.table values).isEmpty with
  | true =>
    obtain ⟨m₂, hrun₂, hm₂⟩ := eraseParameter_run hr₁ hm₁.hasAll "ExpressionAttributeValues"
    rw [hm₁.view] at hm₂
    exact ⟨m₂, hrun₂, hm₁.changes.trans hm₂.changes, hm₂.hasAll, hm₂.view⟩
  | false =>
    obtain ⟨m₂, hrun₂, hm₂⟩ := putParameter_run hr₁ hm₁.hasAll (s := .table values) hvalues₁
      "ExpressionAttributeValues"
    rw [load_eq htables (s := .table values) hvalues, hm₁.view] at hm₂
    exact ⟨m₂, hrun₂, hm₁.changes.trans hm₂.changes, hm₂.hasAll, hm₂.view⟩

/-- **An update in a request in memory.** It is put there as into the request as a value, whether or
not this fails, and nothing that was in memory changes but this request. -/
theorem attach_run (u : Update) (hr : r < m.requests.length) (hslots : m.HasAll (m.request r)) :
    ∃ m', attach u r m = ((u.attach.amend (m.view r)).1, m') ∧
      Rewritten r m m' (u.attach.amend (m.view r)).2 := by
  obtain ⟨m₁, hnames, hm₁, hgrown₁⟩ := tabulates_names u m r
  rw [attach, Update.attach, Amendment.amend_checked, Update.tables_eq]
  cases hfound : u.allNames (m.view r) with
  | error f =>
    rw [hfound] at hnames
    exact ⟨m₁, run_bind_of_error hnames, hm₁.unwritten hslots⟩
  | ok names =>
    rw [hfound] at hnames
    obtain ⟨m₂, hvalues, hm₂, hgrown₂⟩ := tabulates_values u m₁ r
    rw [hm₁.view hslots] at hvalues hgrown₂
    rw [run_bind_of_ok hnames, ok_bind]
    have hextends := hm₁.trans hm₂
    cases hfound' : u.allValues (m.view r) with
    | error f =>
      rw [hfound'] at hvalues
      exact ⟨m₂, run_bind_of_error hvalues, hextends.unwritten hslots⟩
    | ok values =>
      rw [hfound'] at hvalues
      rw [run_bind_of_ok hvalues]
      obtain rfl := hgrown₁ names hfound
      obtain rfl := hgrown₂ values hfound'
      have hnew : m.tables.length < (m.grown names).tables.length := by simp [grown]
      have hnew' : (m.grown names).tables.length <
          ((m.grown names).grown values).tables.length := by simp [grown]
      obtain ⟨m', hrun, hm'⟩ := writeUpdate_run u (hextends.requests ▸ hr)
        (hextends.hasAll hslots) (hnew.trans hnew') hnew'
      rw [hextends.view hslots, table_grown, table_eq hm₂.tables hnew, table_grown] at hm'
      exact ⟨m', hrun, hextends.rewritten hm'⟩

/-- An update writes to no table that was there, be it the caller's own, and any other request is
seen as before, also one that shares its tables with this one. -/
theorem attach_leaves (u : Update) (hr : r < m.requests.length)
    (hslots : m.HasAll (m.request r)) :
    (∀ n < m.tables.length, (attach u r m).2.table n = m.table n) ∧
      ∀ i, i ≠ r → m.HasAll (m.request i) → (attach u r m).2.view i = m.view i := by
  obtain ⟨m', hrun, hm'⟩ := attach_run u hr hslots
  rw [hrun]
  exact ⟨fun n hn => table_eq hm'.changes.tables hn, fun i hi hi' => hm'.changes.view_other hi hi'⟩

end Memory

end ItemStore
