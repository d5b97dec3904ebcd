import ItemStore.Memory.Basic
import ItemStore.Proofs.Fields
import ItemStore.Proofs.Outcome

/-! What stays in memory.

New tables and requests come behind those that are there, so whatever was there keeps its number.
`Keeps` says that all of it also keeps its content, `Extends` that there are no new requests either,
and `Changes` that at most one request does not keep its content. What a slot holds depends on its
table only, and so a request is seen as before if its tables were there and are kept. -/
namespace ItemStore.Memory

variable {m m' m'' : Memory} {r : Nat} {name : String}

/-! ### Slots that lead somewhere -/

/-- A slot that leads to no table that is not there. -/
def Has (m : Memory) : Slot → Prop
  | .value _ => True
  | .table n => n < m.tables.length

def HasAll (m : Memory) (slots : Slots) : Prop := ∀ e ∈ slots, m.Has e.2

theorem Has.mono {s : Slot} (h : m.Has s) (htables : m.tables <+: m'.tables) : m'.Has s := by
  cases s with
  | value v => trivial
  | table n => exact Nat.lt_of_lt_of_le h htables.length_le

theorem HasAll.mono {slots : Slots} (h : m.HasAll slots) (htables : m.tables <+: m'.tables) :
    m'.HasAll slots := fun e he => (h e he).mono htables

theorem HasAll.put {slots : Slots} (h : m.HasAll slots) {s : Slot} (hs : m.Has s)
    (name : String) : m.HasAll (slots.put name s) := by
  induction slots with
  | nil => exact List.forall_mem_singleton.mpr hs
  | cons e slots ih =>
    obtain ⟨he, hslots⟩ := List.forall_mem_cons.mp h
    rw [Slots.put]
    split
    · exact List.forall_mem_cons.mpr ⟨hs, hslots⟩
    · exact List.forall_mem_cons.mpr ⟨he, ih hslots⟩

theorem HasAll.erase {slots : Slots} (h : m.HasAll slots) (name : String) :
    m.HasAll (slots.erase name) := fun e he => h e (List.mem_of_mem_filter he)

/-! ### What is seen -/

theorem getD_of_prefix {α : Type} {xs ys : List α} (h : xs <+: ys) {n : Nat} (hn : n < xs.length)
    (d : α) : ys.getD n d = xs.getD n d := by
  obtain ⟨zs, rfl⟩ := h
  rw [List.getD_eq_getElem?_getD, List.getD_eq_getElem?_getD, List.getElem?_append_left hn]

theorem table_eq (htables : m.tables <+: m'.tables) {n : Nat} (hn : n < m.tables.length) :
    m'.table n = m.table n :=
  getD_of_prefix htables hn []

theorem load_eq (htables : m.tables <+: m'.tables) {s : Slot} (hs : m.Has s) :
    m'.load s = m.load s := by
  cases s with
  | value v => rfl
  | table n => exact congrArg Value.map (table_eq htables hs)

theorem loadAll_eq (htables : m.tables <+: m'.tables) {slots : Slots} (hslots : m.HasAll slots) :
    m'.loadAll slots = m.loadAll slots :=
  List.map_congr_left fun e he => congrArg (Prod.mk e.1) (load_eq htables (hslots e he))

theorem loadAll_put (m : Memory) (slots : Slots) (name : String) (s : Slot) :
    m.loadAll (slots.put name s) = (m.loadAll slots).put name (m.load s) := by
  induction slots with
  | nil => rfl
  | cons e slots ih =>
    simp only [loadAll, Fields.put, List.map_cons] at ih ⊢
    rw [Slots.put, Fields.putKey]
    split
    · rfl
    · rw [List.map_cons, ih]

theorem loadAll_erase (m : Memory) (slots : Slots) (name : String) :
    m.loadAll (slots.erase name) = (m.loadAll slots).erase name := by
  rw [loadAll, loadAll, Fields.erase, Fields.eraseKey, List.filter_map]
  rfl

/-! ### What is kept -/

/-- All that was in memory is there, as it was. -/
structure Keeps (m m' : Memory) : Prop where
  tables : m.tables <+: m'.tables
  requests : m.requests <+: m'.requests

/-- All that was in memory is there, as it was, and at most tables are new. -/
structure Extends (m m' : Memory) : Prop where
  tables : m.tables <+: m'.tables
  requests : m'.requests = m.requests

/-- Of what was in memory, at most the request `r` is another. -/
structure Changes (r : Nat) (m m' : Memory) : Prop where
  tables : m.tables <+: m'.tables
  length : m'.requests.length = m.requests.length
  others : ∀ i, i ≠ r → m'.requests[i]? = m.requests[i]?

theorem Changes.refl (r : Nat) (m : Memory) : Changes r m m :=
  ⟨List.prefix_rfl, rfl, fun _ _ => rfl⟩

theorem Changes.trans (h : Changes r m m') (h' : Changes r m' m'') : Changes r m m'' :=
  ⟨h.tables.trans h'.tables, h'.length.trans h.length,
    fun i hi => (h'.others i hi).trans (h.others i hi)⟩

/-- At most the request `r` is another, and it looks like this. -/
structure Rewritten (r : Nat) (m m' : Memory) (req : Fields) : Prop where
  changes : Changes r m m'
  hasAll : m'.HasAll (m'.request r)
  view : m'.view r = req

/-- A request that may not be another is seen as before. -/
theorem Changes.view_other (h : Changes r m m') {i : Nat} (hi : i ≠ r)
    (hslots : m.HasAll (m.request i)) : m'.view i = m.view i := by
  have hrequest : m'.request i = m.request i := by
    rw [request, List.getD_eq_getElem?_getD, h.others i hi, ← List.getD_eq_getElem?_getD, request]
  rw [Memory.view, Memory.view, hrequest, loadAll_eq h.tables hslots]

namespace Extends

theorem refl (m : Memory) : Extends m m := ⟨List.prefix_rfl, rfl⟩

theorem trans (h : Extends m m') (h' : Extends m' m'') : Extends m m'' :=
  ⟨h.tables.trans h'.tables, h'.requests.trans h.requests⟩

theorem changes (h : Extends m m') (r : Nat) : Changes r m m' :=
  ⟨h.tables, congrArg List.length h.requests, fun i _ => by rw [h.requests]⟩

theorem request_eq (h : Extends m m') (r : Nat) : m'.request r = m.request r :=
  congrArg (·.getD r []) h.requests

theorem hasAll (h : Extends m m') (hslots : m.HasAll (m.request r)) :
    m'.HasAll (m'.request r) := by
  rw [h.request_eq]
  exact hslots.mono h.tables

theorem view (h : Extends m m') (hslots : m.HasAll (m.request r)) : m'.view r = m.view r := by
  rw [Memory.view, Memory.view, h.request_eq, loadAll_eq h.tables hslots]

/-- New tables in front of a request that is written over. -/
theorem rewritten (h : Extends m m') {req : Fields} (h' : Rewritten r m' m'' req) :
    Rewritten r m m'' req :=
  ⟨(h.changes r).trans h'.changes, h'.hasAll, h'.view⟩

/-- A request that is not written over. -/
theorem unwritten (h : Extends m m') (hslots : m.HasAll (m.request r)) :
    Rewritten r m m' (m.view r) :=
  ⟨h.changes r, h.hasAll hslots, h.view hslots⟩

end Extends

/-- The memory with one more table. -/
def grown (m : Memory) (t : Fields) : Memory := { m with tables := m.tables ++ [t] }

/-- The memory with one more request. -/
def begun (m : Memory) (slots : Slots) : Memory := { m with requests := m.requests ++ [slots] }

theorem tables_grown (m : Memory) (t : Fields) : m.tables <+: (m.grown t).tables :=
  List.prefix_append ..

theorem extends_grown (m : Memory) (t : Fields) : m.Extends (m.grown t) :=
  ⟨tables_grown m t, rfl⟩

theorem table_grown (m : Memory) (t : Fields) : (m.grown t).table m.tables.length = t := by
  simp [table, grown]

theorem request_begun (m : Memory) (slots : Slots) :
    (m.begun slots).request m.requests.length = slots := by
  simp [request, begun]

/-- What is done to a new request leaves all that was there before. -/
theorem Changes.keeps {slots : Slots} (h : Changes m.requests.length (m.begun slots) m') :
    m.Keeps m' := by
  refine ⟨h.tables, List.prefix_iff_getElem?.mpr fun i hi => ?_⟩
  rw [h.others i (Nat.ne_of_lt hi), begun, List.getElem?_append_left hi,
    List.getElem?_eq_getElem hi]

theorem request_eq (h : m.requests <+: m'.requests) (hr : r < m.requests.length) :
    m'.request r = m.request r :=
  getD_of_prefix h hr []

/-- A request is seen as before. -/
theorem Keeps.view (h : m.Keeps m') (hr : r < m.requests.length)
    (hslots : m.HasAll (m.request r)) : m'.view r = m.view r := by
  rw [Memory.view, Memory.view, request_eq h.requests hr, loadAll_eq h.tables hslots]

/-! ### Steps -/

theorem newTable_run (m : Memory) (t : Fields) :
    newTable t m = (.ok m.tables.length, m.grown t) := rfl

theorem writeTable_grown (m : Memory) (t : Fields) (change : Fields → Fields) :
    writeTable m.tables.length change (m.grown t) = (.ok (), m.grown (change t)) := by
  have hlast (ts : List Fields) : (ts ++ [t]).modify ts.length change = ts ++ [change t] := by
    induction ts with
    | nil => rfl
    | cons u ts ih => exact congrArg (u :: ·) ih
  exact congrArg (fun ts => (Except.ok (), { m with tables := ts })) (hlast m.tables)

/-- A request is written over with parameters that lead nowhere else. -/
theorem writeRequest_run (change : Slots → Slots) (hr : r < m.requests.length)
    (hslots : m.HasAll (change (m.request r))) :
    ∃ m', writeRequest r change m = (.ok (), m') ∧
      Rewritten r m m' (m.loadAll (change (m.request r))) := by
  have hrequest : ({ m with requests := m.requests.modify r change } : Memory).request r =
      change (m.request r) := by
    simp [request, List.getD_eq_getElem?_getD, hr]
  refine ⟨_, rfl, ⟨List.prefix_rfl, List.length_modify .., fun i hi => ?_⟩, ?_, ?_⟩
  · simp [hi.symm]
  · rw [hrequest]
    exact hslots
  · exact congrArg m.loadAll hrequest

theorem eraseParameter_run (hr : r < m.requests.length) (hslots : m.HasAll (m.request r))
    (name : String) :
    ∃ m', writeRequest r (·.erase name) m = (.ok (), m') ∧
      Rewritten r m m' ((m.view r).erase name) := by
  obtain ⟨m', hrun, hm'⟩ := writeRequest_run (·.erase name) hr (hslots.erase name)
  rw [loadAll_erase] at hm'
  exact ⟨m', hrun, hm'⟩

end ItemStore.Memory
