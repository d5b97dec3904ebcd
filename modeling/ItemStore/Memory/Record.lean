import ItemStore.Lifecycle
import ItemStore.Memory.Basic

/-! Records in memory.

Each write of a record makes two new tables, the record and what the caller gets back, and writes
the managed fields to both as it comes to them. -/
namespace ItemStore.Memory

/-- What was drawn, and the memory. -/
structure Bench where
  draws : Draws
  memory : Memory

/-- A computation that draws from the sources and works in memory. -/
abbrev Recording := ExceptT Fault (StateM Bench)

def drawing {α : Type} (x : Drawing α) : Recording α :=
  fun b =>
    let (outcome, d) := x b.draws
    (outcome, { b with draws := d })

def remembering {α : Type} (x : InMemory α) : Recording α :=
  fun b =>
    let (outcome, m) := x b.memory
    (outcome, { b with memory := m })

def loaded (s : Slot) : Recording Value := do return (← get).memory.load s

/-- The tables of a record and of what the caller gets back. -/
structure Written where
  record : Nat
  result : Nat

/-- Two new tables, that of the record with the fields it starts from. -/
def start (fields : Fields) : Recording Written := do
  let record ← remembering (newTable fields)
  let result ← remembering (newTable [])
  return ⟨record, result⟩

namespace Written

variable (w : Written) (schema : Schema) (src : Sources)

/-- Writes a managed field to both tables. -/
def manage (name : String) (v : Value) : Recording Unit := do
  remembering (writeTable w.record (·.put name v))
  remembering (writeTable w.result (·.put name v))

/-- The identifier of a new record: the caller's, or else a fresh one. -/
def manageId (id : Slot) : Recording Unit := do
  if schema.managesId then
    let id ← loaded id
    if id.isTruthy then w.manage "id" id
    else w.manage "id" (.text (← drawing src.identifier))

/-- The time of a new record. -/
def manageCreated : Recording Unit := do
  if schema.managesCreated then w.manage "created" (.text (← drawing src.stamp))

/-- The time of the last write, which is that of the record if it is new. -/
def manageUpdated (new : Bool) : Recording Unit := do
  if schema.managesUpdated then
    if new && schema.managesCreated then
      w.manage "updated" (((← get).memory.table w.record).getD "created")
    else w.manage "updated" (.text (← drawing src.stamp))

end Written

variable (schema : Schema) (src : Sources)

def create (item id : Slot) : Recording Written := do
  let w ← start (Lifecycle.storable (← (← loaded item).fields))
  w.manageId schema src id
  w.manageCreated schema src
  w.manageUpdated schema src true
  return w

def replace (key item : Slot) : Recording Written := do
  let w ← start (Lifecycle.storable (← (← loaded item).fields))
  w.manageUpdated schema src false
  let key ← (← loaded key).toFields
  remembering (writeTable w.record (·.overlay key))
  return w

def update (key attributes : Slot) : Recording Written := do
  let w ← start (← (← loaded attributes).toFields)
  w.manageUpdated schema src false
  let id := (← (← loaded key).fields).getD "id"
  remembering (writeTable w.result (·.put "id" id))
  return w

/-- The write called by a name with arguments in order. The identifier of a new record may be left
out. -/
def call (name : String) (args : List Slot) : Recording Written :=
  match name, args with
  | "on_create", [item] => create schema src item (.value .null)
  | "on_create", [item, id] => create schema src item id
  | "on_replace", [key, item] => replace schema src key item
  | "on_partial_update", [key, attributes] => update schema src key attributes
  | name, _ =>
    throw (if ["on_create", "on_replace", "on_partial_update"].contains name then .wrongType
      else .noMethod)

end ItemStore.Memory
