import ItemStore.Value.Shape

/-! Maps in memory.

A map that is passed on is not copied: whoever writes to it writes to the map of its owner. So the
maps of callers are kept in memory, each known by its number. A table is a map of values. A request
is a map of parameters, and a parameter may be a table: a copy of a request then shares it. -/
namespace ItemStore

/-- What is passed on: a value, or a table by its number. -/
inductive Slot where
  | value (v : Value)
  | table (number : Nat)
deriving DecidableEq, Repr, Inhabited

/-- The parameters of a request. -/
abbrev Slots := List (Value × Slot)

namespace Slots

def put : Slots → String → Slot → Slots
  | [], name, s => [(.text name, s)]
  | e :: slots, name, s =>
    if e.1.same (.text name) then (e.1, s) :: slots else e :: put slots name s

def erase (slots : Slots) (name : String) : Slots := slots.filter fun e => !e.1.same (.text name)

end Slots

structure Memory where
  tables : List Fields
  requests : List Slots
deriving DecidableEq, Repr, Inhabited

/-- A computation on maps in memory that may fail; what it wrote stays written. -/
abbrev InMemory := ExceptT Fault (StateM Memory)

namespace Memory

/-! ### What can be seen -/

variable (m : Memory)

def table (n : Nat) : Fields := m.tables.getD n []

def request (r : Nat) : Slots := m.requests.getD r []

/-- The value in a slot, as it is now. -/
def load : Slot → Value
  | .value v => v
  | .table n => .map (m.table n)

/-- Parameters with the values in their slots. -/
def loadAll (slots : Slots) : Fields := slots.map fun e => (e.1, m.load e.2)

/-- A request as it is seen. -/
def view (r : Nat) : Fields := m.loadAll (m.request r)

/-! ### What can be done -/

def newTable (fs : Fields) : InMemory Nat := do
  let m ← get
  set { m with tables := m.tables ++ [fs] }
  return m.tables.length

def newRequest (slots : Slots) : InMemory Nat := do
  let m ← get
  set { m with requests := m.requests ++ [slots] }
  return m.requests.length

def writeTable (n : Nat) (change : Fields → Fields) : InMemory Unit :=
  modify fun m => { m with tables := m.tables.modify n change }

def writeRequest (r : Nat) (change : Slots → Slots) : InMemory Unit :=
  modify fun m => { m with requests := m.requests.modify r change }

end Memory

end ItemStore
