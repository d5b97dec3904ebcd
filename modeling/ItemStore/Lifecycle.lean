import ItemStore.Sources
import ItemStore.Value.Shape

/-! Managed fields.

A schema says which of the fields `id`, `created` and `updated` the library writes itself. Each
write of a record lays the managed fields over what the caller passed, and a replacement lays the
key over both. The managed fields are also what the caller gets back. A full write leaves out the
fields whose value is the empty text; a partial update keeps them, for there they ask for removal.
-/
namespace ItemStore

/-- Which fields are managed. -/
structure Schema where
  managesId : Bool
  managesCreated : Bool
  managesUpdated : Bool
deriving DecidableEq, Repr, Inhabited

/-- The schema a table of flags stands for; nothing is managed if there is none. -/
def Schema.ofFlags (flags : Value) : Except Fault Schema := do
  if flags.isTruthy then
    let fs ← flags.fields
    return ⟨(fs.getD "id").isTruthy, (fs.getD "created").isTruthy, (fs.getD "updated").isTruthy⟩
  else return ⟨false, false, false⟩

/-- A write of a record, by what the caller passed. -/
inductive RecordWrite where
  | create (item id : Value)
  | replace (key item : Value)
  | update (key attributes : Value)

/-- The record to write and what the caller gets back. -/
structure Stamped where
  record : Fields
  result : Fields
deriving DecidableEq, Repr, Inhabited

namespace Lifecycle

/-- The fields of an item that a full write stores. -/
def storable (item : Fields) : Fields := item.filter fun e => !e.2.isDeleteSentinel

variable (schema : Schema) (src : Sources)

/-- The identifier of a new record: the caller's, or else a fresh one. -/
def newId (id : Value) : Drawing Fields := do
  if schema.managesId then
    if id.isTruthy then return [(.text "id", id)]
    else return [(.text "id", .text (← src.identifier))]
  else return []

/-- The stamps of a new record, from one reading of the clock. -/
def newStamps : Drawing Fields := do
  if schema.managesCreated || schema.managesUpdated then
    let stamp := Value.text (← src.stamp)
    return (if schema.managesCreated then [(.text "created", stamp)] else []) ++
      (if schema.managesUpdated then [(.text "updated", stamp)] else [])
  else return []

/-- The stamp of a record that is written again. -/
def freshStamp : Drawing Fields := do
  if schema.managesUpdated then return [(.text "updated", .text (← src.stamp))]
  else return []

def stampWrite : RecordWrite → Drawing Stamped
  | .create item id => do
    let item ← item.fields
    let managed := (← newId schema src id) ++ (← newStamps schema src)
    return ⟨(storable item).overlay managed, managed⟩
  | .replace key item => do
    let item ← item.fields
    let managed ← freshStamp schema src
    return ⟨((storable item).overlay managed).overlay (← key.toFields), managed⟩
  | .update key attributes => do
    let attributes ← attributes.toFields
    let managed ← freshStamp schema src
    return ⟨attributes.overlay managed, managed.put "id" ((← key.fields).getD "id")⟩

end Lifecycle

end ItemStore
