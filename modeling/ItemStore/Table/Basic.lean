import ItemStore.Lifecycle
import ItemStore.ReadRequest
import ItemStore.Table.Operation
import ItemStore.Page

/-! Handles on a table, and sessions.

A handle is fixed: a name, a schema, where stamps come from, and the field that names the account
a record belongs to. Everything that changes while operations run is in the session: the
transport, how much was drawn, and the log. -/
namespace ItemStore

structure Table where
  name : String
  schema : Schema
  sources : Sources
  accountField : String

inductive LogLevel where
  | debug
  | error
deriving DecidableEq, Repr, Inhabited

def LogLevel.name : LogLevel → String
  | .debug => "DEBUG"
  | .error => "ERROR"

structure LogEntry where
  level : LogLevel
  message : String
  extra : Fields
deriving DecidableEq, Repr, Inhabited

structure Session where
  transport : Transport
  draws : Draws
  log : List LogEntry
deriving DecidableEq, Repr, Inhabited

/-- A session before its first operation. -/
def Session.start (script : List Expectation) : Session :=
  ⟨Transport.scripted script, ⟨0, 0⟩, []⟩

/-- What an operation answers. -/
inductive Answer where
  | value (v : Value)
  | page (p : Page)
deriving DecidableEq, Repr, Inhabited

namespace Table

/-- A handle. The name must not be empty and there has to be a client; the schema comes last. -/
def ofParts (name : String) (hasClient : Bool) (schema : Except Fault Schema) (sources : Sources)
    (accountField : String) : Except Fault Table := do
  if name == "" then throw .tableNameMissing
  if !hasClient then throw .clientMissing
  return ⟨name, ← schema, sources, accountField⟩

/-- The field that names the account unless a handle says otherwise. -/
def defaultAccountField : String := "accountId"

variable (t : Table)

/-- The first of two values that is not null. -/
def orElse : Value → Value → Value
  | .null, v => v
  | v, _ => v

/-- What the log says an operation is about: the table, the account and the record. -/
def context (key : Fields) (id account : Value) : Fields :=
  [(.text "table", .text t.name),
   (.text "account", orElse account (key.getD t.accountField)),
   (.text "id", orElse id (key.getD "id"))]

/-- The parameters that every request for items ends with. -/
def extend (params : Fields) : Fields :=
  (params.put "TableName" (.text t.name)).put "ReturnConsumedCapacity" (.text "INDEXES")

/-- The table of this handle, unless the parameters name one. -/
def withTableName (params : Fields) : Fields :=
  if params.has "TableName" then params else params.put "TableName" (.text t.name)

/-- The parameters of a caller, who must not pass those the operation writes itself. -/
def freeParams (params : Value) (reserved : List String) : Except Fault Fields := do
  let req ← params.toFieldsOrEmpty
  match reserved.find? req.has with
  | some name => throw (.caller (.reserved name))
  | none => return req

/-- The parameters of a write under a condition. -/
def conditionParams (params : Value) : Except Fault Fields := do
  ReadRequest.encodeValues (← freeParams params ["Item", "Key"])

end Table

end ItemStore
