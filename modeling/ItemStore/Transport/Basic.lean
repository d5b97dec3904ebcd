import ItemStore.Matching
import ItemStore.Value.Shape

/-! The transport.

A transport carries a request to the service and brings back a reply. This one is scripted: each
call is recorded, takes the first expectation from the queue, and is answered as that says if
method and request are the expected ones. A call that cannot be made at all, for a parameter whose
name is no text, is not recorded. -/
namespace ItemStore

/-- The methods of the service. -/
inductive Method where
  | putItem
  | getItem
  | updateItem
  | deleteItem
  | query
  | scan
  | batchWriteItem
  | listTables
  | createTable
  | deleteTable
deriving DecidableEq, Repr, Inhabited

namespace Method

def all : List Method :=
  [.putItem, .getItem, .updateItem, .deleteItem, .query, .scan, .batchWriteItem, .listTables,
   .createTable, .deleteTable]

def name : Method → String
  | .putItem => "put_item"
  | .getItem => "get_item"
  | .updateItem => "update_item"
  | .deleteItem => "delete_item"
  | .query => "query"
  | .scan => "scan"
  | .batchWriteItem => "batch_write_item"
  | .listTables => "list_tables"
  | .createTable => "create_table"
  | .deleteTable => "delete_table"

def ofName? (name : String) : Option Method := all.find? fun m => m.name == name

end Method

structure Call where
  method : Method
  request : Fields
deriving DecidableEq, Repr, Inhabited

/-- What a call comes back with. -/
inductive Reply where
  | response (v : Value)
  | failure (e : ServiceError)
  /-- Any other exception. -/
  | raised (e : Raised)
deriving DecidableEq, Repr, Inhabited

/-- An expected call and its reply. A null expectation matches every request. -/
structure Expectation where
  method : String
  expected : Value
  reply : Reply
deriving DecidableEq, Repr, Inhabited

structure Transport where
  pending : List Expectation
  calls : List Call
deriving DecidableEq, Repr, Inhabited

/-- Whether the names of a request are names of parameters. -/
def isCallable (req : Fields) : Bool :=
  req.all fun e =>
    match e.1 with
    | .text name => name != "self"
    | .torn _ => true
    | _ => false

/-- What an expectation answers to a call. -/
def Expectation.answer (e : Expectation) (m : Method) (req : Fields) : Except Fault Fields := do
  if e.method != m.name then throw (.mismatch (.wrongMethod e.method m.name))
  match e.expected with
  | .null => pure ()
  | expected => Matching.check (Text.points m.name) (.map (← expected.toFields)) (.map req)
  match e.reply with
  | .failure err => throw (.service err)
  | .raised err => throw (.raised err)
  | .response v => v.toFieldsOrEmpty

/-! ### Expectations in messages -/

/-- A reply as it is written: its response, and its exception. -/
def Reply.literals : Reply → String × String
  | .response v => (v.literal, "None")
  | .failure e => ("None", Value.named "ClientError" (Text.quotedPoints e.text))
  | .raised e => ("None", e.literal)

def Reply.isWritable : Reply → Bool
  | .response v => v.isWritable
  | _ => true

def Expectation.literal (e : Expectation) : String :=
  let (response, error) := e.reply.literals
  Value.named "ExpectedCall" ("method=" ++ Text.quoted e.method ++ ", expected=" ++
    e.expected.literal ++ ", response=" ++ response ++ ", error=" ++ error)

def Expectation.isWritable (e : Expectation) : Bool :=
  e.expected.isWritable && e.reply.isWritable

namespace Transport

/-- A transport with a script. -/
def scripted (script : List Expectation) : Transport := ⟨script, []⟩

def send (t : Transport) (m : Method) (req : Fields) : Except Fault Fields × Transport :=
  if isCallable req then
    let calls := t.calls ++ [⟨m, req⟩]
    match t.pending with
    | [] => (.error (.mismatch (.unexpected m.name)), ⟨[], calls⟩)
    | e :: rest => (e.answer m req, ⟨rest, calls⟩)
  else (.error .wrongType, t)

/-- Sends the call of a method by its name with arguments in order: the request and nothing else. -/
def sendCall (t : Transport) (name : String) (args : List Value) :
    Except Fault Fields × Transport :=
  match Method.ofName? name, args with
  | none, _ => (.error .noMethod, t)
  | some m, [.map req] => t.send m req
  | some _, _ => (.error .wrongType, t)

/-- The requests made by a method, in order. -/
def requests (t : Transport) (method : String) : List Fields :=
  (t.calls.filter fun c => c.method.name == method).map Call.request

/-- The calls that were not made, as they are written. -/
def queueLiteral (t : Transport) : String :=
  "[" ++ Value.join (t.pending.map Expectation.literal) ++ "]"

/-- Fails if an expected call was not made. What is said then quotes the queue. -/
def assertNonePending (t : Transport) : Except Fault Unit :=
  if t.pending.isEmpty then .ok ()
  else if t.pending.all Expectation.isWritable then .error (.mismatch (.pending t.queueLiteral))
  else .error .malformed

end Transport

end ItemStore
