import ItemStore.Json.Read
import ItemStore.Json.Write
import ItemStore.Table.Perform
import ItemStore.Text.Encoding
import ItemStore.Text.Whitespace

/-! A web endpoint for the records of one table.

The verb of an event chooses an operation on the record that the event names. Account and item come
from the query string, or else from the body, which then loses them. A fault meant for callers
becomes a response with its status; any other comes through. -/
namespace ItemStore

structure Response where
  status : Nat
  body : String
deriving DecidableEq, Repr, Inhabited

/-- The response as a value. -/
def Response.toFields (r : Response) : Fields :=
  [(.text "statusCode", .int r.status),
   (.text "headers", .map [(.text "content-type", .text "application/json")]),
   (.text "body", .text r.body)]

namespace Endpoint

/-- The verbs that have an operation. -/
inductive Verb where
  | get
  | post
  | patch
  | put
  | delete
deriving DecidableEq, Repr, Inhabited

def Verb.ofValue? : Value → Option Verb
  | .text "GET" => some .get
  | .text "POST" => some .post
  | .text "PATCH" => some .patch
  | .text "PUT" => some .put
  | .text "DELETE" => some .delete
  | _ => none

/-! ### Responses -/

def respond (status : Nat) (body : Fields) : Except Fault Response := do
  return ⟨status, ← Json.write (.map body)⟩

def refusal (status : Nat) (text : Text.Points) : Except Fault Response :=
  respond status [(.text "error", .ofPoints text)]

/-- The status and the kind of a fault that is meant for callers. -/
def statusOf? : Fault → Option (Nat × String)
  | .caller _ => some (400, "CallerError")
  | .notFound => some (404, "NotFound")
  | .conflict _ => some (409, "Conflict")
  | .internal .. => some (500, "Internal")
  | _ => none

/-- A fault meant for callers as a response. -/
def faultResponse (f : Fault) : Except Fault Response :=
  match statusOf? f with
  | some (status, kind) =>
    respond status [(.text "error", .ofPoints (f.message?.getD [])), (.text "kind", .text kind)]
  | none => .error f

/-- The response to an answer. -/
def answerResponse (verb : Verb) (answer : Answer) : Except Fault Response :=
  let done : Fields := [(.text "ok", .bool true)]
  match verb, answer with
  | .get, .value v => respond 200 (done.put "item" v)
  | .post, .value (.map result) => respond 201 (done.overlay result)
  | .patch, .value (.map result) => respond 200 (done.overlay result)
  | .put, .value (.map result) => respond 200 (done.overlay result)
  | _, _ => respond 200 done

/-! ### Events -/

/-- The value under a name of a map; a falsy value stands for the empty map. -/
def inside (v : Value) (name : String) : Except Fault Value :=
  if v.isTruthy then do return (← v.fields).getD name else .ok .null

/-- The verb of an event, as it stands there. -/
def verbOf (event : Fields) : Except Fault Value := do
  let verb ← inside (← inside (event.getD "requestContext") "http") "method"
  return verb.truthy?.getD (.text "GET")

/-- The text of a body, which may come in bytes. -/
def textIn : Value → Except Fault Text.Points
  | .bytes ⟨_, false⟩ data =>
    match Text.ofBytes? data with
    | some text => .ok text
    | none => .error .undecodable
  | v =>
    match v.points? with
    | some text => .ok text
    | none => .error .wrongType

/-- The value of the body, if it is JSON. -/
def bodyOf (event : Fields) : Except Fault (Option Value) := do
  match (event.getD "body").truthy? with
  | none => return some (.map [])
  | some body =>
    match Json.readPoints (← textIn body) with
    | .ok v => return some v
    | .error .notJson => return none
    | .error .tooManyDigits => throw .malformed
    | .error .tooDeep => throw .tooDeep

/-- The text of a value, empty if it is falsy. -/
def textOf (v : Value) : Except Fault Value :=
  match v.truthy? with
  | none => .ok (.text "")
  | some v => v.shown.map .ofPoints

/-- A name from the query string, or else from the body, which then loses it. -/
def resolve (query : Value) (name : String) (body : Fields) : Except Fault (Value × Fields) := do
  match (← inside query name).truthy? with
  | some v => return (← textOf v, body)
  | none => return (← textOf (body.getD name), body.erase name)

/-- The operation of a verb on a record. -/
def operation (verb : Verb) (account id : Value) (body : Fields) : Operation :=
  let key : Value := .map [(.text "accountId", account), (.text "id", id)]
  match verb with
  | .get => .get key .null
  | .post =>
    .create (.map (body.put "accountId" account)) (if id.isTruthy then id else .null) .null
  | .patch => .update key (.map body) .null
  | .put => .replace key (.map body) .null
  | .delete => .delete key .null

/-! ### Requests -/

/-- What an event asks for: a response at once, or a verb on a record. -/
inductive Request where
  | refused (status : Nat) (text : String)
  | record (verb account id : Value) (body : Fields)

def Request.ofEvent (event : Value) : Except Fault Request := do
  let event ← event.fields
  let verb ← verbOf event
  match ← bodyOf event with
  | none => return .refused 400 "body must be JSON"
  | some (.map body) =>
    let query := event.getD "queryStringParameters"
    let (account, body) ← resolve query "accountId" body
    let (id, body) ← resolve query "id" body
    if !account.isTruthy || (!id.isTruthy && Verb.ofValue? verb != some .post) then
      return .refused 400 "accountId and id are required"
    else return .record verb account id body
  | some _ => return .refused 400 "body must be a JSON object"

/-- The schema of the table: every field is managed. -/
def schema : Schema := ⟨true, true, true⟩

/-- The handle on the table that a setting names. -/
def tableFor (setting : Option String) (sources : Sources) : Except Fault Table :=
  let name := Text.trim (setting.getD "")
  if name == "" then .error .tableUnset
  else Table.ofParts name true (.ok schema) sources Table.defaultAccountField

/-- Runs the operation of a verb and responds with its answer. -/
def dispatch (t : Table) (verb account id : Value) (body : Fields) (s : Session) :
    Except Fault Response × Session :=
  match Verb.ofValue? verb with
  | none => (verb.shown >>= fun name => refusal 405 (Text.points "unsupported method " ++ name), s)
  | some v =>
    match t.perform (operation v account id body) s with
    | (.ok answer, s) => (answerResponse v answer, s)
    | (.error f, s) => (faultResponse f, s)

def handle (setting : Option String) (sources : Sources) (event : Value) (s : Session) :
    Except Fault Response × Session :=
  match Request.ofEvent event with
  | .error f => (.error f, s)
  | .ok (.refused status text) => (refusal status (Text.points text), s)
  | .ok (.record verb account id body) =>
    match tableFor setting sources with
    | .error f => (.error f, s)
    | .ok t => dispatch t verb account id body s

end Endpoint

end ItemStore
