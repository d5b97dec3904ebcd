import ItemStore.Table.Prepare

/-! Operations in a session.

Every operation runs the same way: it is prepared, its request is sent, and the reply is
concluded. If preparation fails no call is made. What an operation announced is logged before its
call, and a failure of the service, or a record that is not there, is logged after it. -/
namespace ItemStore.Table

/-- The entry that says what an operation is about. -/
def announced (op : Operation) (context : Fields) : LogEntry := ⟨.debug, op.action, context⟩

/-- The entry that says how an operation failed. -/
def failed (op : Operation) (context : Fields) (text : Text.Points) : LogEntry :=
  ⟨.error, op.action, context.put "error" (.ofPoints text)⟩

/-- The entry that says how much an operation read. -/
def counted (op : Operation) (context : Fields) (p : Page) : LogEntry :=
  ⟨.debug, op.action,
    ((context.put "count" (.int p.count)).put "scanned_count" (.int p.scanned)).put
      "consumed_capacity" p.capacity⟩

/-- The answer to a response, and whether a record that was looked up is missing. -/
def conclude (op : Operation) (result : Fields) (response : Fields) : Except Fault Answer :=
  match op with
  | .get .. =>
    match (response.getD "Item").truthy? with
    | none => .error .notFound
    | some item => do return .value (.map (← Wire.decodeItem item))
  | .query .. => (Page.ofResponse response).map .page
  | .scan .. => (Page.ofResponse response).map .page
  | .create .. => .ok (.value (.map result))
  | .replace .. => .ok (.value (.map result))
  | .update .. => .ok (.value (.map result))
  | .delete .. =>
    match (response.getD "Attributes").truthy? with
    | none => .ok (.value (.map response))
    | some item => do
      return .value (.map (response.put "Attributes" (.map (← Wire.decodeItem item))))
  | .batchWrite .. => do return .value (.map (← Batch.decodeResponse response))
  | .listTables .. => .ok (.value (.map response))
  | .createTable .. => .ok (.value (.map response))
  | .deleteTable .. => .ok (.value (.map response))

/-- What a caller is told of a fault of the transport. -/
def interpret (op : Operation) : Fault → Fault
  | .service e => if op.interpretsErrors then Fault.ofServiceError e else .service e
  | f => f

/-- What is logged after a call that failed. -/
def failureEntries (op : Operation) (context : Fields) : Fault → List LogEntry
  | .service e => [failed op context e.text]
  | _ => []

/-- What is logged after a reply. -/
def replyEntries (op : Operation) (context : Fields) : Except Fault Answer → List LogEntry
  | .ok (.page p) => [counted op context p]
  | .error .notFound => [failed op context Fault.notFoundText]
  | _ => []

/-- Entries about what an operation announced; one that announced nothing logs nothing. -/
def entriesAbout (context : Option Fields) (entries : Fields → List LogEntry) : List LogEntry :=
  match context with
  | some c => entries c
  | none => []

def perform (t : Table) (op : Operation) (s : Session) : Except Fault Answer × Session :=
  let (prepared, progress) := t.prepare op ⟨s.draws, none⟩
  let s : Session :=
    { s with
      draws := progress.draws
      log := s.log ++ entriesAbout progress.context fun c => [announced op c] }
  match prepared with
  | .error f => (.error f, s)
  | .ok p =>
    let (reply, transport) := s.transport.send op.method p.request
    let s := { s with transport := transport }
    match reply with
    | .error f =>
      (.error (interpret op f),
        { s with log := s.log ++ entriesAbout progress.context (failureEntries op · f) })
    | .ok response =>
      let answer := conclude op p.result response
      (answer, { s with log := s.log ++ entriesAbout progress.context (replyEntries op · answer) })

/-- Runs operations one after the other, each on the session the one before it left. -/
def performAll (t : Table) : List Operation → Session → List (Except Fault Answer) × Session
  | [], s => ([], s)
  | op :: ops, s =>
    let (answer, s) := t.perform op s
    let (answers, s) := t.performAll ops s
    (answer :: answers, s)

end ItemStore.Table
