import ItemStore.Text.Split
import ItemStore.Transport.Basic
import ItemStore.Value.Writing

/-! Failures in replies.

The service describes a failure in a response: under `Error` its code and message, under
`ResponseMetadata` how often the call was tried. -/
namespace ItemStore

namespace ServiceError

open ItemStore.Text (Points)

/-- The text of a field, if it is there. -/
def fieldText? (fs : Fields) (name : String) : Except Fault (Option Points) :=
  match fs.get? name with
  | none => .ok none
  | some v => v.shown.map some

/-- The number of retries, if the response says that they are used up. -/
def retriesOf (response : Value) : Except Fault (Option Points) := do
  if ← response.mentions (.text "ResponseMetadata") then
    let metadata ← (← response.entry "ResponseMetadata").fields
    if (metadata.getD "MaxAttemptsReached").isTruthy then fieldText? metadata "RetryAttempts"
    else return none
  else return none

/-- The error a response describes. -/
def ofResponse (operation : String) (response : Value) : Except Fault ServiceError := do
  let retries ← retriesOf response
  let error ← (((← response.fields).get? "Error").getD (.map [])).fields
  return ⟨operation, ← fieldText? error "Code", ← fieldText? error "Message", retries⟩

end ServiceError

/-- A word with its first letter in upper case and the others in lower case. -/
def capitalized (word : List Char) : List Char :=
  match word with
  | [] => []
  | c :: cs => c.toUpper :: cs.map Char.toLower

/-- The name of the operation behind a method: its words, each with a capital, in one. The names
of methods are ASCII. -/
def operationName (method : String) : String :=
  String.ofList ((Text.split '_' method.toList).flatMap capitalized)

/-- An expected call that fails with a code. -/
def Expectation.failing (method code message : String) : Expectation where
  method := method
  expected := .null
  reply := .failure (.ofCode (operationName method) code message)

end ItemStore
