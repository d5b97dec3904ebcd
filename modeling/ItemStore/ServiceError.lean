import ItemStore.Text.Point

/-! Errors of the service.

A failed call comes back with a code, a message and, once the retries are used up, their number;
each may be absent, and each is a text that may be torn. `text` is the sentence all of them make. -/
namespace ItemStore

open ItemStore.Text (Points points)

structure ServiceError where
  operation : String
  code : Option Points
  message : Option Points
  /-- The number of retries, if they are used up. -/
  retries : Option Points
deriving DecidableEq, Repr, Inhabited

namespace ServiceError

/-- What stands for a code or a message that is absent. -/
def unknown : Points := points "Unknown"

def retryText (e : ServiceError) : Points :=
  match e.retries with
  | some n => points " (reached max retries: " ++ n ++ points ")"
  | none => []

def text (e : ServiceError) : Points :=
  points "An error occurred (" ++ e.code.getD unknown ++
    points (") when calling the " ++ e.operation ++ " operation") ++ e.retryText ++ points ": " ++
      e.message.getD unknown

/-- The code, empty if there is none. -/
def codeText (e : ServiceError) : Points := e.code.getD []

/-- An error with a code, which also serves as the message if that is empty. -/
def ofCode (operation code message : String) : ServiceError where
  operation := operation
  code := some (points code)
  message := some (points (if message == "" then code else message))
  retries := none

end ServiceError

end ItemStore
