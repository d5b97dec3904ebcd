import ItemStore.Decimal.Limits
import ItemStore.ServiceError
import ItemStore.Value.Display
import ItemStore.Value.Identity

/-! Faults.

A fault is the cause for which an operation gave no answer. Four kinds are meant for callers: a
mistake in what they passed, a record that is not there, a condition that did not hold, and a
failure of the service. The rest come through as they are: an error of the service that an
operation does not interpret, a number the store cannot hold, wire data that is not well-formed,
values of the wrong shape, and whatever exception a transport was told to raise. -/
namespace ItemStore

open ItemStore.Text (Points points)

/-- What is wrong with what a caller passed. -/
inductive CallerFault where
  | keyShape
  | keyName (name : Value)
  | keyValue (name : Points)
  | keyEmpty (name : Points)
  | keyCount
  | itemShape
  | attributesShape
  | noUpdates
  | nameCollision (ref : Points)
  | valueCollision (ref : Points)
  | reserved (name : String)
  | writeRequest
  | floatValue
  | nonFinite
  | unsupported (value : Value)
deriving DecidableEq, Repr, Inhabited

/-- How a call differs from the call that was expected. A path leads to the difference. -/
inductive Mismatch where
  | unexpected (method : String)
  | wrongMethod (expected got : String)
  | notMap (path : Points) (got : Value)
  | missingKey (path : Points) (key : Value)
  | notList (path : Points) (got : Value)
  | wrongLength (path : Points) (expected got : Nat)
  | different (path : Points) (expected got : Value)
  /-- The calls that were not made, as they are written. -/
  | pending (queue : String)
deriving DecidableEq, Repr, Inhabited

/-- An exception that is no error of the service, by its class, its text, and the way it is written
inside a text. -/
structure Raised where
  kind : String
  text : Points
  literal : String
deriving DecidableEq, Repr, Inhabited

inductive Fault where
  | caller (c : CallerFault)
  | notFound
  | conflict (cause : ServiceError)
  | internal (code : Points) (cause : ServiceError)
  | service (e : ServiceError)
  /-- An exception that the transport raised as it was told. -/
  | raised (e : Raised)
  | mismatch (m : Mismatch)
  /-- A number the store cannot hold. -/
  | number (s : Decimal.Signal)
  /-- A wire value without a type. -/
  | untyped
  | unknownType (name : Points)
  /-- A binary wire value that is not plain bytes. -/
  | notBinary
  | tableNameMissing
  | clientMissing
  | tableUnset
  | missingEntry (name : String)
  /-- A value is asked for its entries and has none. -/
  | noEntries
  /-- The transport has no such method. -/
  | noMethod
  /-- A value of a type that cannot be used where it stands. -/
  | wrongType
  /-- A text or a list that does not read as what it should be, or an integer with too many digits
  to be written out. -/
  | malformed
  /-- Bytes that hold no text. -/
  | undecodable
  /-- A NaN in a comparison. -/
  | incomparable
  /-- Values in values beyond what can be read. -/
  | tooDeep
  /-- A time outside the calendar, or an infinity where an integer is due. -/
  | outOfRange
  /-- A limit of retries below zero. -/
  | retryLimit
deriving DecidableEq, Repr, Inhabited

namespace CallerFault

/-- The full name of the type of a value that the store has no type for. -/
def className : Value → String
  | .date _ => "datetime.date"
  | .wildcard => "dynamo_adapter.mocks._AnySentinel"
  | v => v.typeName

/-- The type of a value the store has no type for, and the value itself; the members of a set stand
in the order in which they are held. -/
def unsupportedText (v : Value) : Points :=
  points ("Unsupported type \"<class '" ++ className v ++ "'>\" for value \"") ++
    v.shown?.getD [] ++ points "\""

def message : CallerFault → Points
  | .keyShape => points "malformed key: expected a non-empty mapping"
  | .keyName name => points ("malformed key: invalid field name " ++ name.literal)
  | .keyValue name =>
    points "malformed key: " ++ name ++ points " must be a string, number or binary value"
  | .keyEmpty name => points "malformed key: " ++ name ++ points " must not be empty"
  | .keyCount => points "malformed key: expected a partition key and an optional sort key"
  | .itemShape => points "item must be a mapping"
  | .attributesShape => points "attributes must be a mapping"
  | .noUpdates => points "no updates provided"
  | .nameCollision ref => points "expression attribute name collision: " ++ ref
  | .valueCollision ref => points "expression attribute value collision: " ++ ref
  | .reserved name => points (name ++ " must not be passed in params")
  | .writeRequest => points "write request must be a PutRequest or a DeleteRequest"
  | .floatValue => points "Float types are not supported. Use Decimal types instead."
  | .nonFinite => points "Infinity and NaN not supported"
  | .unsupported v => unsupportedText v

end CallerFault

def Mismatch.message : Mismatch → Points
  | .unexpected method => points ("unexpected call: " ++ method)
  | .wrongMethod expected got => points ("expected " ++ expected ++ ", got " ++ got)
  | .notMap path got => path ++ points (": expected dict, got " ++ got.typeName)
  | .missingKey path key => path ++ points (": missing key " ++ key.literal)
  | .notList path got => path ++ points (": expected list, got " ++ got.typeName)
  | .wrongLength path expected got => path ++ points s!": expected {expected} items, got {got}"
  | .different path expected got =>
    path ++ points (": expected " ++ expected.literal ++ ", got " ++ got.literal)
  | .pending queue => points ("pending expected calls: " ++ queue)

namespace Fault

/-- What is said of a record that is not there. -/
def notFoundText : Points := points "Requested resource not found."

/-- What is said of a condition that did not hold. -/
def conflictText : Points := points "Requested resource already exists."

/-- What is said of a failure of the service. -/
def internalText : Points := points "Something went wrong with DB server."

/-- What a fault says, if it has words of its own. -/
def message? : Fault → Option Points
  | .caller c => some c.message
  | .notFound => some notFoundText
  | .conflict _ => some conflictText
  | .internal code _ => some (code ++ points ": " ++ internalText)
  | .service e => some e.text
  | .raised e => some e.text
  | .mismatch m => some m.message
  | .untyped =>
    some (points "Value must be a nonempty dictionary whose key is a valid dynamodb type.")
  | .unknownType name => some (points "Dynamodb type " ++ name ++ points " is not supported")
  | .notBinary =>
    some (points "Value must be of the following types: <class 'bytearray'>, <class 'bytes'>")
  | .tableNameMissing => some (points "table_name is required")
  | .clientMissing => some (points "client is required")
  | .tableUnset => some (points "TABLE_NAME is required")
  | .missingEntry name => some (points (Text.quoted name))
  | _ => none

/-- The service error a fault was raised for. -/
def cause? : Fault → Option ServiceError
  | .conflict e => some e
  | .internal _ e => some e
  | _ => none

/-- What a caller is told of a service error: a condition that did not hold is a conflict, and
anything else is a failure of the service, with the code if there is one. -/
def ofServiceError (e : ServiceError) : Fault :=
  if e.codeText = points "ConditionalCheckFailedException" then .conflict e
  else .internal (if e.codeText = [] then points "UnknownError" else e.codeText) e

end Fault

end ItemStore
