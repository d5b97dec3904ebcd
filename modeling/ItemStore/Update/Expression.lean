import ItemStore.Update.Attach

/-! What the text of an update does to a record.

The text of an update is read by its grammar: an optional `SET` with assignments between commas,
then an optional `REMOVE` with names between commas. Every name and every value in it is a
placeholder, which the tables of the request resolve; one that no table knows leaves the update
without a meaning. -/
namespace ItemStore

/-- What the text of an update says, in placeholders. -/
structure UpdateExpression where
  assigned : List (String × String)
  removed : List String
deriving DecidableEq, Repr, Inhabited

namespace UpdateExpression

/-! ### Reading -/

inductive Token where
  | word (w : String)
  | comma
  | equals
deriving DecidableEq, Repr

/-- Puts a word in front of tokens, given its letters backwards; no letters are no word. -/
def consWord : List Char → List Token → List Token
  | [], ts => ts
  | letters, ts => .word (String.ofList letters.reverse) :: ts

/-- The tokens of a text in which some letters of a word have been read, kept backwards. -/
def tokensFrom (letters : List Char) : List Char → List Token
  | [] => consWord letters []
  | c :: cs =>
    if c = ' ' then consWord letters (tokensFrom [] cs)
    else if c = ',' then consWord letters (.comma :: tokensFrom [] cs)
    else if c = '=' then consWord letters (.equals :: tokensFrom [] cs)
    else tokensFrom (c :: letters) cs

def tokens (text : String) : List Token := tokensFrom [] text.toList

/-- Assignments between commas, at least one, and what follows them. -/
def assignments? : List Token → Option (List (String × String) × List Token)
  | .word name :: .equals :: .word value :: .comma :: ts =>
    (assignments? ts).map fun (rest, ts) => ((name, value) :: rest, ts)
  | .word name :: .equals :: .word value :: ts => some ([(name, value)], ts)
  | _ => none

/-- Names between commas, at least one, and what follows them. -/
def names? : List Token → Option (List String × List Token)
  | .word name :: .comma :: ts => (names? ts).map fun (rest, ts) => (name :: rest, ts)
  | .word name :: ts => some ([name], ts)
  | _ => none

/-- The second clause, which ends the text. -/
def removal? : List Token → Option (List String)
  | [] => some []
  | .word "REMOVE" :: ts =>
    match names? ts with
    | some (names, []) => some names
    | _ => none
  | _ => none

/-- What a text says, if it is an update. -/
def read? (text : String) : Option UpdateExpression :=
  match tokens text with
  | .word "SET" :: ts => do
    let (assigned, ts) ← assignments? ts
    return ⟨assigned, ← removal? ts⟩
  | ts => do return ⟨[], ← removal? ts⟩

/-! ### Meaning -/

/-- Assigns values to fields of a record, through the tables of names and values. -/
def assign (names values : Fields) : List (String × String) → Fields → Option Fields
  | [], item => some item
  | (name, value) :: rest, item => do
    assign names values rest (item.putKey (← names.get? name) (← values.get? value))

/-- Removes fields of a record, through the table of names. -/
def remove (names : Fields) : List String → Fields → Option Fields
  | [], item => some item
  | name :: rest, item => do remove names rest (item.eraseKey (← names.get? name))

/-- The record that an update leaves of a record. -/
def apply (u : UpdateExpression) (names values item : Fields) : Option Fields := do
  remove names u.removed (← assign names values u.assigned item)

/-- The entries of a map; none if the value is no map. -/
def table : Value → Fields
  | .map fs => fs
  | _ => []

/-- The record that a request to update leaves of a record. -/
def perform (req item : Fields) : Option Fields :=
  match req.getD "UpdateExpression" with
  | .text text => do
    (← read? text).apply (table (req.getD "ExpressionAttributeNames"))
      (table (req.getD "ExpressionAttributeValues")) item
  | _ => none

/-- A text with both clauses. -/
example : read? " SET #param1 = :val1, #param2 = :val2 REMOVE #param3" =
    some ⟨[("#param1", ":val1"), ("#param2", ":val2")], ["#param3"]⟩ := by
  decide +kernel

end UpdateExpression

end ItemStore
