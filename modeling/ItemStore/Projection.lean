import ItemStore.Amendment
import ItemStore.Text.Split

/-! Projections.

A caller lists the fields to read between commas. In the request each field `f` stands as `#f`,
and a table of names says what `#f` means, so that no field can be taken for a word of the store's
language. -/
namespace ItemStore

/-- The fields to read, in order, each by its points. -/
structure Projection where
  fields : List Text.Points

namespace Projection

open ItemStore.Text (Points)

/-- What stands for a field in the request. -/
def ref (field : Points) : Points := .char '#' :: field

/-- The projection on a list of fields between commas; none if the text is empty. -/
def ofPoints? (text : Points) : Option Projection :=
  if text.isEmpty then none else some ⟨Text.split (.char ',') text⟩

def expression (p : Projection) : Value :=
  .ofPoints ((Text.points ", ").intercalate (p.fields.map ref))

/-- What the placeholders mean. -/
def names (p : Projection) : Fields :=
  Fields.ofEntries (p.fields.map fun f => (.ofPoints (ref f), .ofPoints f))

/-- Adds placeholders with their fields; none may mean something else already. -/
def addNames (table : Fields) : Fields → Except Fault Fields
  | [] => .ok table
  | (ref, field) :: es =>
    if ((table.getKey? ref).getD field).same field then addNames (table.putKey ref field) es
    else .error (.caller (.nameCollision (ref.points?.getD [])))

/-- The projection a request asks for. -/
def requested? (v : Value) : Except Fault (Option Projection) :=
  match v with
  | .text s => .ok (ofPoints? (Text.points s))
  | .torn t => .ok (ofPoints? t.points)
  | .bytes ⟨_, false⟩ data => if data.isEmpty then .ok none else .error .wrongType
  | v => if v.isTruthy then .error .noEntries else .ok none

/-- The projection a request asks for and the table of names that it has with it. -/
def table? (req : Fields) : Except Fault (Option (Projection × Fields)) := do
  match ← requested? (req.getD "ProjectionExpression") with
  | none => return none
  | some p =>
    let names ← (req.getD "ExpressionAttributeNames").toFieldsOrEmpty
    return some (p, ← addNames names p.names)

/-- Writes a projection with its table of names; an empty projection is taken out. -/
def write (found : Option (Projection × Fields)) (req : Fields) : Fields :=
  match found with
  | none => req.erase "ProjectionExpression"
  | some (p, names) =>
    (req.put "ProjectionExpression" p.expression).put "ExpressionAttributeNames" (.map names)

/-- Spells out the projection of a request. -/
def spellOut : Amendment Unit := .checked table? write

end Projection

end ItemStore
