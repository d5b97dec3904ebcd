import ItemStore.Wire.Encode

/-! Updates.

An update is what is left of the new attributes of a record once the fields of its key are taken
away. Its fields are numbered from 1 in their order; field `i` is called `#parami` in the text of
the update, and the value it is set to `:vali`. A field whose value is the empty text is removed
instead, and so has a name but no value. -/
namespace ItemStore

/-- Placeholders and what they stand for, in order. -/
abbrev References := List (String × Value)

namespace References

def toFields (rs : References) : Fields := rs.map fun r => (.text r.1, r.2)

end References

/-- The fields to write, at least one. -/
structure Update where
  fields : Fields

namespace Update

/-- A field with its number. -/
structure Numbered where
  index : Nat
  name : Value
  value : Value

def Numbered.nameRef (f : Numbered) : String := "#param" ++ toString f.index

def Numbered.valueRef (f : Numbered) : String := ":val" ++ toString f.index

def Numbered.isRemoved (f : Numbered) : Bool := f.value.isDeleteSentinel

/-- The update of some fields, of which there has to be one. -/
def ofFields : Fields → Except Fault Update
  | [] => .error (.caller .noUpdates)
  | fs => .ok ⟨fs⟩

/-- The update of the attributes that are no key fields. -/
def compile (key attributes : Fields) : Except Fault Update :=
  ofFields (attributes.filter fun a => !Fields.hasKey key a.1)

/-- As `compile`, where the key may be any value that can be asked for a name. -/
def compileValues (key attributes : Value) : Except Fault Update := do
  ofFields (← (← attributes.fields).filterM fun a => do return !(← key.mentions a.1))

def numberFrom : Nat → Fields → List Numbered
  | _, [] => []
  | i, (name, value) :: fs => ⟨i, name, value⟩ :: numberFrom (i + 1) fs

def numbered (u : Update) : List Numbered := numberFrom 1 u.fields

/-! ### Placeholders -/

def names (u : Update) : References := u.numbered.map fun f => (f.nameRef, f.name)

def assigned (u : Update) : List Numbered := u.numbered.filter fun f => !f.isRemoved

def removed (u : Update) : List Numbered := u.numbered.filter Numbered.isRemoved

def values (u : Update) : References := u.assigned.map fun f => (f.valueRef, f.value)

/-! ### Text -/

/-- A keyword and the parts that follow it; nothing if there are none. -/
def clause (keyword : String) : List String → String
  | [] => ""
  | parts => keyword ++ " " ++ ", ".intercalate parts

def setClause (u : Update) : String :=
  clause "SET" (u.assigned.map fun f => f.nameRef ++ " = " ++ f.valueRef)

def removeClause (u : Update) : String := clause "REMOVE" (u.removed.map Numbered.nameRef)

/-- The text of the update. Each clause has a space before it, even when it is empty. -/
def expression (u : Update) : String := " " ++ u.setClause ++ " " ++ u.removeClause

end Update

end ItemStore
