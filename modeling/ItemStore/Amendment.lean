import ItemStore.Value.Shape

/-! Amendments of a request.

An amendment looks at a request as it is, may fail, and writes parameters into it. What it wrote
before it failed stays written, so only one that checks first and writes last leaves the request
alone when it fails. `amend_checked` says that of every amendment made by `checked`. -/
namespace ItemStore

/-- A change of a request that may fail. -/
abbrev Amendment := ExceptT Fault (StateM Fields)

namespace Amendment

/-- Checks a request and writes what the check found. -/
def checked {α : Type} (check : Fields → Except Fault α) (write : α → Fields → Fields) :
    Amendment Unit := do
  match check (← get) with
  | .ok found => modify (write found)
  | .error f => throw f

/-- The outcome of an amendment and the request it leaves. -/
def amend (x : Amendment Unit) (req : Fields) : Except Fault Unit × Fields := x.run.run req

/-- The request that an amendment makes of a request, unless it fails. -/
def result (x : Amendment Unit) (req : Fields) : Except Fault Fields :=
  let (outcome, req) := x.amend req
  outcome.map fun _ => req

/-- A failed check leaves the request as it was. -/
theorem amend_checked {α : Type} (check : Fields → Except Fault α) (write : α → Fields → Fields)
    (req : Fields) :
    (checked check write).amend req =
      match check req with
      | .ok found => (.ok (), write found req)
      | .error f => (.error f, req) := by
  change (match check req with
    | .ok found => (modify (write found) : Amendment Unit)
    | .error f => throw f).run.run req = _
  cases check req <;> rfl

theorem result_checked {α : Type} (check : Fields → Except Fault α) (write : α → Fields → Fields)
    (req : Fields) :
    (checked check write).result req = (check req).map fun found => write found req := by
  unfold result
  rw [amend_checked]
  cases check req <;> rfl

end Amendment

end ItemStore
