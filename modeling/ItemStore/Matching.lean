import ItemStore.Value.Comparison
import ItemStore.Value.Writing

/-! Matching a request against an expectation.

An expected map asks for its own entries and allows others; an expected list asks for the same
number of items, each matching its own; the wildcard allows anything; any other value asks for one
that equals it. The first difference is reported with the path that leads to it, so a check fails
otherwise if it comes upon a key that cannot be written into a path or a value that cannot be
quoted. -/
namespace ItemStore.Matching

open ItemStore.Text (Points points)

/-- A key as a step of a path. -/
def keyStep (path : Points) (k : Value) : Except Fault Points := do
  return path ++ points "." ++ (← k.shown)

def itemStep (path : Points) (i : Nat) : Points := path ++ points s!"[{i}]"

mutual

def check (path : Points) : Value → Value → Except Fault Unit
  | .wildcard, _ => .ok ()
  | .map es, .map fs => checkEntries path es fs
  | .map _, got => .error (.mismatch (.notMap path got))
  | .list es, .list xs =>
    if es.length = xs.length then checkItems path 0 es xs
    else .error (.mismatch (.wrongLength path es.length xs.length))
  | .list _, got => .error (.mismatch (.notList path got))
  | expected, got => do
    if !(← expected.equals got) then
      throw (expected.quotedIn (got.quotedIn (.mismatch (.different path expected got))))

def checkEntries (path : Points) : List (Value × Value) → Fields → Except Fault Unit
  | [], _ => .ok ()
  | (k, v) :: es, fs =>
    match fs.getKey? k with
    | none => .error (k.quotedIn (.mismatch (.missingKey path k)))
    | some got => do
      check (← keyStep path k) v got
      checkEntries path es fs

def checkItems (path : Points) (i : Nat) : List Value → List Value → Except Fault Unit
  | e :: es, x :: xs => do
    check (itemStep path i) e x
    checkItems path (i + 1) es xs
  | _, _ => .ok ()

end

end ItemStore.Matching
