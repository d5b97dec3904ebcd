import ItemStore.Value.Equality

/-! The entries of a map.

An entry is found by a key that is the same as its own. Writing to a key that is present keeps
its place; a new key goes last. Most keys are texts, so the names of `get?`, `put`, `erase` take
a name, and the names with `Key` take any value. `get?_put` and `get?_erase` say what a write and a
removal do to what is found under each name. -/
namespace ItemStore.Fields

open Value (same_text_ne text_same)

def getKey? (fs : Fields) (k : Value) : Option Value :=
  (fs.find? fun e => e.1.same k).map (·.2)

def hasKey (fs : Fields) (k : Value) : Bool := fs.any fun e => e.1.same k

def putKey : Fields → Value → Value → Fields
  | [], k, v => [(k, v)]
  | e :: fs, k, v => if e.1.same k then (e.1, v) :: fs else e :: putKey fs k v

def eraseKey (fs : Fields) (k : Value) : Fields := fs.filter fun e => !e.1.same k

def get? (fs : Fields) (name : String) : Option Value := getKey? fs (.text name)

/-- The value under a name, or null. -/
def getD (fs : Fields) (name : String) : Value := (get? fs name).getD .null

def has (fs : Fields) (name : String) : Bool := hasKey fs (.text name)

def put (fs : Fields) (name : String) (v : Value) : Fields := putKey fs (.text name) v

def erase (fs : Fields) (name : String) : Fields := eraseKey fs (.text name)

/-- Writes the entries of `upper` on top of `fs`, one after the other. -/
def overlay (fs upper : Fields) : Fields := upper.foldl (fun acc e => putKey acc e.1 e.2) fs

/-- The map that results from writing entries one after the other. -/
def ofEntries (es : List (Value × Value)) : Fields := overlay [] es

/-! ### What is found under a name -/

theorem get?_nil (n : String) : get? [] n = none := rfl

theorem get?_cons (e : Value × Value) (fs : Fields) (n : String) :
    get? (e :: fs) n = if e.1.same (.text n) then some e.2 else get? fs n := by
  cases h : e.1.same (.text n) <;> simp [get?, getKey?, h]

theorem get?_put (fs : Fields) (n m : String) (v : Value) :
    get? (put fs n v) m = if n = m then some v else get? fs m := by
  induction fs with
  | nil => simp [put, putKey, get?_cons, get?_nil, text_same]
  | cons e fs ih =>
    simp only [put, putKey] at ih ⊢
    cases hn : e.1.same (.text n) with
    | true =>
      rw [if_pos rfl, get?_cons, get?_cons]
      by_cases hm : n = m
      · simp [← hm, hn]
      · simp [hm, same_text_ne hn hm]
    | false =>
      rw [if_neg (by decide), get?_cons, get?_cons, ih]
      by_cases hm : n = m
      · simp [← hm, hn]
      · simp [hm]

theorem get?_erase (fs : Fields) (n m : String) :
    get? (erase fs n) m = if n = m then none else get? fs m := by
  induction fs with
  | nil => simp [erase, eraseKey, get?_nil]
  | cons e fs ih =>
    simp only [erase, eraseKey, List.filter_cons] at ih ⊢
    cases hn : e.1.same (.text n) with
    | true =>
      rw [if_neg (by decide), ih, get?_cons]
      by_cases hm : n = m
      · simp [hm]
      · simp [hm, same_text_ne hn hm]
    | false =>
      rw [if_pos (by decide), get?_cons, get?_cons, ih]
      by_cases hm : n = m
      · simp [← hm, hn]
      · simp [hm]

theorem has_eq_isSome (fs : Fields) (n : String) : has fs n = (get? fs n).isSome := by
  induction fs with
  | nil => rfl
  | cons e fs ih =>
    simp only [has, hasKey, List.any_cons] at ih ⊢
    rw [ih, get?_cons]
    cases e.1.same (.text n) <;> simp

end ItemStore.Fields
