import ItemStore.Value.Basic

/-! Values in the place of others.

What a collection holds, and a key of a map, is looked for by what it is like. Numbers are the same
if they stand for one number, whatever their type, and bytes if they hold the same data, however
they are held. Lists and tuples are compared in order; sets and maps are not. A NaN is the same as
the very NaN that it is, which can stand in several places, and as nothing else. -/
namespace ItemStore.Value

/-- Whether two values are one NaN in two places. -/
def isShared : Value → Value → Bool
  | .decimal d, .decimal e => d.object?.isSome && d == e
  | .float x, .float y => x.object?.isSome && x == y
  | _, _ => false

/-- Whether values without parts are the same. -/
def sameScalar : Value → Value → Bool
  | .null, .null => true
  | .text a, .text b => a == b
  | .torn a, .torn b => a == b
  | .bytes _ a, .bytes _ b => a == b
  | .date a, .date b => a == b
  | .wildcard, .wildcard => true
  | a, b =>
    match a.number?, b.number? with
    | some x, some y => isShared a b || x.sameNumber y
    | _, _ => false

mutual

def same : Value → Value → Bool
  | .list xs, .list ys => sameItems xs ys
  | .tuple xs, .tuple ys => sameItems xs ys
  | .set _ xs, .set _ ys => xs.length == ys.length && membersIn xs ys
  | .map es, .map fs => es.length == fs.length && entriesIn es fs
  | a, b => sameScalar a b

def sameItems : List Value → List Value → Bool
  | [], [] => true
  | x :: xs, y :: ys => same x y && sameItems xs ys
  | _, _ => false

/-- Whether each value has its like in a list. -/
def membersIn : List Value → List Value → Bool
  | [], _ => true
  | x :: xs, ys => ys.any (fun y => same x y) && membersIn xs ys

/-- Whether each entry has its like in a list. -/
def entriesIn : List (Value × Value) → List (Value × Value) → Bool
  | [], _ => true
  | (k, v) :: es, fs => fs.any (fun f => same k f.1 && same v f.2) && entriesIn es fs

end

/-- Only a text is the same as a text. -/
theorem same_text_iff {v : Value} {s : String} : v.same (.text s) = true ↔ v = .text s := by
  cases v <;> simp [same, sameScalar, number?]

theorem text_same (s t : String) : (Value.text s).same (.text t) = (s == t) := by
  simp [same, sameScalar]

/-- What is the same as one text is the same as no other. -/
theorem same_text_ne {v : Value} {n m : String} (h : v.same (.text n) = true) (hm : n ≠ m) :
    v.same (.text m) = false := by
  rw [same_text_iff.mp h, text_same]
  simpa using hm

/-- Keeps the first of values that are the same. -/
def distinct (vs : List Value) : List Value :=
  vs.foldl (fun seen v => if seen.any (fun u => same u v) then seen else seen ++ [v]) []

end ItemStore.Value
