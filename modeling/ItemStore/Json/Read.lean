import ItemStore.Text.DecimalDigit
import ItemStore.Value.Fields

/-! JSON texts into values.

Besides the standard grammar, `NaN`, `Infinity` and `-Infinity` are numbers. An integer is exact,
and a number with a fraction or an exponent is the nearest double. Of entries with one name the
last counts, in the place of the first. A control character inside a string is refused. Two escapes
that spell a surrogate pair are one character; half of a pair that stands alone makes a torn text.
-/
namespace ItemStore.Json

open ItemStore.Text (Point isAsciiDigit numeralValue isHighHalf isLowHalf pairChar)

/-- Why a text has no value: it is not JSON, an integer in it has too many digits, or its values
are nested too deep. -/
inductive ReadError where
  | notJson
  | tooManyDigits
  | tooDeep
deriving DecidableEq, Repr

def isSpace : Point → Bool
  | .char c => c == ' ' || c == '\t' || c == '\n' || c == '\r'
  | .half _ => false

def skipSpace (ps : List Point) : List Point := ps.dropWhile isSpace

/-! ### Strings -/

def hexDigit? : Point → Option Nat
  | .char c =>
    if isAsciiDigit c then some (c.toNat - '0'.toNat)
    else if 'a' ≤ c && c ≤ 'f' then some (c.toNat - 'a'.toNat + 10)
    else if 'A' ≤ c && c ≤ 'F' then some (c.toNat - 'A'.toNat + 10)
    else none
  | .half _ => none

/-- The number four hexadecimal digits stand for. -/
def hexUnit? (a b c d : Point) : Option Nat := do
  return ((← hexDigit? a) * 16 + (← hexDigit? b)) * 256 + ((← hexDigit? c) * 16 + (← hexDigit? d))

/-- The point of a unit of sixteen bits. -/
def unitPoint (u : Nat) : Point :=
  if isHighHalf u || isLowHalf u then .half u else .char (Char.ofNat u)

/-- The character an escape of one letter stands for. -/
def escaped? : Char → Option Char
  | '"' => some '"'
  | '\\' => some '\\'
  | '/' => some '/'
  | 'b' => some '\x08'
  | 'f' => some '\x0c'
  | 'n' => some '\n'
  | 'r' => some '\r'
  | 't' => some '\t'
  | _ => none

/-- The character a high half makes with the escape behind it, if that spells a low half. -/
def paired? (high : Nat) : List Point → Option (Point × List Point)
  | .char '\\' :: .char 'u' :: a :: b :: c :: d :: rest => do
    let low ← hexUnit? a b c d
    if isHighHalf high && isLowHalf low then some (.char (pairChar high low), rest) else none
  | _ => none

/-- The point that an escape stands for, and what follows it; the backslash is taken off. -/
def escape? : List Point → Option (Point × List Point)
  | .char 'u' :: a :: b :: c :: d :: rest => do
    let u ← hexUnit? a b c d
    return (paired? u rest).getD (unitPoint u, rest)
  | .char c :: rest => do return (.char (← escaped? c), rest)
  | _ => none

theorem length_lt_of_paired? {high : Nat} {ps rest : List Point} {p : Point}
    (h : paired? high ps = some (p, rest)) : rest.length < ps.length := by
  unfold paired? at h
  split at h
  · simp only [Option.bind_eq_bind, Option.bind_eq_some_iff] at h
    obtain ⟨low, _, h⟩ := h
    split at h
    · simp only [Option.some.injEq, Prod.mk.injEq] at h
      simp only [← h.2, List.length_cons]
      omega
    · simp at h
  · simp at h

theorem length_lt_of_escape? {ps rest : List Point} {p : Point}
    (h : escape? ps = some (p, rest)) : rest.length < ps.length := by
  unfold escape? at h
  split at h
  · next a b c d tail =>
    simp only [Option.bind_eq_bind, Option.bind_eq_some_iff, Option.pure_def,
      Option.some.injEq] at h
    obtain ⟨u, _, h⟩ := h
    cases hp : paired? u tail with
    | none =>
      simp only [hp, Option.getD_none, Prod.mk.injEq] at h
      simp only [← h.2, List.length_cons]
      omega
    | some q =>
      simp only [hp, Option.getD_some] at h
      subst h
      have := length_lt_of_paired? hp
      simp only [List.length_cons]
      omega
  · simp only [Option.bind_eq_bind, Option.bind_eq_some_iff, Option.pure_def,
      Option.some.injEq, Prod.mk.injEq] at h
    obtain ⟨_, _, _, h⟩ := h
    simp [← h]
  · simp at h

/-- The points up to the closing quote, and what follows it. -/
def readString : List Point → Except ReadError (List Point × List Point)
  | [] => .error .notJson
  | p :: ps =>
    if p = .char '"' then .ok ([], ps)
    else if p = .char '\\' then
      match h : escape? ps with
      | none => .error .notJson
      | some (q, rest) =>
        have := length_lt_of_escape? h
        (readString rest).map fun (qs, rest) => (q :: qs, rest)
    else if p.number < 0x20 then .error .notJson
    else (readString ps).map fun (qs, rest) => (p :: qs, rest)
termination_by ps => ps.length

/-! ### Numbers -/

def isDigit : Point → Bool
  | .char c => isAsciiDigit c
  | .half _ => false

def spanDigits (ps : List Point) : List Point × List Point :=
  (ps.takeWhile isDigit, ps.dropWhile isDigit)

def digitsValue (ps : List Point) : Nat := numeralValue (ps.map fun p => p.number - '0'.toNat)

/-- The digits in front of the point: no zero in front of another digit. -/
def readWhole? : List Point → Option (List Point × List Point)
  | .char '0' :: rest => some ([.char '0'], rest)
  | ps =>
    match spanDigits ps with
    | ([], _) => none
    | (ds, rest) => some (ds, rest)

/-- A point with digits behind it; a point without any belongs to what follows. -/
def readFraction? : List Point → Option (List Point × List Point)
  | .char '.' :: rest =>
    match spanDigits rest with
    | ([], _) => none
    | (ds, rest) => some (ds, rest)
  | _ => none

/-- The sign of an exponent, and what follows it. -/
def readExponentSign : List Point → Bool × List Point
  | .char '-' :: rest => (true, rest)
  | .char '+' :: rest => (false, rest)
  | rest => (false, rest)

/-- An exponent with digits; an `e` without any belongs to what follows. -/
def readExponent? : List Point → Option (Int × List Point)
  | p :: rest =>
    if p = .char 'e' || p = .char 'E' then
      let (negative, rest) := readExponentSign rest
      match spanDigits rest with
      | ([], _) => none
      | (ds, rest) => some (if negative then -(digitsValue ds : Int) else digitsValue ds, rest)
    else none
  | [] => none

def readNumber (negative : Bool) (ps : List Point) : Except ReadError (Value × List Point) :=
  match readWhole? ps with
  | none => .error .notJson
  | some (whole, rest) =>
    let fraction := readFraction? rest
    let (places, rest) := fraction.getD ([], rest)
    let exponent := readExponent? rest
    let (e, rest) := exponent.getD (0, rest)
    if fraction.isNone && exponent.isNone then
      if Decimal.maxDigits < whole.length then .error .tooManyDigits
      else
        let n : Int := digitsValue whole
        .ok (.int (if negative then -n else n), rest)
    else
      let d := Decimal.finite negative (digitsValue (whole ++ places)) (e - places.length)
      .ok (.float (Double.ofDecimal d), rest)

/-! ### Values -/

/-- Takes a word off the front. -/
def afterWord? (word : String) (ps : List Point) : Option (List Point) :=
  let word := Text.points word
  if word.isPrefixOf ps then some (ps.drop word.length) else none

/-- The words that are values. -/
def words : List (String × Value) :=
  [("null", .null), ("true", .bool true), ("false", .bool false), ("NaN", .float (.nan none)),
   ("Infinity", .float (.infinity false)), ("-Infinity", .float (.infinity true))]

def readWord? (ps : List Point) : Option (Value × List Point) :=
  words.findSome? fun (word, v) => (afterWord? word ps).map fun rest => (v, rest)

def readScalar (ps : List Point) : Except ReadError (Value × List Point) :=
  match readWord? ps with
  | some r => .ok r
  | none =>
    match ps with
    | .char '-' :: rest => readNumber true rest
    | ps => readNumber false ps

/-- How deep values can be nested. -/
def maxDepth : Nat := 988

mutual

/-- The value at the front of a text, with values no deeper than `room` inside it. Each value takes
some fuel, so the length of the text is enough of it. -/
def readValue (fuel room : Nat) (ps : List Point) : Except ReadError (Value × List Point) :=
  match fuel with
  | 0 => .error .notJson
  | fuel + 1 =>
    match ps with
    | .char '"' :: rest => do
      let (s, rest) ← readString rest
      return (Value.ofPoints s, rest)
    | .char '[' :: rest =>
      match room with
      | 0 => .error .tooDeep
      | room + 1 =>
        match skipSpace rest with
        | .char ']' :: rest => .ok (.list [], rest)
        | rest => do
          let (items, rest) ← readItems fuel room rest
          return (.list items, rest)
    | .char '\x7b' :: rest =>
      match room with
      | 0 => .error .tooDeep
      | room + 1 =>
        match skipSpace rest with
        | .char '\x7d' :: rest => .ok (.map [], rest)
        | rest => do
          let (entries, rest) ← readEntries fuel room rest
          return (.map (Fields.ofEntries entries), rest)
    | ps => readScalar ps

/-- Items up to the closing bracket. -/
def readItems (fuel room : Nat) (ps : List Point) : Except ReadError (List Value × List Point) :=
  match fuel with
  | 0 => .error .notJson
  | fuel + 1 => do
    let (v, rest) ← readValue fuel room ps
    match skipSpace rest with
    | .char ']' :: rest => return ([v], rest)
    | .char ',' :: rest => do
      let (vs, rest) ← readItems fuel room (skipSpace rest)
      return (v :: vs, rest)
    | _ => throw .notJson

/-- Entries up to the closing brace. -/
def readEntries (fuel room : Nat) (ps : List Point) :
    Except ReadError (List (Value × Value) × List Point) :=
  match fuel with
  | 0 => .error .notJson
  | fuel + 1 =>
    match ps with
    | .char '"' :: rest => do
      let (name, rest) ← readString rest
      match skipSpace rest with
      | .char ':' :: rest => do
        let (v, rest) ← readValue fuel room (skipSpace rest)
        let entry := (Value.ofPoints name, v)
        match skipSpace rest with
        | .char '\x7d' :: rest => return ([entry], rest)
        | .char ',' :: rest => do
          let (entries, rest) ← readEntries fuel room (skipSpace rest)
          return (entry :: entries, rest)
        | _ => throw .notJson
      | _ => throw .notJson
    | _ => .error .notJson

end

/-- The value of a text that holds one value and nothing else but space. -/
def readPoints (text : List Point) : Except ReadError Value := do
  let (v, rest) ← readValue (text.length + 1) maxDepth (skipSpace text)
  match skipSpace rest with
  | [] => return v
  | _ => throw .notJson

def read (text : String) : Except ReadError Value := readPoints (Text.points text)

end ItemStore.Json
