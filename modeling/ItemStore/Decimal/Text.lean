import ItemStore.Decimal.Basic
import ItemStore.Text.DecimalDigit

/-! The text of a decimal.

`text` writes a decimal so that coefficient and exponent can both be read off: without an
exponent when the exponent is not positive and the first digit stands no further than six places
behind the point, and with one digit in front of the point otherwise. `read?` accepts more than
`text` writes: any letter case, a sign, a point at either end, and the digits of any script. -/
namespace ItemStore.Decimal

open ItemStore.Text

/-! ### Writing -/

/-- Digits with the last `places` of them behind the point. -/
def plain (ds : List Char) (places : Nat) : List Char :=
  if places = 0 then ds
  else
    let padded := List.replicate (places + 1 - ds.length) '0' ++ ds
    padded.take (padded.length - places) ++ '.' :: padded.drop (padded.length - places)

/-- Digits with the first of them in front of the point. -/
def mantissa : List Char → List Char
  | d :: e :: rest => d :: '.' :: e :: rest
  | ds => ds

def signText (negative : Bool) : List Char := if negative then ['-'] else []

/-- An exponent with its sign, in at least `width` digits. -/
def exponentText (width : Nat) (e : Int) : List Char :=
  let ds := digits e.natAbs
  (if e < 0 then '-' else '+') :: (List.replicate (width - ds.length) '0' ++ ds)

def chars : Decimal → List Char
  | .finite negative c e =>
    signText negative ++
      if e ≤ 0 ∧ -6 ≤ adjusted c e then plain (digits c) (-e).toNat
      else mantissa (digits c) ++ 'E' :: exponentText 1 (adjusted c e)
  | .infinity negative => signText negative ++ "Infinity".toList
  | .nan negative signalling payload _ =>
    signText negative ++ (if signalling then ['s'] else []) ++ "NaN".toList ++
      (if payload = 0 then [] else digits payload)

def text (d : Decimal) : String := String.ofList d.chars

/-! ### Reading -/

/-- An optional sign in front of the rest. -/
def readSign : List Char → Bool × List Char
  | '-' :: cs => (true, cs)
  | '+' :: cs => (false, cs)
  | cs => (false, cs)

/-- Nothing, or an `e` with a signed numeral that ends the text. -/
def readExponent? : List Char → Option Int
  | [] => some 0
  | c :: cs =>
    if c.toLower = 'e' then
      let (negative, rest) := readSign cs
      match spanDigits rest with
      | ([], _) => none
      | (ds, []) => some (if negative then -(numeralValue ds : Int) else numeralValue ds)
      | _ => none
    else none

/-- Digits with an optional point among them or at an end, then an optional exponent. -/
def readFinite? (negative : Bool) (cs : List Char) : Option Decimal :=
  let (whole, rest) := spanDigits cs
  let (fraction, rest) :=
    match rest with
    | '.' :: rest => spanDigits rest
    | rest => ([], rest)
  if whole.isEmpty && fraction.isEmpty then none
  else (readExponent? rest).map fun e =>
    .finite negative (numeralValue (whole ++ fraction)) (e - fraction.length)

/-- The payload of a NaN: nothing but digits. -/
def readPayload? (cs : List Char) : Option Nat :=
  match spanDigits cs with
  | (ds, []) => some (numeralValue ds)
  | _ => none

/-- The decimal a numeral stands for; `none` if the text is no numeral. -/
def readChars? (cs : List Char) : Option Decimal :=
  let (negative, rest) := readSign cs
  match rest.map Char.toLower with
  | ['i', 'n', 'f'] => some (.infinity negative)
  | ['i', 'n', 'f', 'i', 'n', 'i', 't', 'y'] => some (.infinity negative)
  | 'n' :: 'a' :: 'n' :: payload => (readPayload? payload).map (.nan negative false · none)
  | 's' :: 'n' :: 'a' :: 'n' :: payload => (readPayload? payload).map (.nan negative true · none)
  | _ => readFinite? negative rest

def read? (s : String) : Option Decimal := readChars? s.toList

end ItemStore.Decimal
