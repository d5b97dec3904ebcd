/-! Points of a text.

A text is a list of points. A point is a character, or half of a surrogate pair without the other
half, which is no character: JSON can spell such a half and bytes can hold one. A text with no
half in it is a `String`; a text with one is torn. -/
namespace ItemStore.Text

/-- A character, or half of a surrogate pair by its number. -/
inductive Point where
  | char (c : Char)
  | half (u : Nat)
deriving DecidableEq, Repr, Inhabited

/-- A text by its points. -/
abbrev Points := List Point

/-! ### Halves of pairs -/

def isHighHalf (u : Nat) : Bool := 0xD800 ≤ u && u < 0xDC00

def isLowHalf (u : Nat) : Bool := 0xDC00 ≤ u && u < 0xE000

/-- The character of a surrogate pair. -/
def pairChar (high low : Nat) : Char :=
  Char.ofNat (0x10000 + (high - 0xD800) * 0x400 + (low - 0xDC00))

namespace Point

def isHalf : Point → Bool
  | .char _ => false
  | .half _ => true

/-- The position of a point in the code space. -/
def number : Point → Nat
  | .char c => c.toNat
  | .half u => u

/-- The point at a position, if the code space has it. -/
def ofNumber? (n : Nat) : Option Point :=
  if isHighHalf n || isLowHalf n then some (.half n)
  else if n < 0x110000 then some (.char (Char.ofNat n))
  else none

/-- A character of a class. -/
def isIn (p : Char → Bool) : Point → Bool
  | .char c => p c
  | .half _ => false

/-- A character in the place of a point; U+FFFD stands for a half. -/
def shown : Point → Char
  | .char c => c
  | .half _ => '\uFFFD'

end Point

/-- The points of a text without halves. -/
def points (s : String) : Points := s.toList.map .char

/-- A text with at least one half in it. -/
structure Torn where
  points : Points
  isTorn : points.any Point.isHalf = true
deriving DecidableEq, Repr

end ItemStore.Text
