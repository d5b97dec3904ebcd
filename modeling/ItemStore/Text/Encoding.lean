import ItemStore.Text.Point

/-! Texts in bytes.

Bytes hold a text in one of five encodings. A mark of byte order in front says which; without a
mark the places of zeros among the first bytes do, for a text that begins with two ASCII
characters. Halves of surrogate pairs are let through in all of them. -/
namespace ItemStore.Text

inductive Encoding where
  | utf8
  | utf16 (bigEndian : Bool)
  | utf32 (bigEndian : Bool)
deriving DecidableEq, Repr

namespace Encoding

/-- The encoding of bytes, and the bytes without their mark. -/
def detect : List UInt8 → Encoding × List UInt8
  | 0x00 :: 0x00 :: 0xFE :: 0xFF :: bs => (.utf32 true, bs)
  | 0xFF :: 0xFE :: 0x00 :: 0x00 :: bs => (.utf32 false, bs)
  | 0xFE :: 0xFF :: bs => (.utf16 true, bs)
  | 0xFF :: 0xFE :: bs => (.utf16 false, bs)
  | 0xEF :: 0xBB :: 0xBF :: bs => (.utf8, bs)
  | bs => (ofZeros bs, bs)
where
  ofZeros : List UInt8 → Encoding
    | a :: b :: c :: d :: _ =>
      if a == 0 then (if b == 0 then .utf32 true else .utf16 true)
      else if b == 0 then (if c == 0 && d == 0 then .utf32 false else .utf16 false)
      else .utf8
    | [a, b] => if a == 0 then .utf16 true else if b == 0 then .utf16 false else .utf8
    | _ => .utf8

/-- Puts the point at a position in front of a text. -/
def consNumber? (n : Nat) (text : Option (List Point)) : Option (List Point) := do
  return (← Point.ofNumber? n) :: (← text)

/-! ### One byte at a time -/

/-- Reads bytes after those that began a sequence: `owed` more belong to it, `n` is the number read
so far, and a number below `least` is written with too many bytes. -/
def readUtf8 (owed n least : Nat) : List UInt8 → Option (List Point)
  | [] => if owed = 0 then some [] else none
  | b :: bs =>
    let b := b.toNat
    if owed = 0 then
      if b < 0x80 then consNumber? b (readUtf8 0 0 0 bs)
      else if 0xC2 ≤ b && b < 0xE0 then readUtf8 1 (b - 0xC0) 0x80 bs
      else if 0xE0 ≤ b && b < 0xF0 then readUtf8 2 (b - 0xE0) 0x800 bs
      else if 0xF0 ≤ b && b < 0xF5 then readUtf8 3 (b - 0xF0) 0x10000 bs
      else none
    else if 0x80 ≤ b && b < 0xC0 then
      let n := n * 0x40 + (b - 0x80)
      if owed = 1 then (if n < least then none else consNumber? n (readUtf8 0 0 0 bs))
      else readUtf8 (owed - 1) n least bs
    else none

/-! ### Units of two and of four bytes -/

/-- The number of some bytes. -/
def unit (bigEndian : Bool) (bs : List UInt8) : Nat :=
  (if bigEndian then bs else bs.reverse).foldl (fun n b => n * 0x100 + b.toNat) 0

def units16? (bigEndian : Bool) : List UInt8 → Option (List Nat)
  | [] => some []
  | a :: b :: bs => (units16? bigEndian bs).map (unit bigEndian [a, b] :: ·)
  | _ => none

def units32? (bigEndian : Bool) : List UInt8 → Option (List Nat)
  | [] => some []
  | a :: b :: c :: d :: bs => (units32? bigEndian bs).map (unit bigEndian [a, b, c, d] :: ·)
  | _ => none

/-- The points of units, where halves that follow each other make a pair. -/
def joinPairs : List Nat → Option (List Point)
  | [] => some []
  | [u] => consNumber? u (some [])
  | u :: v :: us =>
    if isHighHalf u && isLowHalf v then (joinPairs us).map (.char (pairChar u v) :: ·)
    else consNumber? u (joinPairs (v :: us))

/-- The text in bytes of an encoding. -/
def decode? : Encoding → List UInt8 → Option (List Point)
  | .utf8, bs => readUtf8 0 0 0 bs
  | .utf16 bigEndian, bs => do joinPairs (← units16? bigEndian bs)
  | .utf32 bigEndian, bs => do (← units32? bigEndian bs).mapM Point.ofNumber?

end Encoding

/-- The text in bytes; none if they do not hold one. -/
def ofBytes? (bs : List UInt8) : Option (List Point) :=
  let (encoding, bs) := Encoding.detect bs
  encoding.decode? bs

end ItemStore.Text
