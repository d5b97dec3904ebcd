import ItemStore.Text.Literal

/-! Identifiers made from time.

An identifier of version 1 packs a time in units of 100 nanoseconds, a sequence number and the
address of a node into 32 hexadecimal digits. The digits of the time stand with the low ones
first; a digit for the version and two bits for the variant mark the form. -/
namespace ItemStore.Identifier

open ItemStore.Text (hexPadded)

/-- The identifier of a 60-bit time, a 14-bit sequence number and a 48-bit node. -/
def ofTime (time sequence node : Nat) : String :=
  let low := time % 0x100000000
  let mid := time / 0x100000000 % 0x10000
  let high := time / 0x1000000000000 % 0x1000
  String.ofList <|
    hexPadded 8 low ++ '-' :: hexPadded 4 mid ++ '-' :: hexPadded 4 (0x1000 + high) ++
      '-' :: hexPadded 4 (0x8000 + sequence % 0x4000) ++
      '-' :: hexPadded 12 (node % 0x1000000000000)

/-- Whether a text has the form of an identifier made from time. -/
def isTimeBased (s : String) : Bool :=
  let shape := "xxxxxxxx-xxxx-1xxx-vxxx-xxxxxxxxxxxx".toList
  s.toList.length == shape.length &&
    (s.toList.zip shape).all fun (c, m) =>
      match m with
      | 'x' => "0123456789abcdef".toList.contains c
      | 'v' => "89ab".toList.contains c
      | m => c == m

end ItemStore.Identifier
