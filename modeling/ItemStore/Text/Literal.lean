import ItemStore.Text.Point
import ItemStore.Text.Printable

/-! Quoted literals.

A text or a run of bytes inside a message is written between quotes. The quote is `'`, unless
the content holds a `'` and no `"`. A backslash and the quote in use are escaped, as is every
character that has no visible form and every half of a surrogate pair. In a buffer `'` is escaped
whatever the quote. -/
namespace ItemStore.Text

/-- A number in lower-case hexadecimal, with zeros in front up to a width. -/
def hexPadded (width n : Nat) : List Char :=
  let digits := Nat.toDigits 16 n
  List.replicate (width - digits.length) '0' ++ digits

/-- The quote that needs no escape if one of the two does not. -/
def quoteFor (cs : List Char) : Char :=
  if cs.contains '\'' && !cs.contains '"' then '"' else '\''

/-- The escapes that texts and bytes have in common. -/
def commonEscape? (quote c : Char) : Option (List Char) :=
  if c == quote || c == '\\' then some ['\\', c]
  else if c == '\n' then some ['\\', 'n']
  else if c == '\r' then some ['\\', 'r']
  else if c == '\t' then some ['\\', 't']
  else none

def escapeChar (quote c : Char) : List Char :=
  (commonEscape? quote c).getD <|
    if isPrintable c then [c]
    else if c.toNat < 0x100 then ['\\', 'x'] ++ hexPadded 2 c.toNat
    else if c.toNat < 0x10000 then ['\\', 'u'] ++ hexPadded 4 c.toNat
    else ['\\', 'U'] ++ hexPadded 8 c.toNat

def escapePoint (quote : Char) : Point → List Char
  | .char c => escapeChar quote c
  | .half u => ['\\', 'u'] ++ hexPadded 4 u

def escapeByte (quote : Char) (b : UInt8) : List Char :=
  let c := Char.ofNat b.toNat
  (commonEscape? quote c).getD <|
    if 0x20 ≤ b.toNat && b.toNat < 0x7F then [c] else ['\\', 'x'] ++ hexPadded 2 b.toNat

/-- A text between quotes. -/
def quoted (s : String) : String :=
  let cs := s.toList
  let quote := quoteFor cs
  String.ofList ([quote] ++ cs.flatMap (escapeChar quote) ++ [quote])

/-- A text that may be torn between quotes. -/
def quotedPoints (ps : Points) : String :=
  let quote := quoteFor (ps.map Point.shown)
  String.ofList ([quote] ++ ps.flatMap (escapePoint quote) ++ [quote])

/-- The quote that bytes stand between. -/
def quoteForBytes (bs : List UInt8) : Char := quoteFor (bs.map fun b => Char.ofNat b.toNat)

/-- Bytes between quotes: a visible ASCII character stands for itself. -/
def quotedBytes (bs : List UInt8) : String :=
  let quote := quoteForBytes bs
  String.ofList (['b', quote] ++ bs.flatMap (escapeByte quote) ++ [quote])

/-- The bytes of a buffer between quotes. -/
def quotedBuffer (bs : List UInt8) : String :=
  let quote := quoteForBytes bs
  String.ofList (['b', quote] ++ bs.flatMap (escapeByte '\'') ++ [quote])

end ItemStore.Text
