/-! White space.

Two classes of character separate words here. `isWhitespace` is the Unicode property, which
pads a numeral; `isBlank` adds the four information separators U+001C to U+001F, and is what
`trim` takes off the ends of a setting. -/
namespace ItemStore.Text

/-- The 25 characters of the Unicode property White_Space. -/
def isWhitespace (c : Char) : Bool :=
  let n := c.toNat
  (9 ≤ n && n ≤ 13) || n == 0x20 || n == 0x85 || n == 0xA0 || n == 0x1680 ||
    (0x2000 ≤ n && n ≤ 0x200A) || n == 0x2028 || n == 0x2029 || n == 0x202F || n == 0x205F ||
    n == 0x3000

/-- White space and the four information separators. -/
def isBlank (c : Char) : Bool :=
  isWhitespace c || (0x1C ≤ c.toNat && c.toNat ≤ 0x1F)

/-- Drops the characters of a class from both ends. -/
def trimBy (p : Char → Bool) (cs : List Char) : List Char :=
  ((cs.dropWhile p).reverse.dropWhile p).reverse

/-- A text without the blanks at its ends. -/
def trim (s : String) : String :=
  String.ofList (trimBy isBlank s.toList)

end ItemStore.Text
