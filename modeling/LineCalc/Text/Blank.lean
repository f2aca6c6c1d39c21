/-!
# Blank characters and trimming

White space is every character that Unicode counts as such. Blank, besides, are the
four separators U+001C to U+001F. The zero-width characters U+200B and U+FEFF are
neither.
-/

namespace LineCalc.Text

/-- Whether a character is white space. -/
def isSpace (c : Char) : Bool :=
  let n := c.toNat
  (0x09 ≤ n && n ≤ 0x0D) || n == 0x20 || n == 0x85 || n == 0xA0 || n == 0x1680 ||
    (0x2000 ≤ n && n ≤ 0x200A) || n == 0x2028 || n == 0x2029 || n == 0x202F || n == 0x205F ||
    n == 0x3000

/-- Whether a character is blank. -/
def isBlank (c : Char) : Bool := isSpace c || (0x1C ≤ c.toNat && c.toNat ≤ 0x1F)

/-- Characters without those at both ends that are to be dropped. -/
def trimWith (dropped : Char → Bool) (cs : List Char) : List Char :=
  ((cs.dropWhile dropped).reverse.dropWhile dropped).reverse

/-- A text without the blanks at both ends. -/
def trim (s : String) : String := String.ofList (trimWith isBlank s.toList)

end LineCalc.Text
