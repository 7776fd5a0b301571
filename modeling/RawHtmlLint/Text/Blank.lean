/-!
# White space

Texts are lists of characters. White space is what Unicode calls so, together with the four
information separators `U+001C` to `U+001F`; the zero-width space and the byte order mark are
not white space.
-/

namespace RawHtmlLint.Text

/-- White space: tab to carriage return, the information separators, and the space characters
of Unicode. -/
def isBlank (c : Char) : Bool :=
  let n := c.toNat
  (9 ≤ n && n ≤ 13) || (28 ≤ n && n ≤ 32) || n == 0x85 || n == 0xA0 || n == 0x1680 ||
    (0x2000 ≤ n && n ≤ 0x200A) || n == 0x2028 || n == 0x2029 || n == 0x202F || n == 0x205F ||
    n == 0x3000

/-- The text without its leading white space. -/
def trimStart (s : List Char) : List Char := s.dropWhile isBlank

/-- The text without its trailing white space. -/
def trimEnd (s : List Char) : List Char := (s.reverse.dropWhile isBlank).reverse

/-- The text without white space at either end. -/
def trim (s : List Char) : List Char := trimEnd (trimStart s)

/-- The number of white-space characters the text starts with. -/
def blankCount (s : List Char) : Nat := (s.takeWhile isBlank).length

/-- Nothing but white space. -/
def allBlank (s : List Char) : Bool := s.all isBlank

theorem blankCount_le (s : List Char) : blankCount s ≤ s.length :=
  (List.takeWhile_sublist _).length_le

end RawHtmlLint.Text
