/-!
# Lines

A text has lines in two senses. For positions only a line feed ends a line; here every character
ends one that Unicode calls a line or paragraph end, besides the four separators among the
control characters, and a carriage return and a line feed end it together. A line that is ended
by the end of the text is not empty.
-/

namespace RawHtmlLint.Text

/-- The character ends a line. -/
def endsLine (c : Char) : Bool :=
  let n := c.toNat
  (10 ≤ n && n ≤ 13) || (28 ≤ n && n ≤ 30) || n == 0x85 || n == 0x2028 || n == 0x2029

/-- The lines of a text, the first of which starts with `read` (last character first). -/
def linesFrom (read : List Char) : List Char → List (List Char)
  | [] => if read.isEmpty then [] else [read.reverse]
  | '\r' :: '\n' :: rest => read.reverse :: linesFrom [] rest
  | c :: rest => if endsLine c then read.reverse :: linesFrom [] rest else linesFrom (c :: read) rest

/-- The lines of a text, without what ends them. -/
def lines (s : List Char) : List (List Char) := linesFrom [] s

end RawHtmlLint.Text
