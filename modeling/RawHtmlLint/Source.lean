import RawHtmlLint.Text.Slice

/-!
# Sources and positions

Model of `SourceFile` with `position`, `char_offset` and `line_count`, and of `Position` and
`SourceLocation`. A source is the text of one component with the path that labels it. Offsets count
characters from zero. A position is what a reader is shown: the line from one, where only a line
feed ends a line, and the column from zero, counted in UTF-16 units.

Lines are found by binary search in a table of line starts, and the character at a byte of the
UTF-8 form is read off a table with one entry for each byte. Both tables are made once, and a
source that holds only characters of one unit needs no counting for its columns.
-/

namespace RawHtmlLint

open Text

/-- A point of a text: line from one, column from zero in UTF-16 units. -/
structure Position where
  line : Int
  column : Int
  deriving DecidableEq, Repr, Inhabited

/-- A range of a text; `stop` is just past its last character. -/
structure Location where
  start : Position
  stop : Position
  deriving DecidableEq, Repr, Inhabited

/-- The offsets at which the lines start. -/
def lineStarts (text : List Char) : Array Nat :=
  (0 :: (positions (· == '\n') text 0 text.length).map (· + 1)).toArray

/-- For each byte of the UTF-8 form the offset of its character, then the number of
characters. -/
def byteOwners (text : List Char) : Array Nat :=
  (text.zipIdx.flatMap (fun c => List.replicate c.1.utf8Size c.2) ++ [text.length]).toArray

/-- The number of UTF-16 units of a character. -/
def unitsOf (c : Char) : Nat := if c.toNat < 0x10000 then 1 else 2

/-- The number of UTF-16 units of a text. -/
def units (text : List Char) : Nat := text.foldr (fun c n => unitsOf c + n) 0

/-- The text of a component, with its tables. -/
structure Source where
  path : String
  text : List Char
  /-- Where the lines start. -/
  starts : Array Nat := lineStarts text
  /-- Every character is one UTF-16 unit. -/
  isNarrow : Bool := text.all fun c => c.toNat < 0x10000
  /-- The character of each byte. -/
  owners : Array Nat := byteOwners text
  starts_eq : starts = lineStarts text := by rfl
  isNarrow_eq : isNarrow = text.all fun c => c.toNat < 0x10000 := by rfl
  owners_eq : owners = byteOwners text := by rfl

/-- How many entries of the increasing table, among those from `low` up to `high`, are at most
`x`, added to `low`. -/
def countAtMost (table : Array Nat) (x low high : Nat) : Nat :=
  if low < high then
    let middle := (low + high) / 2
    if x < table.getD middle 0 then countAtMost table x low middle
    else countAtMost table x (middle + 1) high
  else low
termination_by high - low

namespace Source

/-- A source made from its text. -/
def ofText (path : String) (text : List Char) : Source := { path, text }

/-- The number of characters. -/
def size (s : Source) : Nat := s.text.length

/-- The number of lines. -/
def lineCount (s : Source) : Nat := s.starts.size

/-- The position of an offset, which is cut to the text. -/
def position (s : Source) (offset : Int) : Position :=
  let offset := min offset.toNat s.size
  let line := countAtMost s.starts offset 0 s.starts.size - 1
  let start := s.starts.getD line 0
  let column := if s.isNarrow then offset - start else units (slice s.text start offset)
  ⟨line + 1, column⟩

/-- The offset of the character that holds a byte of the UTF-8 form; the byte is cut to the
text. -/
def charOffset (s : Source) (byte : Int) : Nat :=
  s.owners.getD (min byte.toNat (s.owners.size - 1)) 0

/-- The characters from `start` up to `stop`. -/
def slice (s : Source) (start stop : Nat) : List Char := Text.slice s.text start stop

/-- The character at an offset. -/
def at? (s : Source) (offset : Nat) : Option Char := s.text[offset]?

/-- The locations of the two offsets. -/
def location (s : Source) (start stop : Int) : Location := ⟨s.position start, s.position stop⟩

@[simp] theorem text_ofText (path : String) (text : List Char) :
    (ofText path text).text = text := rfl

@[simp] theorem path_ofText (path : String) (text : List Char) :
    (ofText path text).path = path := rfl

end Source

end RawHtmlLint
