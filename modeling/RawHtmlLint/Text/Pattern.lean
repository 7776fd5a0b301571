/-!
# Patterns

A pattern is read from the start of a text, part by part. Where a part can take more or fewer
characters, they are tried in turn until the parts behind it can be read as well: a run takes as
many as possible, what is kept as few as possible. The first reading that succeeds counts.

A text is split at the runs of a class of characters. Such a run is as long as possible, so no
piece between two runs is empty.
-/

namespace RawHtmlLint.Text

namespace Pattern

/-- One part of a pattern. -/
inductive Part where
  /-- The word. -/
  | word (word : List Char)
  /-- A character of the class. -/
  | one (p : Char → Bool)
  /-- Characters of the class, as many as possible. -/
  | many (p : Char → Bool)
  /-- At least one character of any kind, as few as possible; the pattern answers them. -/
  | kept
  /-- The end of the text; a line feed may stand before it. -/
  | ending

/-- The characters of the class are passed over as far as possible, and one less whenever what
comes next cannot be read. -/
def greedy {α : Type} (p : Char → Bool) (next : List Char → Option α) : List Char → Option α
  | [] => next []
  | c :: rest => if p c then greedy p next rest <|> next (c :: rest) else next (c :: rest)

/-- The fewest characters behind which what comes next can be read. -/
def fewest {α : Type} (next : List Char → Option α) : List Char → Option (List Char)
  | [] => (next []).map fun _ => []
  | c :: rest => (next (c :: rest)).map (fun _ => []) <|> (fewest next rest).map (c :: ·)

/-- The text stands at its end, but for a line feed. -/
def atEnd (s : List Char) : Bool := s == [] || s == ['\n']

/-- Reads a text from its start; the answer is what the pattern keeps. -/
def read : List Part → List Char → Option (List Char)
  | [], _ => some []
  | .word w :: parts, s => if w.isPrefixOf s then read parts (s.drop w.length) else none
  | .one _ :: _, [] => none
  | .one p :: parts, c :: rest => if p c then read parts rest else none
  | .many p :: parts, s => greedy p (read parts) s
  | .kept :: _, [] => none
  | .kept :: parts, c :: rest => (fewest (read parts) rest).map (c :: ·)
  | .ending :: parts, s => if atEnd s then read parts s else none

end Pattern

/-- The pieces with one more character at the front of the first one. -/
def startWith (c : Char) : List (List Char) → List (List Char)
  | [] => [[c]]
  | piece :: pieces => (c :: piece) :: pieces

mutual

/-- The pieces between the runs of the class. -/
def splitRuns (p : Char → Bool) : List Char → List (List Char)
  | [] => [[]]
  | c :: rest => if p c then [] :: splitBehind p rest else startWith c (splitRuns p rest)

/-- The pieces behind a run of the class that has begun. -/
def splitBehind (p : Char → Bool) : List Char → List (List Char)
  | [] => [[]]
  | c :: rest => if p c then splitBehind p rest else startWith c (splitRuns p rest)

end

end RawHtmlLint.Text
