/-!
# Slices and searches

Positions in a text count characters from zero. A slice is cut to the text: an end past the
text means its end, and a range that ends before it starts is empty. A slice whose bounds may
be negative counts those from the end of the text.

Results:
* `length_slice`: how long a slice is;
* `positions_lt`: what a search in a window finds lies inside the window.
-/

namespace RawHtmlLint.Text

/-- The characters from `start` up to, not including, `stop`. -/
def slice (s : List Char) (start stop : Nat) : List Char := (s.take stop).drop start

/-- A bound of a slice: a negative one counts from the end of a text of `size` characters. -/
def boundOf (size : Nat) (i : Int) : Nat := if i < 0 then (size + i).toNat else i.toNat

/-- The characters from `start` up to `stop`, where a negative bound counts from the end. -/
def sliceFrom (s : List Char) (start stop : Int) : List Char :=
  slice s (boundOf s.length start) (boundOf s.length stop)

/-- The text reads `word` at `index`. -/
def readsAt (s word : List Char) (index : Nat) : Bool := word.isPrefixOf (s.drop index)

/-- The text ends with `word`. -/
def endsIn (s word : List Char) : Bool := word.isSuffixOf s

/-- The positions in `start` to `stop`, in order, that hold a character of the class. -/
def positions (p : Char → Bool) (s : List Char) (start stop : Nat) : List Nat :=
  ((slice s start stop).zipIdx start).filterMap fun c => if p c.1 then some c.2 else none

/-- The number of characters before the first place where the text reads `word`, added to
`count`; nothing if there is no such place. -/
def findFrom? (word : List Char) (count : Nat) : List Char → Option Nat
  | [] => none
  | c :: rest => if word.isPrefixOf (c :: rest) then some count else findFrom? word (count + 1) rest

/-- The number of characters before the first place where the text reads `word`. -/
def find? (word s : List Char) : Option Nat := findFrom? word 0 s

/-- The number of characters before the first place where the text reads `word`; all of them
if there is none. -/
def before (word s : List Char) : Nat := (find? word s).getD s.length

/-- The pieces between the characters of the class, empty ones included. -/
def splitOn (p : Char → Bool) : List Char → List (List Char)
  | [] => [[]]
  | c :: rest =>
    if p c then [] :: splitOn p rest
    else match splitOn p rest with
      | [] => [[c]]
      | piece :: pieces => (c :: piece) :: pieces

theorem length_slice (s : List Char) (start stop : Nat) :
    (slice s start stop).length = min stop s.length - start := by
  simp [slice]

/-- What a search in a window finds lies inside the window. -/
theorem positions_lt {p : Char → Bool} {s : List Char} {start stop j : Nat}
    (h : j ∈ positions p s start stop) : start ≤ j ∧ j < stop := by
  obtain ⟨⟨c, i⟩, hmem, hij⟩ := List.mem_filterMap.mp h
  have hle := List.le_snd_of_mem_zipIdx hmem
  have hlt := List.snd_lt_add_of_mem_zipIdx hmem
  rw [length_slice] at hlt
  dsimp only at hij hle hlt
  split at hij
  · cases hij
    omega
  · exact absurd hij (by simp)

end RawHtmlLint.Text
