import RawHtmlLint.Text.Slice

/-!
# Paths

A path is a sequence of names, behind a root if it is absolute. In its text slashes divide the
names; empty names and `.` do not count, while `..` stays as it is. The path without names is
written `.`.

The suffix of a path starts at the last point of its last name, unless that point is the first
or the last character of the name: then there is no suffix.
-/

namespace RawHtmlLint

open Text

/-- A path; the root of a relative path is empty. -/
structure Path where
  root : String
  names : List String
  deriving DecidableEq, Repr

namespace Path

/-- What stands between the slashes of a text. -/
def pieces (text : String) : List String := (splitOn (· == '/') text.toList).map String.ofList

/-- The root that a text starts with: exactly two slashes are kept, more count as one. -/
def rootOf (text : String) : String :=
  match (text.toList.takeWhile (· == '/')).length with
  | 0 => ""
  | 2 => "//"
  | _ => "/"

/-- The piece is the name of something. -/
def isName (piece : String) : Bool := piece ≠ "" && piece ≠ "."

/-- The path that a text stands for. -/
def ofText (text : String) : Path := ⟨rootOf text, (pieces text).filter isName⟩

/-- The path starts at a root. -/
def isAbsolute (p : Path) : Bool := p.root ≠ ""

/-- The text of a path. -/
def text (p : Path) : String :=
  if p.root = "" && p.names.isEmpty then "." else p.root ++ "/".intercalate p.names

/-- The parts of a path: its root, if it has one, and its names. -/
def parts (p : Path) : List String := if p.root = "" then p.names else p.root :: p.names

/-- The paths in the order of their parts. -/
def sort (paths : List Path) : List Path := paths.mergeSort fun p q => ¬ q.parts < p.parts

/-- The path that leads on by more names. -/
def append (p : Path) (names : List String) : Path := { p with names := p.names ++ names }

/-- The suffix of a name. -/
def suffixOf (name : List Char) : List Char :=
  let ending := (name.reverse.takeWhile (· ≠ '.')).reverse
  let lead := name.length - ending.length - 1
  if 0 < lead && !ending.isEmpty then '.' :: ending else []

/-- The suffix of the last name, with its point. -/
def suffix (p : Path) : String := String.ofList (suffixOf (p.names.getLastD "").toList)

end Path

end RawHtmlLint
