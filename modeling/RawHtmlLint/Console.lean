import RawHtmlLint.Text.Width
import RawHtmlLint.Text.Word

/-!
# Console text

Model of the `console` that `_print_text` prints to, and of `escape`. Text for people passes through
a console that takes words in brackets for styles. What could be a style is protected, and shown as
it is together with the backslashes before it. Elsewhere a backslash before a bracket is lost, and a
single backslash at the end of a text is doubled.

A line is shown without some control characters, and a tab goes on to the next multiple of eight
columns. Complaints do not pass through the console; they only lose their colours.
-/

namespace RawHtmlLint.Console

open Text

/-- The character can follow the opening bracket of a style. -/
def startsStyle (c : Char) : Bool := isLetter c || c == '#' || c == '/' || c == '@'

/-- The length of the word in brackets at the start of a text, if it could be a style. -/
def styleLength? : List Char → Option Nat
  | '[' :: c :: rest =>
    let body := rest.takeWhile fun c => c ≠ ']' && c ≠ '['
    if startsStyle c && (rest.drop body.length).head? == some ']' then some (body.length + 3)
    else none
  | _ => none

/-- The number of backslashes at the start of a text. -/
def slashCount (s : List Char) : Nat := (s.takeWhile (· == '\\')).length

/-- The text without the backslashes that are lost before brackets. -/
def withoutLost (s : List Char) : List Char :=
  match s with
  | [] => []
  | c :: rest =>
    let slashes := slashCount (c :: rest)
    match styleLength? ((c :: rest).drop slashes) with
    | some n => (c :: rest).take (slashes + n) ++ withoutLost (rest.drop (slashes + n - 1))
    | none =>
      if c = '\\' && rest.head? = some '[' then withoutLost rest else c :: withoutLost rest
termination_by s.length

/-- The text as the console shows it. -/
def shown (s : List Char) : List Char :=
  if slashCount s.reverse = 1 then withoutLost s ++ ['\\'] else withoutLost s

/-- A control character that is not shown. -/
def isDropped (c : Char) : Bool := [7, 8, 11, 12, 13].contains c.toNat

/-- The text with tabs as spaces, from a column on. -/
def expandTabs (column : Nat) : List Char → List Char
  | [] => []
  | c :: rest =>
    if c = '\t' then
      let width := 8 - column % 8
      List.replicate width ' ' ++ expandTabs (column + width) rest
    else if c = '\n' then c :: expandTabs 0 rest
    else c :: expandTabs (column + columnsOf c) rest

/-- A line as it is shown, with the line feed that ends it. -/
def line (s : List Char) : List Char := expandTabs 0 (s.filter (!isDropped ·)) ++ ['\n']

/-- The length of the colour sequence at the start of a text. -/
def colourLength? : List Char → Option Nat
  | '\x1B' :: '[' :: rest =>
    let codes := rest.takeWhile fun c => c.isDigit || c == ';' || c == '?'
    if (rest.drop codes.length).head?.any Char.isAlpha then some (codes.length + 3) else none
  | _ => none

/-- The text without colour sequences. -/
def withoutColours (s : List Char) : List Char :=
  match s with
  | [] => []
  | c :: rest =>
    match colourLength? (c :: rest) with
    | some n => withoutColours (rest.drop (n - 1))
    | none => c :: withoutColours rest
termination_by s.length

end RawHtmlLint.Console
