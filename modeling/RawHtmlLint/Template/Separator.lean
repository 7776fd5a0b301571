import RawHtmlLint.Text.Blank
import RawHtmlLint.Text.Slice

/-!
# Separators in block headers

Model of `_EACH_AS`, `_AWAIT_SHORTHAND`, `_ELSE_IF`, `_OPEN_PAREN` and `_COMMA`. What divides the
parts of a block header, outside brackets and literals: the word `as` between white space, `then` or
`catch` after white space, an opening parenthesis, a comma. Each answers the length of what it
matches at the start of a text.
-/

namespace RawHtmlLint.Template

open Text

/-- How the promise of an await block can end. -/
inductive Settlement where
  | fulfilled
  | rejected
  deriving DecidableEq, Repr

/-- The word that opens the branch for it. -/
def Settlement.keyword : Settlement → String
  | .fulfilled => "then"
  | .rejected => "catch"

namespace Separator

/-- A keyword ends at the start of the text: the text is at its end or goes on with white
space. -/
def endsKeyword (s : List Char) : Bool := s.head?.all isBlank

/-- White space, `as`, white space. -/
def eachAs (s : List Char) : Option (Nat × Unit) :=
  let lead := blankCount s
  let word := s.drop lead
  let trail := blankCount (word.drop 2)
  if 0 < lead && ['a', 's'].isPrefixOf word && 0 < trail then some (lead + 2 + trail, ()) else none

/-- White space and a word that ends there: the length of both. -/
def keyword? (word s : List Char) : Option Nat :=
  let lead := blankCount s
  let rest := s.drop lead
  if 0 < lead && word.isPrefixOf rest && endsKeyword (rest.drop word.length) then
    some (lead + word.length)
  else none

/-- White space and `then` or `catch`. -/
def settlement (s : List Char) : Option (Nat × Settlement) :=
  match keyword? ['t', 'h', 'e', 'n'] s with
  | some n => some (n, .fulfilled)
  | none => (keyword? ['c', 'a', 't', 'c', 'h'] s).map (·, .rejected)

/-- White space and `if`. -/
def elseIf (s : List Char) : Option Nat := keyword? ['i', 'f'] s

/-- An opening parenthesis. -/
def openParenthesis : List Char → Option (Nat × Unit)
  | '(' :: _ => some (1, ())
  | _ => none

/-- A comma. -/
def comma : List Char → Option (Nat × Unit)
  | ',' :: _ => some (1, ())
  | _ => none

end Separator

end RawHtmlLint.Template
