import RawHtmlLint.Script.Cursor
import RawHtmlLint.Template.Separator
import RawHtmlLint.Text.Word

/-!
# Markup as the grammar knows it

Model of `_legacy_markup`, `_LEGACY_REWRITES` and `_overwrite`. The markup grammar knows the older
dialect only. Tags of the newer one are adapted before the grammar sees them, and each keeps its
length, so that offsets in the grammar's tree hold for the source: `@render`, `@const` and `@debug`
are blanked, `snippet` and an `each` without `as` become `if`. The end of an `each` block follows
the start it belongs to.

Comments that are closed, and script and style elements, are left as they are.
-/

namespace RawHtmlLint.Template.Markup

open Text Script

/-- The signs after the brace of a tag that is looked at. -/
inductive Sigil where
  | opening
  | closing
  | special
  deriving DecidableEq, Repr

/-- The sigil that a character is. -/
def sigil? : Char → Option Sigil
  | '#' => some .opening
  | '/' => some .closing
  | '@' => some .special
  | _ => none

/-- The keywords that are looked for. -/
inductive Keyword where
  | snippet
  | each
  | render
  | const
  | debug
  deriving DecidableEq, Repr

namespace Keyword

/-- The keywords as they are written. -/
def spelling : Keyword → List Char
  | snippet => ['s', 'n', 'i', 'p', 'p', 'e', 't']
  | each => ['e', 'a', 'c', 'h']
  | render => ['r', 'e', 'n', 'd', 'e', 'r']
  | const => ['c', 'o', 'n', 's', 't']
  | debug => ['d', 'e', 'b', 'u', 'g']

/-- All keywords; none is the beginning of another. -/
def all : List Keyword := [snippet, each, render, const, debug]

/-- The number of characters. -/
def length (k : Keyword) : Nat := k.spelling.length

/-- The keyword that the text starts with, as a whole word. -/
def read? (s : List Char) : Option Keyword :=
  all.find? fun k => k.spelling.isPrefixOf s && endsWord (s.drop k.length)

end Keyword

/-- The beginning of a tag, up to the end of its keyword. -/
structure Opening where
  /-- The characters before the sigil: the brace and white space. -/
  lead : Nat
  sigil : Sigil
  /-- The white space between sigil and keyword. -/
  gap : Nat
  keyword : Keyword
  deriving DecidableEq, Repr

/-- The characters before the keyword. -/
def Opening.before (o : Opening) : Nat := o.lead + 1 + o.gap

/-- All characters. -/
def Opening.length (o : Opening) : Nat := o.before + o.keyword.length

/-- The beginning of a tag that the text starts with. -/
def opening? : List Char → Option Opening
  | '\x7b' :: rest =>
    let blanks := blankCount rest
    match rest.drop blanks with
    | [] => none
    | c :: after => do
      let sigil ← sigil? c
      let gap := blankCount after
      let keyword ← Keyword.read? (after.drop gap)
      some ⟨blanks + 1, sigil, gap, keyword⟩
  | _ => none

/-- The length of the comment that the text starts with, if it is closed. -/
def comment? (s : List Char) : Option Nat :=
  if ['<', '!', '-', '-'].isPrefixOf s then
    (find? ['-', '-', '>'] (s.drop 4)).map (· + 7)
  else none

/-- The length of the closing tag of the name that the text starts with. -/
def closingTag? (name s : List Char) : Option Nat :=
  let start := '<' :: '/' :: name
  if start.isPrefixOf s then
    let blanks := blankCount (s.drop start.length)
    if s[start.length + blanks]? = some '>' then some (start.length + blanks + 1) else none
  else none

/-- The end of the first closing tag of the name, after `count` characters. -/
def closingTagEnd? (name : List Char) (count : Nat) : List Char → Option Nat
  | [] => none
  | c :: rest =>
    match closingTag? name (c :: rest) with
    | some length => some (count + length)
    | none => closingTagEnd? name (count + 1) rest

/-- The length of the element of this name that the text starts with, if it is closed. -/
def rawElement? (name s : List Char) : Option Nat :=
  let start := '<' :: name
  if start.isPrefixOf s && endsWord (s.drop start.length) then
    closingTagEnd? name start.length (s.drop start.length)
  else none

/-- The length of what the text starts with and is left alone: a comment, or a script or style
element. -/
def untouched? (s : List Char) : Option Nat :=
  match comment? s with
  | some length => some length
  | none =>
    match rawElement? "script".toList s with
    | some length => some length
    | none => rawElement? "style".toList s

/-- The body of an each header has no `as`: `after` is the text from the end of the keyword. -/
def lacksAs (after : List Char) : Bool :=
  let body := match closingBrace? after 0 with
    | some close => after.take close
    | none => []
  (topLevel? Separator.eachAs body 0).isNone

/-- What is done to the beginning of a tag. -/
inductive Change where
  | keep
  /-- The keyword becomes `if`. -/
  | toIf
  /-- Everything from the sigil to the end of the keyword is blanked. -/
  | blank
  deriving DecidableEq, Repr

/-- What is done to a tag that goes on with `after`. `blocks` tells of each block that is open
whether its start was changed; the answer tells the same of the blocks that are open after the
tag. -/
def change (o : Opening) (after : List Char) (blocks : List Bool) : Change × List Bool :=
  match o.sigil, o.keyword with
  | .special, .render | .special, .const | .special, .debug => (.blank, blocks)
  | .special, _ => (.keep, blocks)
  | _, .snippet => (.toIf, blocks)
  | .opening, _ => let lacking := lacksAs after; (if lacking then .toIf else .keep, lacking :: blocks)
  | .closing, _ =>
    match blocks with
    | [] => (.keep, [])
    | changed :: blocks => (if changed then .toIf else .keep, blocks)

/-- The beginning of the tag after the change; `s` is the text of it. -/
def Change.apply (o : Opening) (s : List Char) : Change → List Char
  | .keep => s
  | .toIf => s.take o.before ++ 'i' :: 'f' :: List.replicate (o.keyword.length - 2) ' '
  | .blank => s.take o.lead ++ List.replicate (1 + o.gap + o.keyword.length) ' '

/-- The adapted text after what is done already, given from its last character backwards. -/
def adaptFrom (blocks : List Bool) (done : List Char) : List Char → List Char
  | [] => done.reverse
  | c :: rest =>
    match untouched? (c :: rest) with
    | some length =>
      adaptFrom blocks (((c :: rest).take length).reverse ++ done) (rest.drop (length - 1))
    | none =>
      match opening? (c :: rest) with
      | some o =>
        let (change, blocks) := change o ((c :: rest).drop o.length) blocks
        adaptFrom blocks ((change.apply o ((c :: rest).take o.length)).reverse ++ done)
          (rest.drop (o.length - 1))
      | none => adaptFrom blocks (c :: done) rest
termination_by s => s.length

/-- The text as the grammar is given it. -/
def adapt (s : List Char) : List Char := adaptFrom [] [] s

end RawHtmlLint.Template.Markup
