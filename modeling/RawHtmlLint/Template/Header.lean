import RawHtmlLint.Template.Part
import RawHtmlLint.Text.Word

/-!
# The tags of blocks

Model of `_Header`, `_header` and `_headers`, and of `_check_stray_headers`. A block is made of tags
and of what stands between them: one that opens it, such as an if with its test, those that start
its other branches, and one that ends it. They are found in the source: outside the parts of the
block every brace opens one. A tag has a sigil and a keyword.
-/

namespace RawHtmlLint.Template

open Text

/-- A tag of a block. -/
structure Header where
  /-- The offset of its brace. -/
  start : Nat
  /-- The offset of its closing brace. -/
  close : Nat
  /-- The first character after the brace and white space, unless the tag is empty. -/
  sigil : Option Char
  keyword : List Char
  /-- The offset just past the keyword. -/
  rest : Nat
  deriving DecidableEq, Repr

/-- The offset just past the tag. -/
def Header.stop (h : Header) : Nat := h.close + 1

/-- The characters after the keyword. -/
def Header.body (s : Source) (h : Header) : List Char := s.slice h.rest h.close

/-- The tag that the brace at an offset opens. -/
def Header.read (s : Source) (start : Nat) : Outcome Header := do
  let close ← s.closingBrace start
  let lead := start + 1 + blankCount (s.text.drop (start + 1))
  let sigil := if lead < close then s.at? lead else none
  let keyword := (s.text.drop (lead + 1)).takeWhile isLetter
  return ⟨start, close, sigil, keyword, lead + 1 + keyword.length⟩

/-- The tags that the braces open, but for those before `next` and those inside an earlier
tag. -/
def headersAt (s : Source) (next : Nat) : List Nat → Outcome (List Header)
  | [] => .ok []
  | brace :: braces =>
    if brace < next then headersAt s next braces
    else do
      let header ← Header.read s brace
      return header :: (← headersAt s header.stop braces)

/-- The tags from `cursor` on that stand before and between the spans. -/
def headersBetween (s : Source) (cursor : Nat) : List Span → Outcome (List Header)
  | [] => .ok []
  | span :: spans => do
    let here ← headersAt s cursor (positions (· == '\x7b') s.text cursor span.start)
    return here ++ (← headersBetween s (max cursor span.stop) spans)

/-- The tags between `low` and `high` that stand outside the parts. -/
def headers (s : Source) (low high : Nat) (ps : List (Part × Grammar.Tree)) :
    Outcome (List Header) :=
  headersBetween s low (ps.map (fun p => s.span p.2) ++ [⟨high, high⟩])

/-- Rejects the component for a tag that stands outside the blocks. -/
def Header.stray {α : Type} (s : Source) (h : Header) : Outcome α :=
  let keyword := String.ofList h.keyword
  if h.sigil = some ':' then s.reject (.strayContinuation keyword) h.start
  else if h.sigil = some '/' then s.reject (.strayBlockEnd keyword) h.start
  else s.reject (.strayBlockTag keyword) h.start

/-- Rejects the component if tags of blocks stand between the parts. -/
def rejectHeaders (s : Source) (low high : Nat) (ps : List (Part × Grammar.Tree)) :
    Outcome Unit := do
  match ← headers s low high ps with
  | [] => return ()
  | header :: _ => header.stray s

end RawHtmlLint.Template
