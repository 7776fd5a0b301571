import RawHtmlLint.Template.Block
import RawHtmlLint.Template.Element
import RawHtmlLint.Template.Tag

/-!
# From the grammar's tree to the template

Model of `run` and `_visit` of `_TreeConverter`. The tree is walked with a stack of frames. The
frame on top is given its parts in order: a part that holds no others becomes an item at once, an
element or block becomes a new frame on top, and a frame without further parts becomes a node of the
frame below it. At the bottom is the frame of the whole document.

The walk ends because a frame's parts are together smaller than the node it is made for.
-/

namespace RawHtmlLint.Template

open Grammar Text

/-- The text of a comment between its delimiters. -/
def commentData (text : List Char) : List Char :=
  if endsIn text ['-', '-', '>'] then slice text 4 (text.length - 3) else text.drop 4

/-- The comment of a span. -/
def readComment (s : Source) (span : Span) : Node :=
  let data := commentData (s.textOf span)
  .comment span (String.ofList data) (Directive.rules data)

/-- The name in the closing tag at an offset. -/
def closingTagName (s : Source) (start : Nat) : List Char :=
  if readsAt s.text ['<', '/'] start then
    (trimStart (s.text.drop (start + 2))).takeWhile fun c => !isBlank c && c != '>'
  else []

/-- What becomes of a part; `topLevel` tells that it is found in the document itself. -/
def visit (ctx : Context) (lifted : Lifted) (topLevel : Bool) (part : Part) (t : Tree) :
    Outcome (Visit t) := do
  let s := ctx.source
  let span := s.span t
  match part with
  | .comment => return .item ⟨span, some (readComment s span)⟩ lifted
  | .strayClosingTag =>
    ctx.reject (.strayClosingTag (String.ofList (closingTagName s span.start))) span.start
  | .tag => return .item ⟨span, some (← readTag ctx span)⟩ lifted
  | .element => visitElement ctx lifted topLevel t
  | .block =>
    let pending := parts s span.start span.stop t
    let frame ← readBlock ctx span (← headers s span.start span.stop pending)
    return .opened { frame, pending, size_lt := sizeOfParts_lt _ _ _ _ }

/-- A frame with the parts that it is still to be given. -/
structure Level where
  frame : Frame
  pending : List (Part × Tree)

/-- Twice the nodes still to be read, and one for the frame itself. -/
def Level.weight (l : Level) : Nat := 2 * sizeOfParts l.pending + 1

/-- The weight of a stack of frames. -/
def weight : List Level → Nat
  | [] => 0
  | l :: levels => l.weight + weight levels

/-- Gives the frames of a stack, the top one first, all their parts; the answer is the frame at
the bottom. -/
def convert (ctx : Context) (lifted : Lifted) (top : Level) (below : List Level) :
    Outcome (Frame × Lifted) :=
  match top with
  | ⟨frame, []⟩ =>
    match below with
    | [] => .ok (frame, lifted)
    | outer :: below => do
      let node ← frame.build ctx.source.text
      convert ctx lifted { outer with frame := outer.frame.add ⟨frame.span, some node⟩ } below
  | ⟨frame, (part, t) :: pending⟩ => do
    match ← visit ctx lifted below.isEmpty part t with
    | .item item lifted => convert ctx lifted ⟨frame.add item, pending⟩ below
    | .opened inner => convert ctx lifted ⟨inner.frame, inner.pending⟩ (⟨frame, pending⟩ :: below)
termination_by weight (top :: below)
decreasing_by
  · simp only [weight, Level.weight]
    omega
  · have hpos : 0 < t.size := by rw [Tree.size_eq]; exact Nat.succ_pos _
    simp only [weight, Level.weight, sizeOfParts_cons]
    omega
  · have hlt := inner.size_lt
    simp only [weight, Level.weight, sizeOfParts_cons]
    omega

/-- The frame of a document with the given number of characters. -/
def documentFrame (size : Nat) : Frame :=
  let opening : Branch := { label := .content, start := 0, tagStart := 0, stop := size }
  { shape := .document, span := ⟨0, size⟩, opening }

/-- The fragment that a tree without flaws becomes, and what was lifted out of it. -/
def convertDocument (ctx : Context) (root : Tree) : Outcome (Fragment Node × Lifted) := do
  let size := ctx.source.size
  let pending := parts ctx.source 0 size root
  rejectHeaders ctx.source 0 size pending
  let (frame, lifted) ← convert ctx {} ⟨documentFrame size, pending⟩ []
  return (← frame.opening.freeze ctx.source.text, lifted)

end RawHtmlLint.Template
