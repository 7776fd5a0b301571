import RawHtmlLint.Template.Context
import RawHtmlLint.Template.Separator
import RawHtmlLint.Text.Entity

/-!
# Elements and blocks under construction

Model of `_Branch`, `_Frame`, `_build`, `_build_if` and `_text`. A frame is an element or block
whose parts are still being read. Each of its branches becomes a fragment: the items of the branch
in order, and the text between them. An item without a node leaves a gap: a script or style that was
lifted out of the markup.

An item belongs to the newest branch that starts at or before it.
-/

namespace RawHtmlLint.Template

open Text

/-- Which part of its owner a branch is. -/
inductive Label where
  /-- The only one of an element, a key block or the document. -/
  | content
  | consequent
  | elseIf
  | alternate
  | body
  | fallback
  | pending
  | settled (settlement : Settlement)
  deriving DecidableEq, Repr

/-- Something at its place in a branch. -/
structure Item where
  span : Span
  node : Option Node

/-- A fragment under construction. -/
structure Branch where
  label : Label
  /-- Where its content starts. -/
  start : Nat
  /-- Where its tag starts. -/
  tagStart : Nat
  stop : Nat := 0
  test : Option Expression := none
  /-- The items, last one first. -/
  items : List Item := []

/-- The text of the source between two offsets as a node. -/
def textNode (text : List Char) (start stop : Nat) : Outcome Node :=
  let raw := slice text start stop
  match decode raw with
  | some data => .ok (.text ⟨start, stop⟩ (String.ofList raw) (String.ofList data))
  | none => .error .oversizedReference

/-- The text from `cursor` up to `stop`, if there is any. -/
def gap (text : List Char) (cursor stop : Nat) : Outcome (List Node) :=
  if cursor < stop then do return [← textNode text cursor stop] else .ok []

/-- The items with the text before, between and after them, from `cursor` up to `stop`. -/
def fill (text : List Char) (stop cursor : Nat) : List Item → Outcome (List Node)
  | [] => gap text cursor stop
  | item :: items => do
    let before ← gap text cursor item.span.start
    let after ← fill text stop (max cursor item.span.stop) items
    return before ++ item.node.toList ++ after

namespace Branch

/-- The branch with one more item. -/
def add (b : Branch) (item : Item) : Branch := { b with items := item :: b.items }

/-- The fragment that the branch has become. -/
def freeze (text : List Char) (b : Branch) : Outcome (Fragment Node) := do
  return ⟨⟨b.start, b.stop⟩, ← fill text b.stop b.start b.items.reverse⟩

end Branch

/-- What is known of an each block from its header. -/
structure Each where
  expression : Expression
  context : Option String := none
  index : Option String := none
  key : Option Expression := none

/-- What is being built. -/
inductive Shape where
  | document
  | element (kind : ElementKind) (name : String) (attributes : List Attribute)
  | ifBlock
  | eachBlock (header : Each)
  | awaitBlock (expression : Expression) (value error : Option String)
  | keyBlock (expression : Expression)
  | snippetBlock (name parameters : String)

/-- The keyword of a block. -/
def Shape.keyword : Shape → String
  | .document | .element .. => ""
  | .ifBlock => "if"
  | .eachBlock _ => "each"
  | .awaitBlock .. => "await"
  | .keyBlock _ => "key"
  | .snippetBlock .. => "snippet"

/-- An element or block under construction. -/
structure Frame where
  shape : Shape
  span : Span
  /-- The branch it starts with. -/
  opening : Branch
  /-- The further branches, newest first. -/
  later : List Branch := []

/-- The branches with the item in the newest one that starts at or before it. -/
def addToNewest (item : Item) : List Branch → Option (List Branch)
  | [] => none
  | b :: branches =>
    if b.start ≤ item.span.start then some (b.add item :: branches)
    else (addToNewest item branches).map (b :: ·)

namespace Frame

/-- The frame with one more item; its first branch takes what no other does. -/
def add (f : Frame) (item : Item) : Frame :=
  match addToNewest item f.later with
  | some later => { f with later }
  | none => { f with opening := f.opening.add item }

/-- The branches in order. -/
def branches (f : Frame) : List Branch := f.opening :: f.later.reverse

/-- The labels of the branches in order. -/
def labels (f : Frame) : List Label := f.branches.map (·.label)

/-- The frame with its newest branch ended. -/
def endBranch (f : Frame) (stop : Nat) : Frame :=
  match f.later with
  | [] => { f with opening := { f.opening with stop } }
  | b :: later => { f with later := { b with stop } :: later }

/-- The frame with its newest branch ended where the tag of another starts. -/
def nextBranch (f : Frame) (b : Branch) : Frame :=
  let f := f.endBranch b.tagStart
  { f with later := b :: f.later }

/-- The fragment of the branch with the label. -/
def fragment? (text : List Char) (f : Frame) (label : Label) : Outcome (Option (Fragment Node)) :=
  match f.branches.find? (·.label = label) with
  | some b => do return some (← b.freeze text)
  | none => .ok none

/-- The alternate of an if block: further branches, newest first, are nested in each other. -/
def alternate (text : List Char) (f : Frame) : Outcome (Option (Fragment Node)) :=
  f.later.foldlM (fun alternate b => do
    let content ← b.freeze text
    if b.label = .alternate then return some content
    else
      let span := ⟨b.tagStart, f.span.stop⟩
      return some ⟨span, [.ifBlock span b.test (some content) alternate true]⟩) none

/-- The node that the frame has become. -/
def build (text : List Char) (f : Frame) : Outcome Node := do
  match f.shape with
  | .document => return .fragment (← f.opening.freeze text)
  | .element kind name attributes =>
    return .element kind f.span name attributes (some (← f.opening.freeze text))
  | .ifBlock =>
    let alternate ← f.alternate text
    return .ifBlock f.span f.opening.test (some (← f.opening.freeze text)) alternate false
  | .eachBlock header =>
    return .eachBlock f.span (some header.expression) header.context header.index header.key
      (← f.fragment? text .body) (← f.fragment? text .fallback)
  | .awaitBlock expression value error =>
    return .awaitBlock f.span (some expression) value error (← f.fragment? text .pending)
      (← f.fragment? text (.settled .fulfilled)) (← f.fragment? text (.settled .rejected))
  | .keyBlock expression =>
    return .keyBlock f.span (some expression) (← f.fragment? text .content)
  | .snippetBlock name parameters =>
    return .snippetBlock f.span name parameters (← f.fragment? text .body)

end Frame

end RawHtmlLint.Template
