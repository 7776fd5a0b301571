import RawHtmlLint.Template.Context
import RawHtmlLint.Text.Blank

/-!
# The parts of a tree of markup

Model of `_role` and `_children`. Which nodes of the grammar's tree are parts of the template:
comments, elements, tags, blocks, and closing tags that close nothing. Other nodes are passed over
or only hold parts. What a node in braces is, is read from the source: a tag reaches as far as its
closing brace, and what reaches further is a block or one of its branches.

The parts of a node are those that are reached through nodes that only hold parts; they are
searched with a list of the nodes still to be looked at.

Results:
* `sizeAll_partsAmong_le`: the parts together are no larger than the nodes they were found in.
-/

namespace RawHtmlLint.Template

open Grammar Text

/-- What a part is. -/
inductive Part where
  | comment
  | element
  | tag
  | block
  | strayClosingTag
  deriving DecidableEq, Repr

/-- What a node is to the template. -/
inductive Role where
  /-- Neither it nor what it holds. -/
  | skip
  /-- It may hold parts. -/
  | descend
  | part (part : Part)
  deriving DecidableEq, Repr

/-- The kinds of nodes that are elements. -/
def elementKinds : List String := ["element", "script_element", "style_element"]

/-- The kinds of nodes that are of no account. -/
def skippedKinds : List String := ["start_tag", "end_tag", "self_closing_tag", "doctype"]

/-- The signs after the brace of a block tag. -/
def blockSigils : List Char := ['#', ':', '/']

/-- What a node that starts with a brace is. -/
def braceRole (s : Source) (span : Span) : Role :=
  match Script.closingBrace? s.text (span.start + 1) with
  | none => .skip
  | some close =>
    if span.stop < close + 1 then .skip
    else
      let sigil := (trimStart (s.slice (span.start + 1) close)).head?
      if span.stop = close + 1 then
        if sigil.any blockSigils.contains then .skip else .part .tag
      else if sigil = some '#' then .part .block
      else .descend

/-- What a node is to the template. -/
def role (s : Source) (t : Tree) : Role :=
  if t.kind = "comment" then .part .comment
  else if elementKinds.contains t.kind then .part .element
  else if t.kind = "erroneous_end_tag" then .part .strayClosingTag
  else if !t.label.named || skippedKinds.contains t.kind ||
      "raw_text".toList.isPrefixOf t.kind.toList then .skip
  else if s.at? (s.span t).start = some '\x7b' then braceRole s (s.span t)
  else if t.children.isEmpty then .skip
  else .descend

/-- The span lies in the window from `low` to `high`. -/
def Span.within (span : Span) (low high : Nat) : Bool := low ≤ span.start && span.stop ≤ high

/-- The parts in the window that the nodes still to be looked at are or hold, in document
order. -/
def partsAmong (s : Source) (low high : Nat) : List Tree → List (Part × Tree)
  | [] => []
  | t :: todo =>
    match role s t with
    | .skip => partsAmong s low high todo
    | .descend => partsAmong s low high (t.children ++ todo)
    | .part part =>
      if (s.span t).within low high then (part, t) :: partsAmong s low high todo
      else partsAmong s low high todo
termination_by todo => Tree.sizeAll todo
decreasing_by
  all_goals
    simp only [Tree.sizeAll_cons, Tree.sizeAll_append, Tree.size_eq t]
    omega

/-- The parts of a node in the window, in document order. -/
def parts (s : Source) (low high : Nat) (t : Tree) : List (Part × Tree) :=
  partsAmong s low high t.children

/-- The number of nodes of the parts. -/
def sizeOfParts (ps : List (Part × Tree)) : Nat := Tree.sizeAll (ps.map Prod.snd)

theorem sizeOfParts_cons (p : Part × Tree) (ps : List (Part × Tree)) :
    sizeOfParts (p :: ps) = p.2.size + sizeOfParts ps := rfl

/-- The parts together are no larger than the nodes they were found in. -/
theorem sizeAll_partsAmong_le (s : Source) (low high : Nat) (todo : List Tree) :
    sizeOfParts (partsAmong s low high todo) ≤ Tree.sizeAll todo := by
  fun_induction partsAmong s low high todo with
  | case1 => exact Nat.le_refl _
  | case2 t todo _ ih => exact Nat.le_trans ih (Nat.le_add_left _ _)
  | case3 t todo _ ih =>
    rw [Tree.sizeAll_append] at ih
    rw [Tree.sizeAll_cons, Tree.size_eq]
    omega
  | case4 t todo part _ _ ih =>
    rw [sizeOfParts_cons, Tree.sizeAll_cons]
    exact Nat.add_le_add_left ih _
  | case5 t todo part _ _ ih => exact Nat.le_trans ih (Nat.le_add_left _ _)

/-- The parts of a node are smaller than the node. -/
theorem sizeOfParts_lt (s : Source) (low high : Nat) (t : Tree) :
    sizeOfParts (parts s low high t) < t.size := by
  rw [Tree.size_eq]
  exact Nat.lt_succ_of_le (sizeAll_partsAmong_le s low high t.children)

end RawHtmlLint.Template
