import RawHtmlLint.Script.Cursor
import RawHtmlLint.Script.Expression
import RawHtmlLint.Template.Node

/-!
# The component that is being read

Model of what a `_TreeConverter` is made with, and of its `_closing_brace` and `_error`. All that
the reading of markup needs to know: the source, the dialect, and how expressions and scripts of the
source are checked.
-/

namespace RawHtmlLint

/-- The characters of the source that a node of the grammar's tree spans. -/
def Source.span (s : Source) (t : Grammar.Tree) : Template.Span :=
  ⟨s.charOffset t.label.startByte, s.charOffset t.label.stopByte⟩

/-- The characters of a span. -/
def Source.textOf (s : Source) (span : Template.Span) : List Char := s.slice span.start span.stop

/-- The brace that closes the tag opened at an offset. -/
def Source.closingBrace (s : Source) (opening : Nat) : Outcome Nat :=
  match Script.closingBrace? s.text (opening + 1) with
  | some close => .ok close
  | none => s.reject .unclosedTag opening

namespace Template

/-- A component that is being read. -/
structure Context where
  source : Source
  /-- The newer dialect, which has snippets and more. -/
  modern : Bool
  /-- The expression between two offsets. -/
  read : Nat → Nat → Outcome Expression
  /-- Rejects what is no script of the language between two offsets. -/
  checkScript : Grammar.Language → Nat → Nat → Outcome Unit

/-- The component is rejected for the cause at an offset. -/
def Context.reject {α : Type} (ctx : Context) (cause : Cause) (offset : Nat) : Outcome α :=
  ctx.source.reject cause offset

end Template

end RawHtmlLint
