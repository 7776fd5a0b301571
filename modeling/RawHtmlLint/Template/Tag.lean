import RawHtmlLint.Template.Context
import RawHtmlLint.Text.Blank
import RawHtmlLint.Text.Word

/-!
# Tags

Model of `_tag` and `_special_tag`. A tag holds an expression, or it has `@` and a keyword that says
what it does: `html` inserts markup, `const` declares, `debug` names variables, and in the newer
dialect `render` renders a snippet. The keyword is all the small letters after the `@`.
-/

namespace RawHtmlLint.Template

open Text

/-- The names between commas, the empty ones left out. -/
def debugNames (text : List Char) : List (List Char) :=
  ((splitOn (· == ',') text).map trim).filter (!·.isEmpty)

/-- The tag with `@` and a keyword: `rest` is the offset just past the keyword. -/
def readSpecialTag (ctx : Context) (keyword : List Char) (rest : Nat) (span : Span) :
    Outcome Node := do
  let close := span.stop - 1
  match String.ofList keyword with
  | "html" => return .tag .rawHtml span (some (← ctx.read rest close))
  | "const" =>
    let expression ← ctx.read rest close
    if expression.kind = "assignment_expression" then return .tag .const span (some expression)
    else ctx.reject .constNotAssignment span.start
  | "debug" =>
    let names := debugNames (ctx.source.slice rest close)
    if names.all isIdentifier then return .debugTag span (names.map String.ofList)
    else ctx.reject .debugNotIdentifiers span.start
  | "render" =>
    if ctx.modern then
      let expression ← ctx.read rest close
      if ["call_expression", "optional_call_expression"].contains expression.kind then
        return .tag .render span (some expression)
      else ctx.reject .renderNotCall span.start
    else ctx.reject (.unknownTag false) span.start
  | _ => ctx.reject (.unknownTag ctx.modern) span.start

/-- The tag of a span. -/
def readTag (ctx : Context) (span : Span) : Outcome Node := do
  let text := ctx.source.text
  let close := span.stop - 1
  let lead := span.start + 1 + blankCount (text.drop (span.start + 1))
  if lead < close ∧ ctx.source.at? lead = some '@' then
    let keyword := (text.drop (lead + 1)).takeWhile isLetter
    readSpecialTag ctx keyword (lead + 1 + keyword.length) span
  else return .tag .mustache span (some (← ctx.read (span.start + 1) close))

end RawHtmlLint.Template
