import RawHtmlLint.Template.Attribute
import RawHtmlLint.Template.Frame
import RawHtmlLint.Template.Header

/-!
# Elements

Model of `_element` and `_lift`. What becomes of an element: scripts and styles at the top of a
component are lifted out of the markup, other scripts and styles keep their content as text that is
never markup, and all other elements are opened, so that their parts are read.
-/

namespace RawHtmlLint.Template

open Grammar Text

/-- The scripts and styles lifted out of the markup so far. -/
structure Lifted where
  instanceScript : Option ScriptElement := none
  moduleScript : Option ScriptElement := none
  style : Option StyleElement := none

/-- A frame with the parts that it is still to be given; they are smaller than the node that it
is made for. -/
structure Opened (t : Tree) where
  frame : Frame
  pending : List (Part × Tree)
  size_lt : sizeOfParts pending < t.size

/-- What becomes of a part: an item of the frame it is found in, or a frame of its own. -/
inductive Visit (t : Tree) where
  | item (item : Item) (lifted : Lifted)
  | opened (inner : Opened t)

/-- An element with its opening tag read. -/
structure ElementTag where
  span : Span
  name : List Char
  attributes : List Attribute
  /-- What stands between the tags. -/
  content : Span

/-- The kind of node that the element becomes. -/
def ElementTag.kind (e : ElementTag) : ElementKind :=
  if isComponentName e.name then .component else .element

/-- The name in small letters. -/
def ElementTag.lowerName (e : ElementTag) : String := String.ofList (lower e.name)

/-- The content of the element is raw text. -/
def ElementTag.isRaw (e : ElementTag) : Bool := ["script", "style"].contains e.lowerName

/-- The tags of the element that a node is. -/
def ElementTag.read (ctx : Context) (t : Tree) : Outcome ElementTag := do
  let s := ctx.source
  let span := s.span t
  match openingTag? t with
  | none => ctx.reject .namelessElement span.start
  | some tag =>
    let name := match tag.childOfKind? ["tag_name"] with
      | some nameNode => s.textOf (s.span nameNode)
      | none => []
    if name.isEmpty then ctx.reject .namelessElement span.start
    else
      let attributes ← readAttributes ctx tag
      let stop := match t.childOfKind? ["end_tag"] with
        | some closing => (s.span closing).start
        | none => span.stop
      let content : Span :=
        if tag.kind = "self_closing_tag" then ⟨span.stop, span.stop⟩
        else ⟨(s.span tag).stop, stop⟩
      return { span, name, attributes, content }

/-- The script that the element is. -/
def liftScript (ctx : Context) (e : ElementTag) (lifted : Lifted) : Outcome Lifted := do
  let isModule := valueOf? e.attributes "context" = some "module" ||
    (valueOf? e.attributes "module").isSome
  let lang := match valueOf? e.attributes "lang" with
    | some lang => if lang = "" then "js" else lang
    | none => "js"
  if isModule && lifted.moduleScript.isSome then ctx.reject .secondModuleScript e.span.start
  else if !isModule && lifted.instanceScript.isSome then
    ctx.reject .secondInstanceScript e.span.start
  else
    let language := if ["ts", "typescript"].contains lang then Language.typescript else .javascript
    ctx.checkScript language e.content.start e.content.stop
    let script : ScriptElement := {
      isModule, lang, content := String.ofList (ctx.source.textOf e.content)
      attributes := e.attributes, span := e.span }
    if isModule then return { lifted with moduleScript := some script }
    else return { lifted with instanceScript := some script }

/-- What is lifted after an element with raw text at the top of the component. -/
def lift (ctx : Context) (e : ElementTag) (lifted : Lifted) : Outcome Lifted :=
  if e.lowerName = "style" then
    if lifted.style.isSome then ctx.reject .secondStyle e.span.start
    else .ok { lifted with style := some {
      content := String.ofList (ctx.source.textOf e.content)
      attributes := e.attributes, span := e.span } }
  else liftScript ctx e lifted

/-- The element with its content as text that is no markup. -/
def ElementTag.rawNode (s : Source) (e : ElementTag) : Node :=
  let raw := String.ofList (s.textOf e.content)
  let children := if raw = "" then [] else [.text e.content raw raw]
  .element e.kind e.span (String.ofList e.name) e.attributes (some ⟨e.content, children⟩)

/-- What becomes of an element. -/
def visitElement (ctx : Context) (lifted : Lifted) (topLevel : Bool) (t : Tree) :
    Outcome (Visit t) := do
  let e ← ElementTag.read ctx t
  if t.kind ≠ "element" ∨ e.isRaw then
    if topLevel && e.isRaw then
      let lifted ← lift ctx e lifted
      return .item ⟨e.span, none⟩ lifted
    else return .item ⟨e.span, some (e.rawNode ctx.source)⟩ lifted
  else
    let pending := parts ctx.source e.content.start e.content.stop t
    rejectHeaders ctx.source e.content.start e.content.stop pending
    let opening : Branch := {
      label := .content, start := e.content.start, tagStart := e.span.start
      stop := e.content.stop }
    return .opened {
      frame := { shape := .element e.kind (String.ofList e.name) e.attributes, span := e.span, opening }
      pending
      size_lt := sizeOfParts_lt _ _ _ _ }

end RawHtmlLint.Template
