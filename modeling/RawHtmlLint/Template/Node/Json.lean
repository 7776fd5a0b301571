import RawHtmlLint.Json.Basic
import RawHtmlLint.Template.Node

/-!
# Template trees as JSON

Model of `to_dict`. Every node is an object with its kind under `type`, its offsets, and all its
fields, `null` where a field is unset. Reading goes the other way; a field that is not there has the
value it has in an empty node of the kind.
-/

namespace RawHtmlLint

/-- A position as JSON. -/
def Position.toJson (p : Position) : Json := .obj [("line", .int p.line), ("column", .int p.column)]

/-- The position that a JSON object describes. -/
def Position.ofJson? (j : Json) : Option Position := do
  some ⟨← (← j.member? "line").int?, ← (← j.member? "column").int?⟩

/-- A location as JSON. -/
def Location.toJson (l : Location) : Json :=
  .obj [("start", l.start.toJson), ("end", l.stop.toJson)]

/-- The location that a JSON object describes. -/
def Location.ofJson? (j : Json) : Option Location := do
  some ⟨← Position.ofJson? (← j.member? "start"), ← Position.ofJson? (← j.member? "end")⟩

/-- An expression as JSON. -/
def Expression.toJson : Expression → Json
  | ⟨kind, text, location, start, stop, name, callee⟩ =>
    .obj [("type", .str kind), ("text", .str text), ("start", .int start), ("end", .int stop),
      ("loc", location.toJson), ("name", Json.ofOption .str name),
      ("callee", match callee with
        | some e => e.toJson
        | none => .null)]

namespace Template

/-- The two offsets of a span as members of an object. -/
def Span.members (s : Span) : List (String × Json) := [("start", .int s.start), ("end", .int s.stop)]

/-- An attribute as JSON. -/
def Attribute.toJson (a : Attribute) : Json :=
  .obj (("name", .str a.name) :: ("value", Json.ofOption .str a.value) :: a.span.members)

/-- The name of the kind of an element. -/
def ElementKind.name : ElementKind → String
  | .element => "Element"
  | .component => "InlineComponent"

/-- The name of the kind of a tag. -/
def TagKind.name : TagKind → String
  | .rawHtml => "RawMustacheTag"
  | .mustache => "MustacheTag"
  | .const => "ConstTag"
  | .render => "RenderTag"

/-- An optional expression as JSON. -/
def expressionJson (e : Option Expression) : Json := Json.ofOption Expression.toJson e

/-- An object with a kind and a span, and more members. -/
def nodeJson (kind : String) (span : Span) (members : List (String × Json)) : Json :=
  .obj (("type", .str kind) :: span.members ++ members)

mutual

/-- A node as JSON. -/
def Node.toJson : Node → Json
  | .fragment f => fragmentJson f
  | .element kind span name attributes content =>
    nodeJson kind.name span [("name", .str name),
      ("attributes", .arr (attributes.map Attribute.toJson)),
      ("fragment", optionalJson content)]
  | .ifBlock span test consequent alternate elseIf =>
    nodeJson "IfBlock" span [("test", expressionJson test), ("consequent", optionalJson consequent),
      ("alternate", optionalJson alternate), ("elseif", .bool elseIf)]
  | .eachBlock span expression context index key body fallback =>
    nodeJson "EachBlock" span [("expression", expressionJson expression),
      ("context", Json.ofOption .str context), ("index", Json.ofOption .str index),
      ("key", expressionJson key), ("body", optionalJson body),
      ("fallback", optionalJson fallback)]
  | .awaitBlock span expression value error pending fulfilled rejected =>
    nodeJson "AwaitBlock" span [("expression", expressionJson expression),
      ("value", Json.ofOption .str value), ("error", Json.ofOption .str error),
      ("pending", optionalJson pending), ("then", optionalJson fulfilled),
      ("catch", optionalJson rejected)]
  | .keyBlock span expression content =>
    nodeJson "KeyBlock" span [("expression", expressionJson expression),
      ("fragment", optionalJson content)]
  | .snippetBlock span name parameters body =>
    nodeJson "SnippetBlock" span [("name", .str name), ("parameters", .str parameters),
      ("body", optionalJson body)]
  | .tag kind span expression =>
    nodeJson kind.name span [("expression", expressionJson expression)]
  | .debugTag span identifiers =>
    nodeJson "DebugTag" span [("identifiers", .ofStrings identifiers)]
  | .comment span data ignores =>
    nodeJson "Comment" span [("data", .str data), ("ignores", .ofStrings ignores.names)]
  | .text span raw data => nodeJson "Text" span [("raw", .str raw), ("data", .str data)]

def optionalJson : Option (Fragment Node) → Json
  | some f => fragmentJson f
  | none => .null

def fragmentJson : Fragment Node → Json
  | ⟨span, children⟩ => nodeJson "Fragment" span [("children", .arr (childrenJson children))]

def childrenJson : List Node → List Json
  | [] => []
  | node :: nodes => node.toJson :: childrenJson nodes

end

/-- A script as JSON. -/
def ScriptElement.toJson (s : ScriptElement) : Json :=
  .obj ([("context", .str (if s.isModule then "module" else "default")), ("lang", .str s.lang),
    ("content", .str s.content), ("attributes", .arr (s.attributes.map Attribute.toJson))] ++
    s.span.members)

/-- Styles as JSON. -/
def StyleElement.toJson (s : StyleElement) : Json :=
  .obj ([("content", .str s.content), ("attributes", .arr (s.attributes.map Attribute.toJson))] ++
    s.span.members)

/-- A component as JSON. -/
def Component.toJson (c : Component) : Json :=
  .obj [("fragment", fragmentJson c.fragment), ("source", .str c.path),
    ("instance", Json.ofOption ScriptElement.toJson c.instanceScript),
    ("module", Json.ofOption ScriptElement.toJson c.moduleScript),
    ("css", Json.ofOption StyleElement.toJson c.style), ("modern", .bool c.modern)]

end Template

end RawHtmlLint
