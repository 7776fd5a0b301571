import RawHtmlLint.Script.Expression
import RawHtmlLint.Template.Directive

/-!
# Template trees

Model of `TemplateNode` and of the kinds of nodes, `Fragment`, `Script`, `Style` and `TemplateAst`.
The markup of a component as a tree. Only a fragment has children; elements and blocks own
fragments, and each fragment is a scope of siblings of its own. Offsets count characters.

Fragments that a block lacks are `none`: an await block has one for each of its branches that
is written, an if block one for each of its two outcomes. Further branches of an if block are if
blocks in its alternate.
-/

namespace RawHtmlLint.Template

/-- The characters from `start` up to `stop`. -/
structure Span where
  start : Nat
  stop : Nat
  deriving DecidableEq, Repr, Inhabited

/-- A scope of siblings. -/
structure Fragment (ν : Type) where
  span : Span
  children : List ν

/-- An attribute of an element. The value is as it is written, quotes included; an attribute
without one has none. A shorthand or a spread keeps its braces in the name. -/
structure Attribute where
  name : String
  value : Option String
  span : Span
  deriving DecidableEq, Repr

/-- What an element makes. -/
inductive ElementKind where
  | element
  | component
  deriving DecidableEq, Repr

/-- The tags that hold an expression. -/
inductive TagKind where
  /-- Inserts the value as markup, unescaped. -/
  | rawHtml
  | mustache
  | const
  | render
  deriving DecidableEq, Repr

/-- A node of a template. -/
inductive Node where
  | fragment (f : Fragment Node)
  | element (kind : ElementKind) (span : Span) (name : String) (attributes : List Attribute)
      (content : Option (Fragment Node))
  | ifBlock (span : Span) (test : Option Expression) (consequent alternate : Option (Fragment Node))
      (elseIf : Bool)
  | eachBlock (span : Span) (expression : Option Expression) (context index : Option String)
      (key : Option Expression) (body fallback : Option (Fragment Node))
  | awaitBlock (span : Span) (expression : Option Expression) (value error : Option String)
      (pending fulfilled rejected : Option (Fragment Node))
  | keyBlock (span : Span) (expression : Option Expression) (content : Option (Fragment Node))
  | snippetBlock (span : Span) (name parameters : String) (body : Option (Fragment Node))
  | tag (kind : TagKind) (span : Span) (expression : Option Expression)
  | debugTag (span : Span) (identifiers : List String)
  | comment (span : Span) (data : String) (ignores : RuleSet)
  /-- Text, as it is written and with its character references replaced. -/
  | text (span : Span) (raw data : String)

namespace Node

/-- The span of a node. -/
def span : Node → Span
  | .fragment f => f.span
  | .element _ span .. | .ifBlock span .. | .eachBlock span .. | .awaitBlock span ..
  | .keyBlock span .. | .snippetBlock span .. | .tag _ span _ | .debugTag span _
  | .comment span .. | .text span .. => span

/-- The node is of a kind that can own fragments. -/
def isContainer : Node → Bool
  | .fragment _ | .element .. | .ifBlock .. | .eachBlock .. | .awaitBlock .. | .keyBlock ..
  | .snippetBlock .. => true
  | .tag .. | .debugTag .. | .comment .. | .text .. => false

/-- The fragments that the node owns, in the order of the source. -/
def fragments : Node → List (Fragment Node)
  | .fragment f => [f]
  | .element _ _ _ _ content => content.toList
  | .ifBlock _ _ consequent alternate _ => consequent.toList ++ alternate.toList
  | .eachBlock _ _ _ _ _ body fallback => body.toList ++ fallback.toList
  | .awaitBlock _ _ _ _ pending fulfilled rejected =>
    pending.toList ++ fulfilled.toList ++ rejected.toList
  | .keyBlock _ _ content => content.toList
  | .snippetBlock _ _ _ body => body.toList
  | .tag .. | .debugTag .. | .comment .. | .text .. => []

mutual

/-- The number of nodes of a tree, each fragment counted as well. -/
def size : Node → Nat
  | .fragment f => sizeOfFragment f + 1
  | .element _ _ _ _ content => sizeOfOptional content + 1
  | .ifBlock _ _ consequent alternate _ =>
    sizeOfOptional consequent + sizeOfOptional alternate + 1
  | .eachBlock _ _ _ _ _ body fallback => sizeOfOptional body + sizeOfOptional fallback + 1
  | .awaitBlock _ _ _ _ pending fulfilled rejected =>
    sizeOfOptional pending + sizeOfOptional fulfilled + sizeOfOptional rejected + 1
  | .keyBlock _ _ content => sizeOfOptional content + 1
  | .snippetBlock _ _ _ body => sizeOfOptional body + 1
  | .tag .. | .debugTag .. | .comment .. | .text .. => 1

def sizeOfOptional : Option (Fragment Node) → Nat
  | none => 0
  | some f => sizeOfFragment f

def sizeOfFragment : Fragment Node → Nat
  | ⟨_, children⟩ => sizeAll children + 1

/-- The number of nodes of all the trees. -/
def sizeAll : List Node → Nat
  | [] => 0
  | node :: nodes => size node + sizeAll nodes

end

/-- The node is text that shows nothing but white space. -/
def isBlankText : Node → Bool
  | .text _ _ data => Text.allBlank data.toList
  | _ => false

/-- The node is a comment that suppresses the rule. -/
def suppresses (rule : String) : Node → Bool
  | .comment _ _ ignores => ignores.contains rule
  | _ => false

end Node

/-- A script of a component, with the text between its tags. -/
structure ScriptElement where
  /-- The script runs once for all instances. -/
  isModule : Bool
  lang : String
  content : String
  attributes : List Attribute
  span : Span
  deriving DecidableEq, Repr

/-- The styles of a component, with the text between the tags. -/
structure StyleElement where
  content : String
  attributes : List Attribute
  span : Span
  deriving DecidableEq, Repr

/-- A component: its markup, and the scripts and styles that were lifted out of it. -/
structure Component where
  fragment : Fragment Node
  path : String
  instanceScript : Option ScriptElement
  moduleScript : Option ScriptElement
  style : Option StyleElement
  /-- The component was read in the newer dialect. -/
  modern : Bool

end RawHtmlLint.Template
