import RawHtmlLint.Problem
import RawHtmlLint.Source

/-!
# Diagnostics

Model of `TemplateParseError`, and of the failures that are none. Why a component is malformed, and
where. Each cause has a message for people and a code for programs; several causes share a code. A
diagnostic is what is told to the user: message, code and place, without the cause.

Other things that end a run are not the component's fault; `Failure` tells them apart.
-/

namespace RawHtmlLint

/-- Why a component is malformed. -/
inductive Cause where
  /-- The grammar wants a node of this kind that the text lacks. -/
  | missingNode (kind : String)
  | endOfInput
  /-- The grammar cannot read the text from here on. -/
  | unreadable (snippet : List Char)
  | unclosedTag
  /-- A continuation tag outside a block. -/
  | strayContinuation (keyword : String)
  | strayBlockEnd (keyword : String)
  | strayBlockTag (keyword : String)
  | strayClosingTag (name : String)
  | namelessElement
  | secondStyle
  | secondModuleScript
  | secondInstanceScript
  | invalidShorthand
  | constNotAssignment
  | debugNotIdentifiers
  | renderNotCall
  | unknownTag (modern : Bool)
  /-- A block whose first tag does not open it. -/
  | notOpening
  | wrongBlockEnd (name : String)
  | blockLeftOpen (name : String)
  | unknownBlock (modern : Bool)
  | invalidSnippet
  | eachWithoutAs
  | unclosedEachKey
  | invalidEachIndex
  | missingEachContext
  | elseAfterElse
  | invalidElse
  | elseIfInEach
  | invalidElseInEach
  | elseOutside
  /-- A branch of an await block in another block. -/
  | awaitBranchOutside (keyword : String)
  | awaitBranchOutOfOrder (keyword : String)
  | unknownContinuation
  | missingExpression
  | invalidExpression (text : List Char)
  | invalidScript
  deriving DecidableEq, Repr

namespace Cause

/-- What the user reads. -/
def message : Cause → String
  | missingNode kind => "Expected " ++ kind.map fun c => if c = '_' then ' ' else c
  | endOfInput => "Unexpected end of input"
  | unreadable snippet => "Unexpected " ++ String.ofList (Text.quoted snippet)
  | unclosedTag => "Unexpected end of input: expected '\x7d'"
  | strayContinuation keyword => "Cannot use \x7b:" ++ keyword ++ "\x7d outside a block"
  | strayBlockEnd keyword => "Unexpected block closing tag \x7b/" ++ keyword ++ "\x7d"
  | strayBlockTag keyword => "Unexpected block tag \x7b#" ++ keyword ++ "\x7d"
  | strayClosingTag name =>
    "</" ++ name ++ "> attempted to close an element that was not open"
  | namelessElement => "Expected a valid element or component name"
  | secondStyle => "You can only have one top-level <style> tag per component"
  | secondModuleScript =>
    "A component can only have one <script context=\"module\"> element"
  | secondInstanceScript => "A component can only have one instance-level <script> element"
  | invalidShorthand =>
    "Expected attribute shorthand `\x7bname\x7d` or spread `\x7b...props\x7d`"
  | constNotAssignment => "\x7b@const ...\x7d must be an assignment"
  | debugNotIdentifiers => "\x7b@debug ...\x7d arguments must be identifiers"
  | renderNotCall => "\x7b@render ...\x7d tags can only contain call expressions"
  | unknownTag modern =>
    if modern then "Expected 'html', 'const', 'debug' or 'render'"
    else "Expected 'html', 'const' or 'debug'"
  | notOpening => "Expected a block opening tag"
  | wrongBlockEnd name => "Expected \x7b/" ++ name ++ "\x7d"
  | blockLeftOpen name => "\x7b#" ++ name ++ "\x7d block was left open"
  | unknownBlock modern =>
    if modern then "Expected if, each, await, key or snippet" else "Expected if, each, await or key"
  | invalidSnippet => "Expected a snippet name and parameter list"
  | eachWithoutAs => "Expected 'as' in \x7b#each\x7d block"
  | unclosedEachKey => "Expected ')' after \x7b#each\x7d key"
  | invalidEachIndex => "Expected an identifier for the \x7b#each\x7d index"
  | missingEachContext => "Expected a context pattern after 'as'"
  | elseAfterElse => "Cannot have an \x7b:else\x7d branch after \x7b:else\x7d"
  | invalidElse => "Expected '\x7d' or 'if' after \x7b:else"
  | elseIfInEach => "\x7b:else if\x7d is not allowed in \x7b#each\x7d"
  | invalidElseInEach => "Invalid \x7b:else\x7d in \x7b#each\x7d"
  | elseOutside => "Cannot use \x7b:else\x7d outside an \x7b#if\x7d or \x7b#each\x7d block"
  | awaitBranchOutside keyword =>
    "Cannot use \x7b:" ++ keyword ++ "\x7d outside an \x7b#await\x7d block"
  | awaitBranchOutOfOrder keyword =>
    "Unexpected \x7b:" ++ keyword ++ "\x7d in \x7b#await\x7d block"
  | unknownContinuation => "Expected :else, :then or :catch"
  | missingExpression => "Expected an expression"
  | invalidExpression text => "Invalid expression: " ++ String.ofList text
  | invalidScript => "Invalid <script> content: unexpected syntax"

/-- What a program reads. -/
def code : Cause → String
  | missingNode _ | endOfInput | unreadable _ => "invalid-syntax"
  | unclosedTag => "unclosed-tag"
  | strayContinuation keyword =>
    "invalid-" ++ (if keyword = "" then "block" else keyword) ++ "-placement"
  | strayBlockEnd _ => "unexpected-block-close"
  | strayBlockTag _ | notOpening | unknownBlock _ => "expected-block-type"
  | strayClosingTag _ => "invalid-closing-tag"
  | namelessElement => "invalid-tag-name"
  | secondStyle => "style-duplicate"
  | secondModuleScript | secondInstanceScript => "script-duplicate"
  | invalidShorthand => "invalid-attribute"
  | constNotAssignment => "invalid-const"
  | debugNotIdentifiers => "invalid-debug-args"
  | renderNotCall => "invalid-render-expression"
  | unknownTag _ => "unknown-tag"
  | wrongBlockEnd _ => "expected-block-close"
  | blockLeftOpen _ => "unclosed-block"
  | invalidSnippet => "invalid-snippet"
  | eachWithoutAs => "expected-as"
  | unclosedEachKey => "invalid-each-key"
  | invalidEachIndex => "invalid-each-index"
  | missingEachContext => "expected-each-context"
  | elseAfterElse => "duplicate-else"
  | invalidElse | invalidElseInEach => "invalid-else"
  | elseIfInEach => "invalid-elseif"
  | elseOutside => "invalid-else-placement"
  | awaitBranchOutside keyword | awaitBranchOutOfOrder keyword =>
    "invalid-" ++ keyword ++ "-placement"
  | unknownContinuation => "expected-block-continuation"
  | missingExpression => "missing-expression"
  | invalidExpression _ => "invalid-expression"
  | invalidScript => "invalid-script"

end Cause

/-- What is told of a malformed component. -/
structure Diagnostic where
  message : String
  code : String := "parse-error"
  position : Option Position := none
  offset : Option Int := none
  path : Option String := none
  deriving DecidableEq, Repr

namespace Diagnostic

/-- The message with the place, if it is known. -/
def text (d : Diagnostic) : String :=
  match d.position with
  | none => d.message
  | some p =>
    let place := toString p.line ++ ":" ++ toString p.column
    let place := match d.path with
      | some path => if path = "" then place else path ++ ":" ++ place
      | none => place
    d.message ++ " (" ++ place ++ ")"

/-- The diagnostic as a problem among others. -/
def problem (d : Diagnostic) : Problem :=
  ⟨.malformedTemplate, d.message, [("code", .str d.code)]⟩

end Diagnostic

/-- The diagnostic of a cause at an offset of the source. -/
def Source.diagnose (s : Source) (cause : Cause) (offset : Nat) : Diagnostic :=
  { message := cause.message, code := cause.code, position := some (s.position offset),
    offset := some offset, path := some s.path }

/-- What ends a run without a result. -/
inductive Failure where
  /-- The component is malformed. -/
  | malformed (d : Diagnostic)
  | grammarUnavailable (p : Problem)
  /-- No tree is known for a text. -/
  | missingTree
  /-- The grammar makes a block of a node that holds no tag of its own. -/
  | headlessBlock
  /-- An insertion without an expression cannot be reported. -/
  | emptyInsertion
  /-- A character reference has too many digits. -/
  | oversizedReference

/-- What takes a result or fails. -/
abbrev Outcome (α : Type) := Except Failure α

/-- The outcome of a malformed component. -/
def Source.reject {α : Type} (s : Source) (cause : Cause) (offset : Nat) : Outcome α :=
  .error (.malformed (s.diagnose cause offset))

end RawHtmlLint
