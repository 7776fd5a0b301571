import RawHtmlLint.Template.Context
import RawHtmlLint.Text.Blank
import RawHtmlLint.Text.Case
import RawHtmlLint.Text.Word

/-!
# Opening tags

Model of `_attributes`, `_check_attribute`, `_unquote`, `_is_component`, `_TS_LANG` and
`_script_language`. The name and the attributes of an element are read from its opening tag.
Whatever an attribute holds in braces must be an expression: each group of braces in a value, the
value of a spread, or the single name of a shorthand.

An opening tag tells the language of a script by `lang`.
-/

namespace RawHtmlLint.Template

open Grammar Text

/-- The opening tag of an element. -/
def openingTag? (t : Tree) : Option Tree := t.childOfKind? ["start_tag", "self_closing_tag"]

/-- Rejects the component if one of the groups that the braces open holds no expression. Braces
before `next`, or inside an earlier group, open none. -/
def checkGroups (ctx : Context) (next : Nat) : List Nat → Outcome Unit
  | [] => .ok ()
  | brace :: braces =>
    if brace < next then checkGroups ctx next braces
    else do
      let close ← ctx.source.closingBrace brace
      let _ ← ctx.read (brace + 1) close
      checkGroups ctx (close + 1) braces

/-- Rejects the component if what an attribute without a name has in its braces is neither a
spread nor a shorthand. -/
def checkShorthand (ctx : Context) (start : Nat) : Outcome Unit := do
  let close ← ctx.source.closingBrace start
  let body := trim (ctx.source.slice (start + 1) close)
  let dots := ['.', '.', '.']
  if dots.isPrefixOf body then
    let _ ← ctx.read (start + before dots (ctx.source.text.drop start) + 3) close
  else if !isIdentifier body then ctx.reject .invalidShorthand start

/-- Rejects the component if what the attribute holds in braces is no expression. -/
def checkAttribute (ctx : Context) (name : List Char) (value : Option (List Char)) (span : Span) :
    Outcome Unit :=
  if name.head? = some '\x7b' then checkShorthand ctx span.start
  else match value with
    | none => .ok ()
    | some value =>
      let start := span.stop - value.length
      checkGroups ctx start (positions (· == '\x7b') ctx.source.text start span.stop)

/-- The value that follows the name of an attribute, in the text up to the attribute's end. -/
def valueAfter? (rest : List Char) : Option (List Char) :=
  match trimStart rest with
  | '=' :: value => some (trimStart value)
  | _ => none

/-- The attribute that a node of an opening tag is. -/
def readAttribute (ctx : Context) (t : Tree) : Outcome Attribute := do
  let span := ctx.source.span t
  let (name, value) := match t.childOfKind? ["attribute_name"] with
    | none => (ctx.source.textOf span, none)
    | some nameNode =>
      let nameSpan := ctx.source.span nameNode
      (ctx.source.textOf nameSpan, valueAfter? (ctx.source.slice nameSpan.stop span.stop))
  checkAttribute ctx name value span
  return ⟨String.ofList name, value.map String.ofList, span⟩

/-- The attributes of an opening tag. -/
def readAttributes (ctx : Context) (tag : Tree) : Outcome (List Attribute) :=
  (tag.namedChildren.filter fun c => !(["tag_name", "comment"].contains c.kind)).mapM
    (readAttribute ctx)

/-- The value without the quotes around it. -/
def unquoted (value : Option String) : String :=
  match value with
  | none => ""
  | some value =>
    let s := value.toList
    if 2 ≤ s.length && s.head? == s.getLast? && (s.head? == some '"' || s.head? == some '\'') then
      String.ofList (s.drop 1).dropLast
    else value

/-- The value, without quotes, of the last attribute of the name. -/
def valueOf? (attributes : List Attribute) (name : String) : Option String :=
  (attributes.reverse.find? (·.name = name)).map fun a => unquoted a.value

/-- The name is that of a component: it starts with a capital, has a point in it, or is one of
the two names for components that are chosen when the program runs. -/
def isComponentName (name : List Char) : Bool :=
  name.head?.any isCapital || name.contains '.' ||
    ["svelte:self", "svelte:component"].contains (String.ofList name)

/-- The letter is written as the character, in either case; two letters have more forms. -/
def isLetterForm (letter c : Char) : Bool :=
  c.toLower == letter || (letter == 's' && c == '\u017F') ||
    (letter == 'i' && (c == '\u0130' || c == '\u0131'))

/-- The text starts with the word in any letter case. -/
def startsWithWord : List Char → List Char → Bool
  | [], _ => true
  | letter :: word, c :: s => isLetterForm letter c && startsWithWord word s
  | _ :: _, [] => false

/-- The text starts with an attribute `lang` that names TypeScript. -/
def startsWithTypeScript (s : List Char) : Bool :=
  startsWithWord "lang".toList s &&
    match trimStart (s.drop 4) with
    | '=' :: rest =>
      let rest := trimStart rest
      let rest := match rest with
        | '"' :: value | '\'' :: value => value
        | _ => rest
      ["ts".toList, "typescript".toList].any fun name =>
        startsWithWord name rest && endsWord (rest.drop name.length)
    | _ => false

/-- Somewhere in the text, which follows the character `previous`, a word starts that is an
attribute `lang` which names TypeScript. -/
def namesTypeScript (previous : Option Char) : List Char → Bool
  | [] => false
  | c :: rest =>
    (!previous.any isWord && startsWithTypeScript (c :: rest)) || namesTypeScript (some c) rest

/-- The script element's opening tag names TypeScript. -/
def isTypeScriptElement (s : Source) (t : Tree) : Bool :=
  t.kind == "script_element" &&
    match openingTag? t with
    | none => false
    | some tag =>
      let span := s.span tag
      let previous := if span.start = 0 then none else s.at? (span.start - 1)
      namesTypeScript previous (s.textOf span)

/-- The language of all the expressions of a component. -/
def scriptLanguage (s : Source) (root : Tree) : Language :=
  if root.children.any (isTypeScriptElement s) then .typescript else .javascript

end RawHtmlLint.Template
