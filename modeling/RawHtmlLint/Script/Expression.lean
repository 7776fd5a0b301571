import RawHtmlLint.Grammar.Registry
import RawHtmlLint.Text.Blank
import RawHtmlLint.Text.Utf8

/-!
# Expressions

Model of `Expression` and `ExpressionParser`: `parse`, `_top_expression`, `_build` and
`check_script`. An expression in a tag is read by the grammar of a script language as `(text` + line
feed + `)`: the parentheses make the grammar expect an expression, and the line feed ends a comment
that runs to the end of the line. The tree must be one expression that spans all of it, and only its
shape is kept: the kind, the place, the name of an identifier and what a direct call calls.

The grammar counts bytes of the text it was given; one byte for the added parenthesis and the
place where the expression starts take them back to offsets of the source.
-/

namespace RawHtmlLint

open Grammar Text

/-- An expression of a tag, as far as its shape matters. -/
structure Expression where
  /-- The kind of the grammar's node, but for tagged templates and optional calls, which the
  grammar calls `call_expression` as well. -/
  kind : String
  text : String
  location : Location
  start : Int
  stop : Int
  /-- The name of an identifier. -/
  name : Option String
  /-- What a direct call calls. -/
  callee : Option Expression

namespace Expression

/-- The expression calls something directly. -/
def isCall (e : Expression) : Bool := e.kind == "call_expression"

/-- The named children that are not comments. -/
def significant (t : Tree) : List Tree :=
  t.namedChildren.filter fun c => !(["comment", "html_comment"].contains c.kind)

/-- The node is a pair of parentheses. -/
def isParenthesized (t : Tree) : Bool := t.kind == "parenthesized_expression"

theorem mem_children_of_mem_significant {t c : Tree} (h : c ∈ significant t) : c ∈ t.children :=
  (List.mem_filter.mp (List.mem_filter.mp h).1).1

theorem size_lt_of_mem_significant {t c : Tree} (h : c ∈ significant t) : c.size < t.size :=
  Tree.size_lt_of_mem_children (mem_children_of_mem_significant h)

/-- What is inside the parentheses around a node; nothing if a pair holds more than one
expression, or none. -/
def inside? (t : Tree) : Option Tree :=
  if isParenthesized t then
    match _h : significant t with
    | [c] => inside? c
    | _ => none
  else some t
termination_by t.size
decreasing_by exact size_lt_of_mem_significant (_h ▸ List.mem_singleton_self _)

/-- What is inside the parentheses around a node, as far as each pair holds one expression. -/
def stripped (t : Tree) : Tree :=
  if isParenthesized t then
    match _h : significant t with
    | [c] => stripped c
    | _ => t
  else t
termination_by t.size
decreasing_by exact size_lt_of_mem_significant (_h ▸ List.mem_singleton_self _)

theorem size_stripped_le (t : Tree) : (stripped t).size ≤ t.size := by
  fun_induction stripped t with
  | case1 t _ c h ih =>
    exact Nat.le_trans ih (Nat.le_of_lt (size_lt_of_mem_significant (h ▸ List.mem_singleton_self _)))
  | case2 t _ h => exact Nat.le_refl _
  | case3 t _ => exact Nat.le_refl _

/-- The single expression of a tree for a parenthesized text of `size` bytes. -/
def single? (parse : Parse) (size : Nat) : Option Tree :=
  if parse.flawed then none
  else match significant parse.root with
    | [statement] =>
      if statement.kind = "expression_statement" then
        match significant statement with
        | [outer] =>
          if isParenthesized outer ∧ outer.label.startByte = 0 ∧ outer.label.stopByte = size then
            inside? outer
          else none
        | _ => none
      else none
    | _ => none

/-- The text as the grammar is given it. -/
def wrapped (text : List Char) : List Char := '(' :: text ++ ['\n', ')']

/-- The bytes of a text. -/
def bytesOf (text : List Char) : ByteArray := (String.ofList text).toUTF8

/-- The number of whole characters in the first `n` bytes. -/
def charsWithin (bytes : ByteArray) (n : Nat) : Nat :=
  (Utf8.decodePrefix (bytes.extract 0 n)).length

/-- The node names its arguments and they are no list in parentheses: a template is tagged. -/
def isTaggedTemplate (t : Tree) : Bool :=
  match t.child? .arguments with
  | some arguments => arguments.kind != "arguments"
  | none => false

/-- The call is made only if what is called is there. -/
def isOptionalCall (t : Tree) : Bool := t.children.any (·.kind == "optional_chain")

theorem size_lt_of_child? {t c : Tree} {field : Field} (h : t.child? field = some c) :
    (stripped c).size < t.size :=
  Nat.lt_of_le_of_lt (size_stripped_le c) (Tree.size_lt_of_mem_children (List.mem_of_find?_eq_some h))

/-- The expression that a node of the tree is, where `bytes` are those of the wrapped text and
`base` is the offset of the text in the source. Parentheses around what is called do not count:
`(f)(x)` calls `f`. -/
def ofTree (s : Source) (bytes : ByteArray) (base : Nat) (t : Tree) : Expression :=
  let start : Int := base + charsWithin bytes t.label.startByte - 1
  let stop : Int := base + charsWithin bytes t.label.stopByte - 1
  let text := String.ofList (sliceFrom s.text start stop)
  let shape (kind : String) (name : Option String) (callee : Option Expression) : Expression :=
    ⟨kind, text, s.location start stop, start, stop, name, callee⟩
  if t.kind = "identifier" then shape t.kind (some text) none
  else if t.kind = "call_expression" then
    if isTaggedTemplate t then shape "tagged_template_expression" none none
    else if isOptionalCall t then shape "optional_call_expression" none none
    else match _h : t.child? .function with
      | some function => shape t.kind none (some (ofTree s bytes base (stripped function)))
      | none => shape t.kind none none
  else shape t.kind none none
termination_by t.size
decreasing_by exact size_lt_of_child? _h

/-- The expression that the source holds from `start` up to `stop`, in the language of the name
`language`. -/
def read (s : Source) (g : Grammars) (language : String) (start stop : Nat) : Outcome Expression := do
  let text := s.slice start stop
  if allBlank text then s.reject .missingExpression start
  else
    let bytes := bytesOf (wrapped text)
    let parse ← g.parse language (wrapped text)
    match single? parse bytes.size with
    | some node => return ofTree s bytes start node
    | none => s.reject (.invalidExpression (trim text)) (start + blankCount text)

end Expression

namespace Script

/-- Rejects the source if what it holds from `start` up to `stop` is not a script in the
language of the name `language`. -/
def check (s : Source) (g : Grammars) (language : String) (start stop : Nat) : Outcome Unit := do
  let text := s.slice start stop
  let parse ← g.parse language text
  if parse.flawed then
    let offset := match parse.root.firstFlaw? with
      | some node => Expression.charsWithin (Expression.bytesOf text) node.label.startByte
      | none => 0
    s.reject .invalidScript (start + offset)

end Script

end RawHtmlLint
