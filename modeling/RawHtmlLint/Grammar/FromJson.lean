import RawHtmlLint.Grammar.Registry
import RawHtmlLint.Json.Basic
import RawHtmlLint.Template.Node.FromJson

/-!
# Grammar trees from JSON

A listing of trees is an array of objects with the name of the grammar, the text, the nodes in
document order, and whether the grammar found a mistake. A node is an array of its kind, its
first byte, the byte after its last one, the number of its children, and perhaps a string of
marks: `u` for a node that is a mere sign, `m` for one that is missing in the text, `a` and `f`
for the arguments and the function of a call.
-/

namespace RawHtmlLint.Grammar

/-- The label and the number of children that the items of an array describe. -/
def Label.ofItems? : List Json → Option (Label × Nat)
  | kind :: start :: stop :: count :: marks => do
    let marks ← match marks with
      | [] => some []
      | marks :: _ => marks.str?.map String.toList
    let label : Label := {
      kind := ← kind.str?
      startByte := ← start.nat?
      stopByte := ← stop.nat?
      named := !marks.contains 'u'
      missing := marks.contains 'm'
      fields := (if marks.contains 'a' then [.arguments] else []) ++
        (if marks.contains 'f' then [.function] else []) }
    some (label, ← count.nat?)
  | _ => none

/-- The tree that a JSON array of nodes lists. -/
def Tree.ofJson? (j : Json) : Option Tree := do
  ofPreorder? (← (← j.items?).mapM fun node => do Label.ofItems? (← node.items?))

/-- A text, its language and what its grammar makes of it. -/
structure Entry where
  language : Language
  text : String
  parse : Parse

/-- The entry that a JSON object describes. -/
def Entry.ofJson? (j : Json) : Option Entry := do
  let root ← Tree.ofJson? (← j.member? "nodes")
  some {
    language := ← Registry.full.language? (← (← j.member? "lang").str?)
    text := ← (← j.member? "text").str?
    parse := ⟨root, ← j.memberOr "has_error" false Json.bool?⟩ }

/-- The grammars that know the trees of a JSON array. -/
def Grammars.ofJson? (j : Json) : Option Grammars := do
  let entries ← (← j.items?).mapM Entry.ofJson?
  let tree? (language : Language) (text : List Char) : Option Parse :=
    let text := String.ofList text
    (entries.find? fun e => e.language = language && e.text == text).map (·.parse)
  some { tree? }

end RawHtmlLint.Grammar
