import RawHtmlLint.Diagnostic
import RawHtmlLint.Grammar.Tree
import RawHtmlLint.Log
import RawHtmlLint.Text.Case

/-!
# The registry of grammars

Model of `ParserRegistry`. Three languages are known: component markup and the two script languages,
which have a short name each. The registry is made once: a grammar that fails to load is left out,
with its short name. Names are compared without regard to letter case.

A parser is kept for each name it was asked for under, so a language asked for under both its
names has two parsers.
-/

namespace RawHtmlLint.Grammar

/-- The languages with a grammar. -/
inductive Language where
  | svelte
  | javascript
  | typescript
  deriving DecidableEq, Repr, Inhabited

/-- The name of the grammar. -/
def Language.name : Language → String
  | .svelte => "svelte"
  | .javascript => "javascript"
  | .typescript => "typescript"

/-- The short names. -/
def Language.aliases : Language → List String
  | .svelte => []
  | .javascript => ["js"]
  | .typescript => ["ts"]

/-- The languages in the order of their registration. -/
def Language.all : List Language := [.javascript, .typescript, .svelte]

/-- A parser: its language and its number in order of making. -/
structure Parser where
  language : Language
  number : Nat
  deriving DecidableEq, Repr

/-- The names with a grammar, and the parsers made so far by the name they were asked for. -/
structure Registry where
  table : List (String × Language) := []
  made : List (String × Parser) := []

namespace Registry

/-- The name as it is looked up. -/
def key (name : String) : String := String.ofList (Text.lower name.toList)

/-- The registry with one more language, if its grammar can be loaded, and the event. -/
def register (loads : Language → Bool) (r : Registry) (l : Language) : Registry × Event :=
  if loads l then
    ({ r with table := r.table ++ (l.name :: l.aliases).map (·, l) },
      { level := .debug, name := "grammar_loaded",
        data := [("language", .str l.name), ("aliases", .ofStrings l.aliases)] })
  else
    (r, { level := .warning, name := "grammar_load_failed",
          data := [("language", .str l.name), ("error", .str l.name)] })

/-- A new registry, when the grammars load as told, and the events of its making. -/
def new (loads : Language → Bool) : Registry × List Event :=
  Language.all.foldl (fun (r, events) l =>
    let (r, event) := register loads r l
    (r, events ++ [event])) ({}, [])

/-- The registry with all grammars. -/
def full : Registry := (new fun _ => true).1

/-- The language that a name stands for. -/
def language? (r : Registry) (name : String) : Option Language := r.table.lookup (key name)

/-- The name stands for a language. -/
def supports (r : Registry) (name : String) : Bool := (r.language? name).isSome

/-- The names of the languages, short names left out, in order. -/
def supported (r : Registry) : List String :=
  ((r.table.map (·.1)).filter fun name => !(["js", "ts"].contains name)).mergeSort

/-- No grammar is known under the name. -/
def unavailable (r : Registry) (name : String) : Problem :=
  ⟨.grammarUnavailable, "Language not supported: " ++ key name,
    [("supported", .ofStrings r.supported)]⟩

/-- The parser for a name, made at the first time of asking. -/
def get (r : Registry) (name : String) : Except Problem Parser × Registry :=
  match r.made.lookup (key name) with
  | some parser => (.ok parser, r)
  | none =>
    match r.table.lookup (key name) with
    | none => (.error (r.unavailable name), r)
    | some language =>
      let parser := ⟨language, r.made.length⟩
      (.ok parser, { r with made := r.made ++ [(key name, parser)] })

/-- What the registry can be asked. -/
inductive Request where
  | get (name : String)
  | supports (name : String)
  | supported

/-- What it answers. -/
inductive Answer where
  | parser (parser : Except Problem Parser)
  | supports (yes : Bool)
  | supported (names : List String)

/-- The answer to one request, and the registry after it. -/
def answer (r : Registry) : Request → Answer × Registry
  | .get name =>
    let (parser, r) := r.get name
    (.parser parser, r)
  | .supports name => (.supports (r.supports name), r)
  | .supported => (.supported r.supported, r)

/-- The answers to a sequence of requests. -/
def answers (r : Registry) : List Request → List Answer
  | [] => []
  | request :: requests => (r.answer request).1 :: (r.answer request).2.answers requests

end Registry

/-- All that parsing needs: which names stand for a language, and the trees of the texts. -/
structure Grammars where
  registry : Registry := .full
  tree? : Language → List Char → Option Parse

/-- The tree of a text in the language of this name. -/
def Grammars.parse (g : Grammars) (name : String) (text : List Char) : Outcome Parse :=
  match g.registry.language? name with
  | none => .error (.grammarUnavailable (g.registry.unavailable name))
  | some language =>
    match g.tree? language text with
    | some parse => .ok parse
    | none => .error .missingTree

end RawHtmlLint.Grammar
