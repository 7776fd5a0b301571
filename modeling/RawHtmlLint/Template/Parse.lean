import RawHtmlLint.Template.Conversion
import RawHtmlLint.Template.Markup

/-!
# Parsing a component

Model of `parse` of `SvelteTemplateParser`, and of `_syntax_error`. The markup grammar is given the
adapted text. If it cannot read all of it, the first flaw of its tree tells what is wrong; otherwise
the tree becomes the template. The scripts of the component decide the language of all its
expressions.
-/

namespace RawHtmlLint.Template

open Grammar

/-- Why a source is rejected for the first flaw of its tree, and at which offset. -/
def flawCause (s : Source) (root : Tree) : Cause × Nat :=
  match root.firstFlaw? with
  | none => (if s.size = 0 then .endOfInput else .unreadable (lineAt s 0), 0)
  | some node =>
    let offset := s.charOffset node.label.startByte
    if node.label.missing then (.missingNode node.kind, offset)
    else if s.size ≤ offset then (.endOfInput, offset)
    else (.unreadable (lineAt s offset), offset)
where
  /-- The characters at an offset up to the end of the line, twenty at most. -/
  lineAt (s : Source) (offset : Nat) : List Char :=
    (s.slice offset (offset + 20)).takeWhile (· ≠ '\n')

/-- All that is needed to read a component whose expressions are in the language. -/
def contextFor (g : Grammars) (s : Source) (modern : Bool) (language : Language) : Context where
  source := s
  modern := modern
  read := Expression.read s g language.name
  checkScript := fun language => Script.check s g language.name

/-- A component that was parsed, and the language of its expressions. -/
structure Parsed where
  component : Component
  language : Language

/-- The component that a source holds. -/
def parse (g : Grammars) (modern : Bool) (s : Source) : Outcome Parsed := do
  let tree ← g.parse Language.svelte.name (Markup.adapt s.text)
  if tree.flawed then
    let (cause, offset) := flawCause s tree.root
    s.reject cause offset
  else
    let language := scriptLanguage s tree.root
    let (fragment, lifted) ← convertDocument (contextFor g s modern language) tree.root
    let component : Component := {
      fragment, path := s.path, instanceScript := lifted.instanceScript
      moduleScript := lifted.moduleScript, style := lifted.style, modern }
    return { component, language }

end RawHtmlLint.Template
