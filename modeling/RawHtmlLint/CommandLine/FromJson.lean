import RawHtmlLint.CommandLine
import RawHtmlLint.FileTree.FromJson
import RawHtmlLint.Grammar.FromJson

/-!
# Surroundings from JSON

What surrounds a run is given as an object with the members `files`, `env` and `trees`; each may
be missing.
-/

namespace RawHtmlLint.CommandLine

/-- The variables that a JSON object lists. -/
def environmentOfJson? (j : Json) : Option (List (String × String)) := do
  (← j.members?).mapM fun m => m.2.str?.map (m.1, ·)

/-- The surroundings that a JSON object describes. -/
def Surroundings.ofJson? (j : Json) : Option Surroundings := do
  some {
    files := ← j.memberOr "files" .empty FileTree.ofJson?
    environment := ← j.memberOr "env" [] environmentOfJson?
    grammars := ← j.memberOr "trees" { tree? := fun _ _ => none } Grammar.Grammars.ofJson? }

end RawHtmlLint.CommandLine
