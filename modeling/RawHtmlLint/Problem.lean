import RawHtmlLint.Json.Printer

/-!
# Problems

Model of `SvelteUnsafeHtmlError` and of the errors below it. A problem is of one of seven kinds,
which form a tree: a kind is also a problem of the kinds it belongs to. Its text is its message,
followed by its details if it has any.
-/

namespace RawHtmlLint

/-- The kinds of problems. -/
inductive ProblemKind where
  | general
  /-- Of grammars and files. -/
  | infrastructure
  | grammarUnavailable
  /-- Of what a user gives. -/
  | validation
  | invalidSettings
  /-- Of reading a source. -/
  | reading
  | malformedTemplate
  deriving DecidableEq, Repr

/-- The kind and those it belongs to, the most general one last. -/
def ProblemKind.lineage : ProblemKind → List ProblemKind
  | .general => [.general]
  | .infrastructure => [.infrastructure, .general]
  | .grammarUnavailable => [.grammarUnavailable, .infrastructure, .general]
  | .validation => [.validation, .general]
  | .invalidSettings => [.invalidSettings, .validation, .general]
  | .reading => [.reading, .general]
  | .malformedTemplate => [.malformedTemplate, .reading, .general]

/-- A problem with the details that help to find its reason. -/
structure Problem where
  kind : ProblemKind
  message : String
  details : List (String × Json) := []

/-- The message, and the details if there are any. -/
def Problem.text (p : Problem) : String :=
  if p.details.isEmpty then p.message
  else p.message ++ " (details: " ++ (Json.obj p.details).literal ++ ")"

end RawHtmlLint
