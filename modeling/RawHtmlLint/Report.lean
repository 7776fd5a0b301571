import RawHtmlLint.Rule.Insertion
import RawHtmlLint.Template.Node.Json

/-!
# Reports

Model of `Finding` and `AnalysisReport`. What is told of one component: that it is malformed, and
why, or the unsafe insertions in it.
-/

namespace RawHtmlLint

/-- One unsafe insertion, by the place of its expression. -/
structure Finding where
  path : String
  location : Location
  message : String
  deriving DecidableEq, Repr

/-- The finding that an insertion is. -/
def Finding.ofInsertion (path : String) (i : Rule.Insertion) : Finding :=
  ⟨path, i.expression.location, Rule.message⟩

/-- A finding as JSON. -/
def Finding.toJson (f : Finding) : Json :=
  .obj [("filename", .str f.path), ("start", f.location.start.toJson),
    ("end", f.location.stop.toJson), ("message", .str f.message)]

/-- A diagnostic as JSON. -/
def Diagnostic.toJson (d : Diagnostic) : Json :=
  .obj [("code", .str d.code), ("message", .str d.message),
    ("start", Json.ofOption Position.toJson d.position), ("pos", Json.ofOption .int d.offset)]

/-- The report on one component. -/
inductive Report where
  | malformed (path : String) (diagnostic : Diagnostic)
  | checked (path : String) (findings : List Finding)
  deriving DecidableEq, Repr

namespace Report

/-- The path of the component. -/
def path : Report → String
  | .malformed path _ | .checked path _ => path

/-- The component could be parsed. -/
def isParsed : Report → Bool
  | .malformed .. => false
  | .checked .. => true

/-- Why it could not. -/
def diagnostic? : Report → Option Diagnostic
  | .malformed _ d => some d
  | .checked .. => none

/-- The unsafe insertions that were found. -/
def findings : Report → List Finding
  | .malformed .. => []
  | .checked _ findings => findings

/-- The component was parsed and nothing was found in it. -/
def isClean (r : Report) : Bool := r.isParsed && r.findings.isEmpty

/-- The report as JSON. -/
def toJson (r : Report) : Json :=
  .obj [("filename", .str r.path), ("parsed", .bool r.isParsed),
    ("error", Json.ofOption Diagnostic.toJson r.diagnostic?),
    ("warnings", .arr (r.findings.map Finding.toJson))]

end Report

end RawHtmlLint
