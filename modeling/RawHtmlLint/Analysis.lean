import RawHtmlLint.Process
import RawHtmlLint.Report
import RawHtmlLint.Template.Parse

/-!
# Analysing a component

Model of `analyze`, with what `SvelteTemplateParser.parse` and `_report` log. A component is parsed
and the rule is run on it. Malformed components have a report too, without findings.

Besides the report there is the log of what happened. Parser and rule write their own events, when
a component was parsed and when an insertion is found; the analysis as a whole is a timed operation
which notes whether anything was parsed, or the number of findings, and whose end is logged.
-/

namespace RawHtmlLint

open Template

/-- How components are analysed. -/
structure Options where
  /-- The names of trusted sanitizers. -/
  sanitizers : List String := []
  /-- The newer dialect. -/
  modern : Bool := false

/-- What a process finds outside: which grammars can be loaded, and the trees of the texts. -/
structure Tools where
  loads : Grammar.Language → Bool := fun _ => true
  tree? : Grammar.Language → List Char → Option Grammar.Parse

/-- The kind and the text of a failure. What is said of too many digits is said without their
number. -/
def Failure.info : Failure → ErrorInfo
  | .malformed d => ⟨"TemplateParseError", d.text⟩
  | .grammarUnavailable p => ⟨"ParserUnavailableError", p.text⟩
  | .missingTree => ⟨"MissingTree", "no tree is known for a text"⟩
  | .headlessBlock => ⟨"IndexError", "list index out of range"⟩
  | .emptyInsertion => ⟨"AttributeError", "'NoneType' object has no attribute 'loc'"⟩
  | .oversizedReference =>
    ⟨"ValueError", "Exceeds the limit (4300 digits) for integer string conversion"⟩

/-- A component was parsed. -/
def parsedEvent (s : Source) (p : Parsed) : Event where
  level := .debug
  name := "template_parsed"
  data := [("filename", .str s.path), ("lines", .int s.lineCount),
    ("language", .str p.language.name), ("modern", .bool p.component.modern),
    ("root_nodes", .int p.component.fragment.children.length)]

/-- A component is malformed. -/
def malformedEvent (s : Source) (d : Diagnostic) : Event :=
  .failed "template_parse_failed" (some (Failure.malformed d).info)
    [("filename", .str s.path), ("code", .str d.code)]

/-- An unsafe insertion was found. -/
def detectedEvent (s : Source) (i : Rule.Insertion) : Event where
  level := .debug
  name := "unsafe_html_detected"
  data := [("filename", .str s.path), ("line", .int i.expression.location.start.line),
    ("column", .int i.expression.location.start.column),
    ("expression", .str i.expression.text)]

/-- Parses a component, with the registry of the process. -/
def parseTask (tools : Tools) (modern : Bool) (s : Source) : Task Failure Parsed := do
  let registry ← Task.registry tools.loads
  let parsed ← Task.ofExcept (Template.parse { registry, tree? := tools.tree? } modern s)
  Task.log (parsedEvent s parsed)
  return parsed

/-- Reports an insertion. -/
def reportTask (s : Source) (span : Span) (expression : Option Expression) :
    Task Failure Finding := do
  let insertion ← Task.ofExcept (Rule.report span expression)
  Task.log (detectedEvent s insertion)
  return .ofInsertion s.path insertion

/-- Parses a component and runs the rule on it. What is found out is noted for the end of the
analysis. -/
def analysisSteps (tools : Tools) (options : Options) (s : Source) : Task Failure Report := do
  match ← Task.attempt (parseTask tools options.modern s) with
  | .error (.malformed d) =>
    Task.log (malformedEvent s d)
    Task.note "parsed" (.bool false)
    return .malformed s.path d
  | .error failure => throw failure
  | .ok parsed =>
    let findings ← Rule.detectWith (reportTask s) options.sanitizers
      (.fragment parsed.component.fragment)
    Task.note "warnings" (.int findings.length)
    return .checked s.path findings

/-- Analyses the component that a source holds, as a timed operation. -/
def analysisTask (tools : Tools) (options : Options) (s : Source) : Task Failure Report :=
  Task.timed Failure.info "analysis" [("filename", .str s.path)] (analysisSteps tools options s)

/-- A report and the events that led to it. -/
structure Analysis where
  report : Report
  log : List Event

/-- The analysis in a process that has its registry. -/
def analyze (g : Grammar.Grammars) (options : Options) (s : Source) : Outcome Analysis :=
  let (result, p) := (analysisTask { tree? := g.tree? } options s).run { registry := g.registry }
  result.map (⟨·, p.log⟩)

end RawHtmlLint
