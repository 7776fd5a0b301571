import RawHtmlLint.Console
import RawHtmlLint.Report

/-!
# Listings of reports

Model of `_print_text`, and of the verdict of `exit_code`. For people, reports are listed with one
line for each finding and for each malformed component, and a summary at the end. A line starts with
the place, so that editors can jump to it.
-/

namespace RawHtmlLint

open Console

namespace Report

/-- The start of a line: path, line and column. -/
def place (path : String) (p : Position) : List Char :=
  shown path.toList ++ (":" ++ toString p.line ++ ":" ++ toString p.column ++ ": ").toList

/-- A code in brackets. -/
def bracketed (code : String) : List Char := ("[" ++ code ++ "]").toList

/-- The line of a malformed component. -/
def diagnosticLine (path : String) (d : Diagnostic) : List Char :=
  place path (d.position.getD ⟨1, 0⟩) ++ "parse error ".toList ++ shown d.message.toList ++
    ' ' :: bracketed d.code

/-- The line of a finding. -/
def findingLine (f : Finding) : List Char :=
  place f.path f.location.start ++ f.message.toList ++ ' ' :: bracketed Rule.name

/-- The lines of one report. -/
def lines : Report → List (List Char)
  | .malformed path d => [diagnosticLine path d]
  | .checked _ findings => findings.map findingLine

/-- The number of findings of all the reports. -/
def findingCount (reports : List Report) : Nat :=
  reports.foldr (fun r n => r.findings.length + n) 0

/-- The number of malformed components. -/
def malformedCount (reports : List Report) : Nat := reports.countP (!·.isParsed)

/-- The last line. -/
def summary (reports : List Report) : String :=
  let files := toString reports.length ++ " file(s) checked"
  let findings := findingCount reports
  let malformed := malformedCount reports
  if findings = 0 && malformed = 0 then "✅ " ++ files ++ ", no unsafe raw HTML"
  else
    let tail := if malformed = 0 then ""
      else ", " ++ toString malformed ++ " file(s) failed to parse"
    "❌ " ++ toString findings ++ " unsafe insertion(s) in " ++ files ++ tail

/-- The listing of all the reports. -/
def listing (reports : List Report) : List Char :=
  (reports.flatMap lines ++ [(summary reports).toList]).flatMap Console.line

/-- What a run over components comes to. -/
inductive Verdict where
  | clean
  | findings
  | malformed
  deriving DecidableEq, Repr

/-- The verdict on reports: malformed components come before findings. -/
def verdict (reports : List Report) : Verdict :=
  if reports.any (!·.isParsed) then .malformed
  else if reports.any (!·.findings.isEmpty) then .findings
  else .clean

end Report

end RawHtmlLint
