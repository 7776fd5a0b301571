import RawHtmlLint.Analysis
import RawHtmlLint.CommandLine.Arguments
import RawHtmlLint.Report.Listing
import RawHtmlLint.Settings
import RawHtmlLint.Text.Lines

/-!
# The command line

Model of `check`, `parse`, `exit_code` and `_load_settings`. A run is a function from the arguments
and what surrounds the run (files, environment and grammars) to a transcript: what is written, what
is complained of, and how the run ends. Arguments that cannot be understood, wrong settings, files
that cannot be read and malformed components give the exit code 2; unsafe insertions give 1.

Not every failure is dealt with. One that is not breaks the run off: it is an end of its own, which
no exit code stands for, and what was to be written after it is not written.
-/

namespace RawHtmlLint.CommandLine

/-- What surrounds a run. -/
structure Surroundings where
  files : FileTree
  environment : List (String × String)
  grammars : Grammar.Grammars

/-- What breaks a run off. -/
inductive Breach where
  /-- The file of variables is not UTF-8. -/
  | settings (fault : Text.Utf8.Fault)
  /-- What is asked for as a level of the log is another part of it, which fails in a way of its
  own. -/
  | logLevel (kind : String)
  /-- An analysis fails. -/
  | analysis (failure : Failure)

/-- The kind of the error with which a run breaks off. -/
def Breach.kind : Breach → String
  | .settings _ => "UnicodeDecodeError"
  | .logLevel kind => kind
  | .analysis failure => failure.info.kind

/-- How a run ends. -/
inductive Ending where
  | exit (code : Nat)
  | brokenOff (breach : Breach)

/-- The exit code of a run that comes to its end. -/
def Ending.exitCode? : Ending → Option Nat
  | .exit code => some code
  | .brokenOff _ => none

/-- What a run leaves behind: its end, its output, and its complaints in order. -/
structure Transcript where
  ending : Ending
  output : List Char := []
  complaints : List (List Char) := []

/-- The lines of the complaints that start with the sign of a complaint, without details. -/
def Transcript.errorLines (t : Transcript) : List (List Char) :=
  ((t.complaints.flatMap Text.lines).filter (·.head? == some '❌')).map fun line =>
    line.take (Text.before " (details: ".toList line)

/-- The exit code for arguments, settings, files or components that cannot be read. -/
def unreadable : Nat := 2

/-- The exit code of a verdict. -/
def exitCode : Report.Verdict → Nat
  | .clean => 0
  | .findings => 1
  | .malformed => 2

/-- A complaint as it is shown. -/
def complaint (text : String) : List Char := Console.withoutColours ("❌ " ++ text).toList

/-- The complaint about a file that cannot be read. -/
def unreadableFile (path : Path) (fault : ReadFault) : List Char :=
  complaint (path.text ++ ": cannot read file (" ++ fault.text path.text ++ ")")

/-- Goes on with the settings, if they can be loaded. -/
def withSettings (s : Surroundings) (go : Settings → Transcript) : Transcript :=
  match Settings.load s.files s.environment with
  | .ok settings => go settings
  | .error .invalid =>
    { ending := .exit unreadable, complaints := [complaint SettingsFault.problem.text] }
  | .error (.undecodable fault) => { ending := .brokenOff (.settings fault) }

/-- The parts of the log that are written in capitals but are no levels, and how asking for them as
levels fails. -/
def noLevels : List (String × String) := [("BASIC_FORMAT", "ValueError"), ("_STYLES", "TypeError")]

/-- What comes of asking for a level, if that fails. A name without meaning does not fail: it counts
as the level of warnings. -/
def levelBreach? (text : String) : Option Breach :=
  (noLevels.lookup (LogLevel.capitals text)).map .logLevel

/-- What has come of the files so far: the reports and the complaints, last one first. -/
structure Progress where
  reports : List Report := []
  complaints : List (List Char) := []

/-- Checks one file. If that breaks the run off, the complaints made so far stay. -/
def checkFile (s : Surroundings) (options : Options) (p : Progress) (path : Path) :
    Except (Breach × List (List Char)) Progress :=
  match s.files.read path with
  | .error fault => .ok { p with complaints := unreadableFile path fault :: p.complaints }
  | .ok text =>
    match analyze s.grammars options (.ofText path.text text) with
    | .ok analysis => .ok { p with reports := analysis.report :: p.reports }
    | .error failure => .error (.analysis failure, p.complaints)

/-- The reports as they are written. -/
def written (format : ReportFormat) (reports : List Report) : List Char :=
  match format with
  | .json => (Json.arr (reports.map Report.toJson)).indented.toList ++ ['\n']
  | .text => Report.listing reports

/-- Checks the files that paths stand for. -/
def check (s : Surroundings) (settings : Settings) (paths : List Path)
    (sanitizers : List String) (modern : Bool) (format : ReportFormat) : Transcript :=
  let options : Options :=
    { sanitizers := settings.sanitizers ++ sanitizers, modern := modern || settings.modern }
  let files := s.files.collect settings.extensions paths
  match files.foldlM (checkFile s options) {} with
  | .error (breach, complaints) =>
    { ending := .brokenOff breach, complaints := complaints.reverse }
  | .ok p =>
    let reports := p.reports.reverse
    let code := if p.complaints.isEmpty then exitCode (Report.verdict reports) else unreadable
    { ending := .exit code, output := written format reports, complaints := p.complaints.reverse }

/-- Writes the template of one component. -/
def parse (s : Surroundings) (settings : Settings) (path : Path) (modern : Bool) : Transcript :=
  match s.files.read path with
  | .error fault => { ending := .exit unreadable, complaints := [unreadableFile path fault] }
  | .ok text =>
    match Template.parse s.grammars (modern || settings.modern) (.ofText path.text text) with
    | .ok parsed =>
      { ending := .exit 0, output := parsed.component.toJson.indented.toList ++ ['\n'] }
    | .error (.malformed d) => { ending := .exit unreadable, complaints := [complaint d.text] }
    | .error failure => { ending := .brokenOff (.analysis failure) }

/-- Runs a command. Its paths must lead to something, and that of `parse` to a file. -/
def runCommand (s : Surroundings) : Command → Transcript
  | .check paths sanitizers modern format logLevel =>
    let paths := paths.map Path.ofText
    if !paths.all fun path => (s.files.find path).isOk then { ending := .exit unreadable }
    else withSettings s fun settings =>
      match logLevel.bind levelBreach? with
      | some breach => { ending := .brokenOff breach }
      | none => check s settings paths sanitizers modern format
  | .parse path modern =>
    let path := Path.ofText path
    if s.files.isFile path then
      withSettings s fun settings => parse s settings path modern
    else { ending := .exit unreadable }

/-- Runs the program with arguments. -/
def run (s : Surroundings) (arguments : List String) : Transcript :=
  match Command.ofArguments? arguments with
  | some command => runCommand s command
  | none => { ending := .exit unreadable }

end RawHtmlLint.CommandLine
