import RawHtmlLint.FileTree
import RawHtmlLint.Json.Parser
import RawHtmlLint.Log
import RawHtmlLint.Problem
import RawHtmlLint.Settings.EnvFile
import RawHtmlLint.Text.Case

/-!
# Settings

Model of `Settings` and `get_settings`. Each setting is a variable of the environment, whose name
starts with `svelte_unsafe_html_` in any letter case. What the environment leaves out is taken from
the file `.env` in the working directory, and then from the defaults. Lists are written as JSON
arrays of strings, and a JSON `null` counts as left out; a list that is no JSON at all is a mistake
even where it would not be used.
-/

namespace RawHtmlLint

/-- How log events are written. -/
inductive LogFormat where
  | console
  | json
  deriving DecidableEq, Repr

/-- The name of a log format. -/
def LogFormat.name : LogFormat → String
  | .console => "console"
  | .json => "json"

namespace LogLevel

/-- The levels, the least urgent first. -/
def all : List LogLevel := [.debug, .info, .warning, .error, .critical]

/-- The name of a level in a setting. -/
def label (l : LogLevel) : String := l.name.map Char.toUpper

/-- The text in capitals, as far as these are letters of the names of levels and of what else the
log knows by such a name. -/
def capitals (text : String) : String :=
  String.ofList <| text.toList.flatMap fun c =>
    if c = '\u0131' then ['I']
    else if c = '\u017F' then ['S']
    else if c = '\uFB05' || c = '\uFB06' then ['S', 'T']
    else [c.toUpper]

/-- The level that a text names, in any letter case. -/
def ofText? (text : String) : Option LogLevel := all.find? (·.label == capitals text)

end LogLevel

/-- What a user can set. -/
structure Settings where
  /-- The names of trusted sanitizers. -/
  sanitizers : List String := []
  /-- The newer dialect is read. -/
  modern : Bool := false
  /-- The suffixes of the files that are looked for in directories. -/
  extensions : List String := [".svelte"]
  logLevel : LogLevel := .warning
  logFormat : LogFormat := .console
  deriving DecidableEq, Repr

/-- Why there are no settings. -/
inductive SettingsFault where
  /-- A variable has a value that it cannot have. -/
  | invalid
  /-- The file of variables is not UTF-8. -/
  | undecodable (fault : Text.Utf8.Fault)

/-- The problem that a wrong value is. -/
def SettingsFault.problem : Problem :=
  ⟨.invalidSettings, "Invalid SVELTE_UNSAFE_HTML_* configuration", []⟩

namespace Settings

/-- The variables of one source by their names in small letters; one without a value counts as
left out. -/
abbrev Variables := List (String × Option String)

/-- The variables as they are listed: of two names that differ in letter case alone the later
one counts. -/
def byName (listed : List (String × Option String)) : Variables :=
  (listed.map fun v => (String.ofList (Text.lower v.1.toList), v.2)).reverse

/-- The value of a setting in one source. -/
def value? (setting : String) (source : Variables) : Option String :=
  (source.lookup ("svelte_unsafe_html_" ++ setting)).join

/-- The value of a setting in the first source that has one. -/
def firstValue? (sources : List Variables) (setting : String) : Option String :=
  sources.findSome? (value? setting)

/-- What `f` makes of a value, or the default if there is none. -/
def valueOr {α : Type} (default : α) (f : String → Option α) : Option String → Option α
  | some text => f text
  | none => some default

/-- The list that a setting has in one source; `null` is none. -/
def listIn? (setting : String) (source : Variables) : Option (Option Json) :=
  match value? setting source with
  | none => some none
  | some text =>
    match Json.parse? text.toList with
    | none => none
    | some .null => some none
    | some list => some (some list)

/-- The list that a setting has in the first source with one. -/
def list? (sources : List Variables) (setting : String) (default : List String) :
    Option (List String) := do
  let lists ← sources.mapM (listIn? setting)
  match lists.findSome? id with
  | none => some default
  | some list => list.strings?

/-- The truth value that a word stands for. -/
def truth? (text : String) : Option Bool :=
  let word := text.map Char.toLower
  if ["1", "true", "t", "yes", "y", "on"].contains word then some true
  else if ["0", "false", "f", "no", "n", "off"].contains word then some false
  else none

/-- The log format of a name. -/
def logFormat? (text : String) : Option LogFormat :=
  [LogFormat.console, .json].find? (·.name == text)

/-- An extension with its point. -/
def pointed (extension : String) : String :=
  if extension.toList.head? = some '.' then extension else "." ++ extension

/-- The settings that the sources describe, the first of them before the others. -/
def ofSources? (sources : List Variables) : Option Settings := do
  let defaults : Settings := {}
  some {
    sanitizers := ← list? sources "sanitizers" defaults.sanitizers
    modern := ← valueOr defaults.modern truth? (firstValue? sources "modern")
    extensions := (← list? sources "extensions" defaults.extensions).map pointed
    logLevel := ← valueOr defaults.logLevel LogLevel.ofText? (firstValue? sources "log_level")
    logFormat := ← valueOr defaults.logFormat logFormat? (firstValue? sources "log_format") }

/-- The variables of the file `.env`, if there is one. -/
def fileVariables (files : FileTree) (environment : List (String × String)) :
    Except SettingsFault Variables :=
  match files.read (Path.ofText ".env") with
  | .ok text => .ok (byName (EnvFile.read (environment.lookup ·) text))
  | .error (.undecodable fault) => .error (.undecodable fault)
  | .error _ => .ok []

/-- The settings of an environment and the files of the working directory. -/
def load (files : FileTree) (environment : List (String × String)) :
    Except SettingsFault Settings := do
  let fromFile ← fileVariables files environment
  match ofSources? [byName (environment.map fun v => (v.1, some v.2)), fromFile] with
  | some settings => .ok settings
  | none => .error .invalid

/-- The settings as JSON. -/
def toJson (s : Settings) : Json :=
  .obj [("sanitizers", .ofStrings s.sanitizers), ("modern", .bool s.modern),
    ("extensions", .ofStrings s.extensions), ("log_level", .str s.logLevel.label),
    ("log_format", .str s.logFormat.name)]

end Settings

end RawHtmlLint
