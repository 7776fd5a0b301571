/-!
# Arguments of the command line

Model of the arguments that `check` and `parse` declare. There are two commands. `check` takes
paths, trusted sanitizers, the dialect, the output format and a log level; `parse` takes one path
and the dialect. Options and paths may be mixed, and after `--` all that follows are paths. The
value of a long option is the next argument or stands after `=`; that of a short one is the next
argument or stands right behind its letter.
-/

namespace RawHtmlLint.CommandLine

/-- The options. -/
inductive OptionName where
  | sanitizer
  | modern
  | format
  | logLevel
  deriving DecidableEq, Repr

namespace OptionName

/-- The long form. -/
def long : OptionName → String
  | .sanitizer => "--sanitizer"
  | .modern => "--modern"
  | .format => "--format"
  | .logLevel => "--log-level"

/-- The letter of the short form. -/
def letter? : OptionName → Option Char
  | .sanitizer => some 's'
  | .format => some 'f'
  | .modern | .logLevel => none

/-- The option has a value. -/
def hasValue : OptionName → Bool
  | .modern => false
  | .sanitizer | .format | .logLevel => true

end OptionName

/-- The options that are given, with their values, and the other arguments. -/
structure Given where
  options : List (OptionName × String) := []
  others : List String := []

namespace Given

/-- One more option before the others. -/
def withOption (option : OptionName) (value : String) (g : Given) : Given :=
  { g with options := (option, value) :: g.options }

/-- One more argument before the others. -/
def withOther (argument : String) (g : Given) : Given :=
  { g with others := argument :: g.others }

/-- The values of an option, in order. -/
def values (g : Given) (option : OptionName) : List String :=
  (g.options.filter (·.1 = option)).map (·.2)

/-- The option is given. -/
def has (g : Given) (option : OptionName) : Bool := g.options.any (·.1 = option)

end Given

/-- What a single argument is. -/
inductive Argument where
  | other
  /-- From here on there are only other arguments. -/
  | endOfOptions
  | option (name : OptionName) (value : Option String)
  | unknown
  deriving DecidableEq, Repr

/-- Reads the long form of an option, `spelling`, with the value that is attached to it. -/
def longOption? (known : List OptionName) (spelling : String) (value : Option String) :
    Option Argument :=
  (known.find? (·.long == spelling)).map fun name =>
    if value.isSome && !name.hasValue then .unknown else .option name value

/-- Reads an argument that starts with a hyphen and goes on with `rest`. -/
def hyphened (known : List OptionName) (rest : List Char) : Argument :=
  let spelling := rest.takeWhile (· ≠ '=')
  let value := match rest.drop spelling.length with
    | _ :: value => some (String.ofList value)
    | [] => none
  match longOption? known (String.ofList ('-' :: spelling)) value with
  | some argument => argument
  | none =>
    match rest with
    | [] => .other
    | letter :: rest =>
      match known.find? (·.letter? == some letter) with
      | some name => .option name (if rest.isEmpty then none else some (String.ofList rest))
      | none => .unknown

/-- Reads one argument where the known options can be given. -/
def argument (known : List OptionName) (text : String) : Argument :=
  match text.toList with
  | ['-', '-'] => .endOfOptions
  | '-' :: rest => hyphened known rest
  | _ => .other

/-- Reads arguments where the known options can be given; fails on an unknown option, on a value
for an option without one, and on a missing value. -/
def Given.ofArguments? (known : List OptionName) : List String → Option Given
  | [] => some {}
  | text :: rest =>
    match argument known text with
    | .other => (ofArguments? known rest).map (withOther text)
    | .endOfOptions => some { others := rest }
    | .unknown => none
    | .option name (some value) => (ofArguments? known rest).map (withOption name value)
    | .option name none =>
      if name.hasValue then
        match rest with
        | value :: rest => (ofArguments? known rest).map (withOption name value)
        | [] => none
      else (ofArguments? known rest).map (withOption name "")

/-- How reports are written. -/
inductive ReportFormat where
  | text
  | json
  deriving DecidableEq, Repr

/-- The format of a name. -/
def ReportFormat.ofText? : String → Option ReportFormat
  | "text" => some .text
  | "json" => some .json
  | _ => none

/-- A command and what it is told. -/
inductive Command where
  | check (paths sanitizers : List String) (modern : Bool) (format : ReportFormat)
      (logLevel : Option String)
  | parse (path : String) (modern : Bool)
  deriving DecidableEq, Repr

namespace Command

/-- The command `check` with its arguments. -/
def check? (arguments : List String) : Option Command := do
  let given ← Given.ofArguments? [.sanitizer, .modern, .format, .logLevel] arguments
  let format ← ReportFormat.ofText? ((given.values .format).getLastD "text")
  if given.others.isEmpty then none
  else some (.check given.others (given.values .sanitizer) (given.has .modern) format
    (given.values .logLevel).getLast?)

/-- The command `parse` with its arguments. -/
def parse? (arguments : List String) : Option Command := do
  let given ← Given.ofArguments? [.modern] arguments
  match given.others with
  | [path] => some (.parse path (given.has .modern))
  | _ => none

/-- The command that the arguments give; it may stand after `--`. -/
def ofArguments? : List String → Option Command
  | "--" :: "check" :: arguments | "check" :: arguments => check? arguments
  | "--" :: "parse" :: arguments | "parse" :: arguments => parse? arguments
  | _ => none

end Command

end RawHtmlLint.CommandLine
