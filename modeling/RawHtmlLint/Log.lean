import RawHtmlLint.Json.Basic

/-!
# Log events

The events that `log_error` and the end of `LogPerformance` write. An event has a name, a level and
data by name. A failure adds the kind and the text of its error to the data; the end of a timed
operation is told under the operation's name, with the data as it is when the operation ends and
with the time it took.
-/

namespace RawHtmlLint

/-- How urgent an event is. -/
inductive LogLevel where
  | debug
  | info
  | warning
  | error
  | critical
  deriving DecidableEq, Repr

/-- The level's name. -/
def LogLevel.name : LogLevel → String
  | .debug => "debug"
  | .info => "info"
  | .warning => "warning"
  | .error => "error"
  | .critical => "critical"

/-- A log event. -/
structure Event where
  level : LogLevel
  name : String
  data : List (String × Json)
  /-- How long the operation took that the event ends, in hundredths of a millisecond. -/
  duration : Option Nat := none

/-- The kind and the text of an error. -/
structure ErrorInfo where
  kind : String
  text : String

namespace Event

/-- A warning about something that failed. -/
def failed (name : String) (error : Option ErrorInfo) (data : List (String × Json)) : Event :=
  match error with
  | some e => {
      level := .warning, name
      data := Json.merge data [("error_type", .str e.kind), ("error_message", .str e.text)] }
  | none => { level := .warning, name, data }

/-- The end of an operation, by the data it has at its end and the time it took. -/
def ended (operation : String) (data : List (String × Json)) (duration : Nat)
    (error : Option ErrorInfo) : Event :=
  match error with
  | some e => { failed (operation ++ "_failed") (some e) data with duration := some duration }
  | none =>
    { level := .debug, name := operation ++ "_complete", data, duration := some duration }

/-- The event as one object, but for the time that an operation took. -/
def toJson (e : Event) : Json :=
  .obj (("event", .str e.name) :: ("log_level", .str e.level.name) :: e.data)

end Event

end RawHtmlLint
