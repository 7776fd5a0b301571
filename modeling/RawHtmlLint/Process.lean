import RawHtmlLint.Diagnostic
import RawHtmlLint.Grammar.Registry
import RawHtmlLint.Log

/-!
# Processes

Model of `get_registry`, and of `LogPerformance` as what surrounds an operation. A process keeps
one registry of grammars, which is made when it is first asked for, and that is logged. It writes
its log event by event, so what was logged before a failure stays in the log.

A timed operation has data of its own, to which what runs inside it may add. The data is read when
the operation ends, whichever way it ends, and told with the time that has passed.
-/

namespace RawHtmlLint

/-- What a process keeps while it runs. -/
structure Process where
  /-- The registry of grammars, once it was made. -/
  registry : Option Grammar.Registry := none
  /-- The readings of the clock that are still to come, in hundredths of a millisecond. -/
  clock : List Nat := []
  /-- The data of the operation that is timed. -/
  extra : List (String × Json) := []
  /-- The events so far. -/
  log : List Event := []

/-- What a process does: it has a value or fails, and it leaves the process changed either way. -/
abbrev Task (ε : Type) := ExceptT ε (StateM Process)

namespace Task

variable {ε α : Type}

/-- What comes of a task, and the process after it. -/
def run (x : Task ε α) (p : Process) : Except ε α × Process :=
  StateT.run (m := Id) (ExceptT.run x) p

/-- What was computed without the process. -/
def ofExcept (x : Except ε α) : Task ε α := ExceptT.mk (pure x)

/-- What comes of a task, as a value: a failure can be dealt with. -/
def attempt (x : Task ε α) : Task ε (Except ε α) := ExceptT.mk (Except.ok <$> ExceptT.run x)

/-- Writes an event. -/
def log (e : Event) : Task ε Unit := modify fun p => { p with log := p.log ++ [e] }

/-- Adds to the data of the operation that is timed, or changes it. -/
def note (name : String) (value : Json) : Task ε Unit :=
  modify fun p => { p with extra := Json.merge p.extra [(name, value)] }

/-- Asks the clock. A clock without readings shows zero. -/
def time : Task ε Nat := modifyGet fun p => (p.clock.headD 0, { p with clock := p.clock.tail })

/-- The registry of the process. It is made at the first time of asking, and not again. -/
def registry (loads : Grammar.Language → Bool) : Task ε Grammar.Registry :=
  modifyGet fun p =>
    match p.registry with
    | some r => (r, p)
    | none =>
      let (r, events) := Grammar.Registry.new loads
      (r, { p with registry := some r, log := p.log ++ events })

/-- Runs an operation that starts with `data`, and logs its end with the data it has then. A
failure is logged as `describe` says, and goes on. -/
def timed (describe : ε → ErrorInfo) (operation : String) (data : List (String × Json))
    (body : Task ε α) : Task ε α := do
  let outer := (← get).extra
  modify ({ · with extra := data })
  let start ← time
  let result ← attempt body
  let duration := (← time) - start
  let extra := (← get).extra
  match result with
  | .ok _ => log (.ended operation extra duration none)
  | .error failure => log (.ended operation extra duration (describe failure))
  modify ({ · with extra := outer })
  ofExcept result

end Task

end RawHtmlLint
