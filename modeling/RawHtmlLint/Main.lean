import RawHtmlLint.CommandLine.FromJson

/-!
# The program

The arguments are those of the command line; what surrounds the run is one line of JSON on the
standard input. A run that breaks off ends with the exit code 1, after the kind of the error.
-/

/-- Runs the program. -/
def main (arguments : List String) : IO UInt32 := do
  let snapshot ← (← IO.getStdin).getLine
  match (RawHtmlLint.Json.parse? snapshot.toList).bind
      RawHtmlLint.CommandLine.Surroundings.ofJson? with
  | none =>
    (← IO.getStderr).putStrLn "The standard input holds no snapshot of the surroundings"
    return 2
  | some surroundings =>
    let transcript := RawHtmlLint.CommandLine.run surroundings arguments
    for complaint in transcript.complaints do
      (← IO.getStderr).putStrLn (String.ofList complaint)
    (← IO.getStdout).putStr (String.ofList transcript.output)
    match transcript.ending with
    | .exit code => return code.toUInt32
    | .brokenOff breach =>
      (← IO.getStderr).putStrLn breach.kind
      return 1
