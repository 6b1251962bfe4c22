/-
# The program

Reads the file that a run needs, prints its lines and ends with its exit code.
-/

import FortranExpr.CommandLine

open FortranExpr

/-- The text of a file, or why it cannot be read. -/
def readFixtureFile (file : String) : IO (Except String String) := do
  try
    return .ok (← IO.FS.readFile file)
  catch
    | .noFileOrDirectory .. => return .error (CommandLine.noSuchFile file)
    | e => return .error (toString e)

/-- Runs the command line. -/
def main (arguments : List String) : IO UInt32 := do
  let terminal ← (← IO.getStderr).isTty
  let run := CommandLine.start terminal arguments
  let text ← match run with
    | .needs file _ => readFixtureFile file
    | .finished _ => pure (.ok "")
  match run.finish fun _ => text with
  | none =>
    IO.eprintln "Cannot convert object to primitive value"
    return 1
  | some outcome =>
    outcome.output.forM fun line => IO.println line
    outcome.errors.forM fun line => IO.eprintln line
    return outcome.exitCode.toUInt32
