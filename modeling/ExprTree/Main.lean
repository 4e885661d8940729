/-
# The command line

Prints what a run of the demonstration leaves behind and ends with its exit code.
-/
import ExprTree.Demo.Sample

/-- Run the demonstration on the arguments of the command line. -/
def main (arguments : List String) : IO UInt32 := do
  let outcome := ExprTree.Demo.run arguments
  IO.print outcome.output
  if outcome.exitCode = 2 then
    IO.eprintln "options: [-m|--demo NAME] [-t|--threshold NUMBER] [-d|--debug]"
  return outcome.exitCode
