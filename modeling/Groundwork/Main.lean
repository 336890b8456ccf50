import Groundwork.CommandLine

/-!
# The program

Runs the command line and prints what comes of it.
-/

/-- Prints the result of the arguments and ends with its exit code. -/
def main (args : List String) : IO UInt32 := do
  let result := Groundwork.CommandLine.run args
  (← IO.getStdout).putStr result.output
  (← IO.getStderr).putStr result.errors
  return result.code.toUInt32
