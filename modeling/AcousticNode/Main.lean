import AcousticNode.CommandLine.Basic

/-!
# The program

Runs the command line on the arguments of the process.
-/

set_option autoImplicit false

/-- Prints what a run prints and ends as it ends. -/
def main (args : List String) : IO UInt32 := do
  let outcome := AcousticNode.CommandLine.run args
  (← IO.getStdout).putStr outcome.stdout
  (← IO.getStderr).putStr outcome.stderr
  return outcome.exit
