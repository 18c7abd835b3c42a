import Sentential.Command.Response

/-!
# The command line program
-/

/-- Prints the response to the command line arguments. -/
def main (arguments : List String) : IO UInt32 := do
  let response := Sentential.Command.respond arguments
  IO.print response.output
  IO.eprint response.diagnostics
  return response.exitCode
