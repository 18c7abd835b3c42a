import Sentential.Command.Arguments
import Sentential.Command.Report

/-!
# Responses

The response to a command line is what a user sees of it: the two output streams and the exit code,
which is 0 for success, 1 for a fault in the formula or its valuation, and 2 for wrong arguments.
The wording of the help and of what is wrong with the arguments belongs to their reading and is left
out.
-/

namespace Sentential.Command

/-- The response to a command line. -/
inductive Response
  | usage (error : UsageError)
  | help
  | version
  | ran (report : Report)
  deriving DecidableEq, Repr

/-- The response to the given arguments. -/
def respond (arguments : List String) : Response :=
  match Invocation.ofArguments arguments with
  | .error (.usage error) => .usage error
  | .error .help => .help
  | .error .version => .version
  | .ok invocation => .ran invocation.report

/-- The name and version of the program. -/
def versionText : String :=
  "proplogic 0.1.0\n"

namespace Response

/-- The exit code. -/
def exitCode : Response → UInt32
  | usage _ => 2
  | help => 0
  | version => 0
  | ran report => if report.failure.isSome then 1 else 0

/-- What goes to standard output, apart from the help. -/
def output : Response → String
  | usage _ => ""
  | help => ""
  | version => versionText
  | ran report => report.printed

/-- What goes to standard error, apart from what is wrong with the arguments. -/
def diagnostics : Response → String
  | usage _ => ""
  | help => ""
  | version => ""
  | ran report =>
    match report.failure with
    | some fault => "error: " ++ fault.message ++ "\n"
    | none => ""

end Response

end Sentential.Command
