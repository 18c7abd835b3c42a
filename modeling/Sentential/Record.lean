import Sentential.Evaluation
import Sentential.Rewriting.FixedPoint
import Sentential.Table.Findings

/-!
# Records

The library reports its steps as records: data that say what happened, with their wording in one
place. Operations that have nothing to carry along do not write records themselves; their records
are functions of what they were given and what they answered.
-/

namespace Sentential

/-- A step that the library reports. -/
inductive Record
  /-- A text was read as a tree. -/
  | read (text : String) (tree : Tree)
  /-- A tree has a value under a valuation. -/
  | evaluated (valuation : Valuation) (value : UInt8)
  /-- A table of so many rows is being filled. -/
  | constructing (rows : Nat) (text : String)
  /-- A full table has given a verdict. -/
  | classified (text : String) (verdict : Verdict)
  /-- A pass with this number has changed the tree. -/
  | passed (number : Nat) (tree : Tree)
  /-- A pass with this number has changed nothing. -/
  | settled (tree : Tree) (number : Nat)
  deriving DecidableEq, Repr

namespace Record

/-- How much a record matters. -/
inductive Severity
  | debug
  | trace
  deriving DecidableEq, Repr

/-- The word for a severity. -/
def Severity.name : Severity → String
  | debug => "debug"
  | trace => "trace"

/-- Evaluations are frequent and count as traces; all else is of use in debugging. -/
def severity : Record → Severity
  | evaluated _ _ => .trace
  | _ => .debug

/-- The topic that a record belongs to. -/
def topic : Record → String
  | read _ _ => "parse"
  | evaluated _ _ => "evaluation"
  | constructing _ _ => "truth table"
  | classified _ _ => "truth table"
  | passed _ _ => "transformation"
  | settled _ _ => "transformation"

/-- The wording of a record. -/
def message : Record → String
  | read text tree => "Parsed `" ++ text ++ "` as `" ++ tree.text ++ "`."
  | evaluated valuation value =>
    "F(" ++ valuation.text ++ ") = " ++ toString value.toNat
  | constructing rows text =>
    "Constructing " ++ toString rows ++ " rows for `" ++ text ++ "`."
  | classified text verdict => "`" ++ text ++ "` is a " ++ verdict.name ++ "."
  | passed number tree => "Pass " ++ toString number ++ ": `" ++ tree.text ++ "`."
  | settled tree number =>
    "Fixed point `" ++ tree.text ++ "` after " ++ toString number ++ " passes."

/-- The records of reading a text. -/
def ofReading (text : String) : Except Fault Tree → List Record
  | .ok tree => [read text tree]
  | .error _ => []

/-- The records of an evaluation. -/
def ofEvaluation (v : Valuation) : Except Fault Evaluation → List Record
  | .ok evaluation => [evaluated v evaluation.value]
  | .error _ => []

/-- The records of passes numbered from `first` on. -/
def ofPasses (first : Nat) : List Tree → List Record
  | [] => []
  | tree :: rest => passed first tree :: ofPasses (first + 1) rest

/-- The records of rewriting to a fixed point. -/
def ofRewritings (way : Rewritings) : List Record :=
  ofPasses 1 way.earlier ++ [settled way.final way.passCount]

end Record

end Sentential
