import Sentential.Command.Configuration
import Sentential.Rewriting.Checked
import Sentential.Table.Basic
import Sentential.Tree.Outline
import Sentential.Tree.Projection

/-!
# Runs

A run reads the formula and then prints the sections it was asked for, all from one truth table. At
the first fault it stops, and what was printed before stays printed.
-/

namespace Sentential.Command

/-- What a run prints, and the fault that ended it early. -/
structure Report where
  printed : String
  failure : Option Fault
  deriving DecidableEq, Repr

/-- A part of a run: the text it prints, found with the help of the table. -/
abbrev Part := Table → Table.Outcome String

/-- The parts of a run in turn. -/
def runParts (table : Table) : List Part → Report
  | [] => ⟨"", none⟩
  | part :: rest =>
    let outcome := part table
    match outcome.result with
    | .error fault => ⟨"", some fault⟩
    | .ok text =>
      let after := runParts outcome.table rest
      ⟨text ++ after.printed, after.failure⟩

/-- The formula must be readable, whatever else is asked for. -/
def readPart : Part :=
  fun table => table.readTree.map fun _ => ""

/-- The value under a valuation. -/
def valuePart (v : Valuation) : Part :=
  fun table => (table.evaluate v).map fun value =>
    "F(" ++ v.text ++ ") = " ++ toString value.toNat ++ "\n"

/-- The truth table. -/
def tablePart : Part :=
  fun table => table.render.map fun text => text ++ "\n"

/-- The verdict on the formula. -/
def verdictPart : Part :=
  fun table => table.construct.map fun verdict =>
    "This formula is a " ++ verdict.name ++ "\n"

/-- The formula rewritten as a normal form asks. -/
def NormalForm.apply (form : NormalForm) (tree : Tree) : Except Fault Tree :=
  Except.mapError Fault.inapplicable <|
    if form.toFixedPoint then (tree.checkedRewritings form.eliminate).map Rewritings.final
    else tree.checkedPass form.eliminate

/-- The outlines of a formula before and after rewriting, the rewritten formula, and the projections
of both. -/
def rewritingText (tree rewritten : Tree) : String :=
  tree.outline ++ rewritten.outline ++ rewritten.text ++ "\n" ++
    rewritten.projection ++ "\n" ++ tree.projection ++ "\n"

/-- The rewritten formula. -/
def rewritingPart (form : NormalForm) : Part :=
  fun table => table.readTree.andThen fun tree next =>
    .answer next ((form.apply tree).map fun rewritten => rewritingText tree rewritten)

/-- The parts of a run. -/
def Configuration.parts (configuration : Configuration) : List Part :=
  [readPart] ++ (configuration.valuation.map valuePart).toList ++
    (if configuration.truthTable then [tablePart, verdictPart] else []) ++
    (configuration.normalForm.map rewritingPart).toList

/-- The run of a configuration. -/
def Configuration.run (configuration : Configuration) : Report :=
  runParts (Table.ofText configuration.text) configuration.parts

/-- What an invocation leads to. -/
def Invocation.report (invocation : Invocation) : Report :=
  match Configuration.ofInvocation invocation with
  | .error fault => ⟨"", some fault⟩
  | .ok configuration => configuration.run

end Sentential.Command
