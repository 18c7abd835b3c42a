import Sentential.Fault

/-!
# Rewriting rules and passes

De Morgan's law moves a negation from a conjunction or a disjunction to its operands; the other rule
writes an implication as a disjunction. Both put new negations with `opposite`, which cancels a
negation that is already there. A rule that does not fit a tree says why.

A pass goes through a tree once, from the leaves up, and applies a rule to every rebuilt node that
it fits. Negations that a rule has put around an operand are left for the next pass. De Morgan's law
always takes part; implication elimination takes part when `eliminate` is set.
-/

namespace Sentential.Tree

/-- The negation of a tree, cancelling one in place. A negation sign that has to be added takes the
place of the leftmost token. -/
def opposite : Tree → Tree
  | proposition none letter => .proposition (some ⟨.negation, letter.position⟩) letter
  | proposition (some _) letter => .proposition none letter
  | negated _ operand => operand
  | bare child => child.opposite
  | composite left operator right =>
    .negated ⟨.negation, (composite left operator right).leadingPosition⟩
      (.composite left operator right)
  | formula child => .negated ⟨.negation, (formula child).leadingPosition⟩ (.formula child)

/-- The connective that De Morgan's law puts for the operator `token`, if it has one. -/
def dualOf? (token : Token) : Option Connective :=
  token.connective?.bind Connective.dual?

/-- De Morgan's law: `~(A & B)` becomes `~A | ~B`, and `~(A | B)` becomes `~A & ~B`. -/
def deMorgan : Tree → Except Refusal Tree
  | negated _ (composite left operator right) =>
    match dualOf? operator with
    | some dual =>
      .ok (.composite left.opposite ⟨.connective dual, operator.position⟩ right.opposite)
    | none => .error (.noDual operator)
  | negated _ operand => .error (.operandNotComposite operand)
  | other => .error (.notNegated other)

/-- Implication elimination: `A > B` becomes `~A | B`. -/
def eliminateImplication : Tree → Except Refusal Tree
  | composite left operator right =>
    if operator.connective? = some .implication then
      .ok (.composite left.opposite ⟨.connective .disjunction, operator.position⟩ right)
    else .error (.notImplication (.composite left operator right))
  | other => .error (.notImplication other)

/-- A tree after a rule, or as it was where the rule does not fit. -/
def rewrittenBy (rule : Tree → Except Refusal Tree) (tree : Tree) : Tree :=
  match rule tree with
  | .ok result => result
  | .error _ => tree

/-- One pass over a tree. -/
def pass (eliminate : Bool) : Tree → Tree
  | proposition negation letter => .proposition negation letter
  | negated mark operand => (negated mark (operand.pass eliminate)).rewrittenBy deMorgan
  | bare child => .bare (child.pass eliminate)
  | composite left operator right =>
    let rebuilt := composite (left.pass eliminate) operator (right.pass eliminate)
    if eliminate then rebuilt.rewrittenBy eliminateImplication else rebuilt
  | formula child => .formula (child.pass eliminate)

/-- The trees after one, two, … passes, `count` of them. -/
def passes (eliminate : Bool) : Nat → Tree → List Tree
  | 0, _ => []
  | count + 1, tree => tree.pass eliminate :: passes eliminate count (tree.pass eliminate)

end Sentential.Tree

namespace Sentential

/-- What a rule does to trees. -/
def Rule.apply : Rule → Tree → Except Fault Tree
  | deMorgan, tree => tree.deMorgan.mapError Fault.inapplicable
  | implicationElimination, tree => tree.eliminateImplication.mapError Fault.inapplicable

end Sentential
