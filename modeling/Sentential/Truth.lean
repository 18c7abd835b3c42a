import Sentential.Tree.Subtrees
import Sentential.Valuation.Basic

/-!
# Classical truth

The classical semantics of formulas: an assignment gives a truth value to every letter, connectives
are truth functions, and a negation sign exchanges the two truth values. Columns and bytes have no
part in it.

A tree has a truth value under a valuation if nothing is wrong with any of its nodes: the letters
have values, and the operators are connectives. Of several faults the first one in post-order
counts.
-/

namespace Sentential

/-- The truth function of a connective. -/
def Connective.holds : Connective → Bool → Bool → Bool
  | conjunction, a, b => a && b
  | disjunction, a, b => a || b
  | implication, a, b => !a || b
  | equivalence, a, b => a == b

/-- The letters that a valuation makes true. -/
def Valuation.holds (v : Valuation) (letter : Char) : Bool :=
  v.get? letter = some 1

namespace Tree

/-- The truth value of a tree under an assignment. Operators that are no connectives join nothing
true. -/
def holds (assignment : Char → Bool) : Tree → Bool
  | proposition none letter => assignment letter.symbol
  | proposition (some _) letter => !assignment letter.symbol
  | negated _ operand => !operand.holds assignment
  | bare child => child.holds assignment
  | composite left operator right =>
    match operator.connective? with
    | some k => k.holds (left.holds assignment) (right.holds assignment)
    | none => false
  | formula child => child.holds assignment

/-- What is wrong with the root of a tree, if anything is. -/
def rootFault (v : Valuation) : Tree → Option Fault
  | proposition _ letter =>
    match v.get? letter.symbol with
    | some _ => none
    | none => some (.unassigned letter.symbol)
  | composite _ operator _ =>
    match operator.connective? with
    | some _ => none
    | none => some (.unknownConnective operator)
  | negated _ _ => none
  | bare _ => none
  | formula _ => none

/-- What is wrong with the first node, in post-order, that anything is wrong with. -/
def firstFault (v : Valuation) (t : Tree) : Option Fault :=
  t.subtrees.findSome? (rootFault v)

end Tree

end Sentential
