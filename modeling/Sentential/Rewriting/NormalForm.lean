import Sentential.Tree.Basic

/-!
# Negation normal form

The negation normal form of a tree is found in one go from the root down, with a sign that says
whether the tree or its negation is wanted. A conjunction and a disjunction change places under a
negation, an implication that is to be eliminated becomes one of them, and every other composite
stops the sign.

The form has neither roots nor bare letters nor double negations. A tree is `stripped` when these
are taken out of it and nothing else is changed.
-/

namespace Sentential.Tree

/-- The negation normal form of a tree, or of its negation if `positive` is not set. -/
def nnf (eliminate : Bool) : Tree → Bool → Tree
  | proposition negation letter, true => .proposition negation letter
  | proposition none letter, false => .proposition (some ⟨.negation, letter.position⟩) letter
  | proposition (some _) letter, false => .proposition none letter
  | negated _ operand, positive => operand.nnf eliminate !positive
  | bare child, positive => child.nnf eliminate positive
  | composite left operator right, positive =>
    match operator.connective?, eliminate with
    | some .conjunction, _ =>
      .composite (left.nnf eliminate positive)
        ⟨.connective (if positive then .conjunction else .disjunction), operator.position⟩
        (right.nnf eliminate positive)
    | some .disjunction, _ =>
      .composite (left.nnf eliminate positive)
        ⟨.connective (if positive then .disjunction else .conjunction), operator.position⟩
        (right.nnf eliminate positive)
    | some .implication, true =>
      .composite (left.nnf eliminate !positive)
        ⟨.connective (if positive then .disjunction else .conjunction), operator.position⟩
        (right.nnf eliminate positive)
    | _, _ =>
      let rebuilt := composite (left.nnf eliminate true) operator (right.nnf eliminate true)
      if positive then rebuilt else .negated ⟨.negation, rebuilt.leadingPosition⟩ rebuilt
  | formula child, positive => child.nnf eliminate positive

/-- A stripped tree under one more negation sign, which cancels one that is there. -/
def under (mark : Token) : Tree → Tree
  | proposition none letter => .proposition (some mark) letter
  | proposition (some _) letter => .proposition none letter
  | negated _ operand => operand
  | other => .negated mark other

/-- A tree without roots, bare letters and double negations. -/
def stripped : Tree → Tree
  | proposition negation letter => .proposition negation letter
  | negated mark operand => operand.stripped.under mark
  | bare child => child.stripped
  | composite left operator right => .composite left.stripped operator right.stripped
  | formula child => child.stripped

@[simp] theorem shape_under (mark : Token) (t : Tree) :
    (t.under mark).shape = t.shape.under mark.unplaced := by
  cases t with
  | proposition negation letter => cases negation <;> rfl
  | negated | bare | composite | formula => rfl

theorem Similar.under {a b : Tree} (h : Similar a b) (mark : Token) :
    Similar (a.under mark) (b.under mark) := by
  rw [Similar, shape_under, shape_under, h]

end Sentential.Tree
