import Sentential.Rewriting.FixedPoint

/-!
# Checked rewriting

Where a rule is applied it is first seen whether it fits, and a refusal would end the whole
rewriting. Main statements: a pass never ends in a refusal and gives what `pass` gives
(`checkedPass_eq`), and neither do the passes to a fixed point (`checkedRewritings_eq`).
-/

namespace Sentential.Tree

/-- One pass over a tree, in which a refused rule is a failure. -/
def checkedPass (eliminate : Bool) : Tree → Except Refusal Tree
  | proposition negation letter => .ok (.proposition negation letter)
  | negated mark operand => do
    let operand ← operand.checkedPass eliminate
    if operand.hasDual then (negated mark operand).deMorgan
    else return .negated mark operand
  | bare child => do
    let child ← child.checkedPass eliminate
    return .bare child
  | composite left operator right => do
    let left ← left.checkedPass eliminate
    let right ← right.checkedPass eliminate
    if eliminate && isImplication operator then
      (composite left operator right).eliminateImplication
    else return .composite left operator right
  | formula child => do
    let child ← child.checkedPass eliminate
    return .formula child

theorem deMorgan_of_hasDual {mark : Token} {operand : Tree} (h : operand.hasDual = true) :
    (negated mark operand).deMorgan = .ok ((negated mark operand).rewrittenBy deMorgan) := by
  obtain ⟨left, operator, right, dual, rfl, hd⟩ := exists_composite_of_hasDual h
  rw [rewrittenBy_deMorgan_composite hd, deMorgan, hd]

theorem eliminateImplication_of_isImplication {operator : Token} (left right : Tree)
    (h : isImplication operator = true) :
    (composite left operator right).eliminateImplication =
      .ok ((composite left operator right).rewrittenBy eliminateImplication) := by
  rw [rewrittenBy_eliminateImplication left right h, eliminateImplication,
    if_pos (of_decide_eq_true h)]

/-- No rule is applied where it does not fit. -/
theorem checkedPass_eq (eliminate : Bool) (t : Tree) :
    t.checkedPass eliminate = .ok (t.pass eliminate) := by
  induction t with
  | proposition => rfl
  | bare child ih | formula child ih =>
      rw [checkedPass, ih]
      rfl
  | negated mark operand ih =>
      rw [checkedPass, ih, pass]
      show (if (operand.pass eliminate).hasDual then _ else _) = _
      split
      · next fits => exact deMorgan_of_hasDual fits
      · next refused =>
        rw [rewrittenBy_deMorgan_of_not_hasDual (Bool.eq_false_iff.2 refused)]
        rfl
  | composite left operator right ihl ihr =>
      rw [checkedPass, ihl, ihr]
      show (if eliminate && isImplication operator then _ else _) = _
      split
      · next fits =>
        obtain ⟨set, implication⟩ := Bool.and_eq_true_iff.1 fits
        rw [eliminateImplication_of_isImplication _ _ implication, pass, if_pos set]
      · next refused =>
        rw [pass_composite_of_not_implication _ _ (Bool.eq_false_iff.2 refused)]
        rfl

theorem redexHeight_lt_of_checkedPass {eliminate : Bool} {t next : Tree}
    (passed : t.checkedPass eliminate = .ok next) (changed : ¬ Similar next t) :
    next.redexHeight eliminate < t.redexHeight eliminate := by
  rw [checkedPass_eq, Except.ok.injEq] at passed
  subst passed
  exact redexHeight_pass_lt changed

/-- The passes from a tree to its fixed point, in which a refused rule is a failure. -/
def checkedRewritings (eliminate : Bool) (t : Tree) : Except Refusal Rewritings :=
  match passed : t.checkedPass eliminate with
  | .error refusal => .error refusal
  | .ok next =>
    if changed : ¬ Similar next t then
      have := redexHeight_lt_of_checkedPass passed changed
      (next.checkedRewritings eliminate).map fun rest => ⟨next :: rest.earlier, rest.final⟩
    else .ok ⟨[], next⟩
termination_by t.redexHeight eliminate

theorem checkedRewritings_of_pass (eliminate : Bool) (t : Tree) :
    t.checkedRewritings eliminate =
      if ¬ Similar (t.pass eliminate) t then
        ((t.pass eliminate).checkedRewritings eliminate).map fun rest =>
          ⟨t.pass eliminate :: rest.earlier, rest.final⟩
      else .ok ⟨[], t.pass eliminate⟩ := by
  rw [checkedRewritings]
  split
  · next passed =>
    rw [checkedPass_eq] at passed
    cases passed
  · next next passed =>
    rw [checkedPass_eq, Except.ok.injEq] at passed
    subst passed
    rfl

/-- Checked rewriting reaches the fixed point on the same way as rewriting does. -/
theorem checkedRewritings_eq (eliminate : Bool) (t : Tree) :
    t.checkedRewritings eliminate = .ok (t.rewritings eliminate) := by
  induction t using rewritings.induct eliminate with
  | case1 t similar =>
      rw [checkedRewritings_of_pass, if_neg (not_not_intro similar),
        rewritings_of_similar similar]
  | case2 t notSimilar ih =>
      rw [checkedRewritings_of_pass, if_pos notSimilar, ih, rewritings_of_not_similar notSimilar]
      rfl

end Sentential.Tree
