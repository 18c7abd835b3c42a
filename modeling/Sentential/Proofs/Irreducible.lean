import Sentential.Proofs.FixedPoint
import Sentential.Rewriting.Checked
import Sentential.Tree.Subtrees

/-!
# Fixed points are the irreducible trees

A tree is irreducible when no node of it is a redex. Its redex height is 0 then and only then, and
each pass lowers the redex height until it is 0. So a pass cannot rewrite a tree into itself, nor
can it leave a redex in a tree that it does not change: passes stop at irreducible trees and nowhere
else.
-/

namespace Sentential.Tree

/-- A redex is a negation directly over a conjunction or a disjunction and, where implications are
eliminated, an implication. -/
def IsRedex (eliminate : Bool) : Tree → Prop
  | negated _ (composite _ operator _) =>
    operator.connective? = some .conjunction ∨ operator.connective? = some .disjunction
  | composite _ operator _ => eliminate = true ∧ operator.connective? = some .implication
  | negated _ _ => False
  | proposition _ _ => False
  | bare _ => False
  | formula _ => False

instance (eliminate : Bool) : DecidablePred (IsRedex eliminate)
  | negated _ (composite _ _ _) => inferInstanceAs (Decidable (_ ∨ _))
  | composite _ _ _ => inferInstanceAs (Decidable (_ ∧ _))
  | negated _ (proposition _ _) => inferInstanceAs (Decidable False)
  | negated _ (negated _ _) => inferInstanceAs (Decidable False)
  | negated _ (bare _) => inferInstanceAs (Decidable False)
  | negated _ (formula _) => inferInstanceAs (Decidable False)
  | proposition _ _ => inferInstanceAs (Decidable False)
  | bare _ => inferInstanceAs (Decidable False)
  | formula _ => inferInstanceAs (Decidable False)

/-- No node of the tree is a redex. -/
def Irreducible (eliminate : Bool) (t : Tree) : Prop :=
  ∀ s ∈ t.subtrees, ¬ s.IsRedex eliminate

instance (eliminate : Bool) : DecidablePred (Irreducible eliminate) :=
  fun t => inferInstanceAs (Decidable (∀ s ∈ t.subtrees, ¬ s.IsRedex eliminate))

variable {eliminate : Bool} {t operand child left right : Tree} {mark operator : Token}

/-! ### Redexes are where rules fit -/

theorem isSome_dualOf?_iff :
    (dualOf? operator).isSome = true ↔
      operator.connective? = some .conjunction ∨ operator.connective? = some .disjunction := by
  cases hk : operator.connective? with
  | none => simp [dualOf?, hk]
  | some k => cases k <;> simp [dualOf?, hk, Connective.dual?]

theorem isRedex_negated_iff :
    (negated mark operand).IsRedex eliminate ↔ operand.hasDual = true := by
  cases operand with
  | composite left operator right => exact isSome_dualOf?_iff.symm
  | proposition | negated | bare | formula => simp [IsRedex, hasDual]

theorem isRedex_composite_iff :
    (composite left operator right).IsRedex eliminate ↔
      (eliminate && isImplication operator) = true := by
  simp [IsRedex, isImplication]

/-! ### Irreducible trees, node by node -/

theorem irreducible_negated_iff :
    (negated mark operand).Irreducible eliminate ↔
      operand.hasDual = false ∧ operand.Irreducible eliminate := by
  simp [Irreducible, or_imp, forall_and, isRedex_negated_iff, and_comm]

theorem irreducible_bare_iff :
    (bare child).Irreducible eliminate ↔ child.Irreducible eliminate := by
  simp [Irreducible, or_imp, forall_and, IsRedex]

theorem irreducible_formula_iff :
    (formula child).Irreducible eliminate ↔ child.Irreducible eliminate := by
  simp [Irreducible, or_imp, forall_and, IsRedex]

theorem irreducible_composite_iff :
    (composite left operator right).Irreducible eliminate ↔
      (eliminate && isImplication operator) = false ∧
        left.Irreducible eliminate ∧ right.Irreducible eliminate := by
  have root : ¬ (composite left operator right).IsRedex eliminate ↔
      (eliminate && isImplication operator) = false := by
    rw [isRedex_composite_iff, Bool.not_eq_true]
  simp only [Irreducible, mem_subtrees_composite, or_imp, forall_and, forall_eq, root]
  tauto

/-- The redex height is 0 in the absence of redexes only. -/
theorem redexHeight_eq_zero_iff (eliminate : Bool) (t : Tree) :
    t.redexHeight eliminate = 0 ↔ t.Irreducible eliminate := by
  induction t with
  | proposition => simp [redexHeight, Irreducible, IsRedex]
  | negated mark operand ih =>
      rw [redexHeight_negated_eq_zero_iff, irreducible_negated_iff, ih]
  | bare child ih => rw [redexHeight, irreducible_bare_iff, ih]
  | composite left operator right ihl ihr =>
      rw [redexHeight_composite_eq_zero_iff, irreducible_composite_iff, ihl, ihr]
  | formula child ih => rw [redexHeight, irreducible_formula_iff, ih]

/-! ### Fixed points -/

theorem similar_pass_iff (eliminate : Bool) (t : Tree) :
    Similar (t.pass eliminate) t ↔ t.Irreducible eliminate := by
  rw [← redexHeight_eq_zero_iff]
  constructor
  · exact redexHeight_eq_zero_of_similar
  · intro none
    rw [pass_eq_self none]

theorem normalize_pass (eliminate : Bool) (t : Tree) :
    (t.pass eliminate).normalize eliminate = t.normalize eliminate := by
  by_cases similar : Similar (t.pass eliminate) t
  · rw [pass_eq_self (redexHeight_eq_zero_of_similar similar)]
  · rw [normalize_of_not_similar similar]

/-- A pass leaves a tree as it was, places apart, exactly if no node is a redex. The result of
rewriting has no redex and is left alone by another pass, and it does not matter to rewriting
whether a pass was made before. No rule is ever refused on the way. -/
theorem fixedPoint_iff_irreducible (eliminate : Bool) (t : Tree) :
    t.checkedPass eliminate = .ok (t.pass eliminate) ∧
    (t.checkedRewritings eliminate).map Rewritings.final = .ok (t.normalize eliminate) ∧
    (Similar (t.pass eliminate) t ↔ t.Irreducible eliminate) ∧
    (t.normalize eliminate).Irreducible eliminate ∧
    (t.normalize eliminate).pass eliminate = t.normalize eliminate ∧
    (t.pass eliminate).normalize eliminate = t.normalize eliminate := by
  have none := redexHeight_normalize eliminate t
  refine ⟨checkedPass_eq eliminate t, ?_, similar_pass_iff eliminate t, ?_, pass_eq_self none,
    normalize_pass eliminate t⟩
  · rw [checkedRewritings_eq]
    rfl
  · exact (redexHeight_eq_zero_iff eliminate _).1 none

/-- A negated implication is a redex in neither way, but holds one if implications are
eliminated. -/
example :
    let t : Tree := .negated ⟨.negation, 0⟩ (.composite (.proposition none ⟨.letter 'p', 2⟩)
      ⟨.connective .implication, 4⟩ (.proposition none ⟨.letter 'q', 6⟩))
    t.Irreducible false ∧ ¬ t.IsRedex true ∧ ¬ t.Irreducible true := by
  decide

end Sentential.Tree
