import Mathlib.Order.Bounds.Basic
import Sentential.Proofs.Meaning
import Sentential.Record

/-!
# The way to the fixed point

The redex height of a tree bounds the number of passes to its fixed point, because each pass that
changes a tree lowers it. The passes that are counted and recorded are the iterates of a pass, and
the last one is the first that changes nothing. No redex is left then.
-/

namespace Sentential

namespace Tree

variable {eliminate : Bool} {t : Tree}

/-! ### Counting passes -/

theorem passCount_le_redexHeight (eliminate : Bool) (t : Tree) :
    (t.rewritings eliminate).passCount ≤ t.redexHeight eliminate + 1 := by
  induction t using rewritings.induct eliminate with
  | case1 t similar =>
      rw [rewritings_of_similar similar]
      exact Nat.le_add_left 1 _
  | case2 t notSimilar ih =>
      have lower := redexHeight_pass_lt notSimilar
      rw [rewritings_of_not_similar notSimilar]
      simp only [Rewritings.passCount, List.length_cons] at ih ⊢
      omega

theorem passCount_le_height (eliminate : Bool) (t : Tree) :
    (t.rewritings eliminate).passCount ≤ t.height + 1 :=
  (passCount_le_redexHeight eliminate t).trans
    (Nat.add_le_add_right (redexHeight_le_height eliminate t) 1)

/-- Every pass before the last one changes the tree. -/
theorem not_similar_of_lt_length_earlier {k : Nat}
    (h : k < (t.rewritings eliminate).earlier.length) :
    ¬ Similar ((pass eliminate)^[k + 1] t) ((pass eliminate)^[k] t) := by
  induction t using rewritings.induct eliminate generalizing k with
  | case1 t similar =>
      rw [rewritings_of_similar similar] at h
      cases h
  | case2 t notSimilar ih =>
      cases k with
      | zero => exact notSimilar
      | succ k =>
          rw [rewritings_of_not_similar notSimilar, List.length_cons] at h
          exact ih (Nat.lt_of_succ_lt_succ h)

/-- The last pass does not. -/
theorem similar_length_earlier (eliminate : Bool) (t : Tree) :
    Similar ((pass eliminate)^[(t.rewritings eliminate).earlier.length + 1] t)
      ((pass eliminate)^[(t.rewritings eliminate).earlier.length] t) := by
  induction t using rewritings.induct eliminate with
  | case1 t similar => rwa [rewritings_of_similar similar]
  | case2 t notSimilar ih =>
      rw [rewritings_of_not_similar notSimilar]
      exact ih

theorem isLeast_passCount (eliminate : Bool) (t : Tree) :
    IsLeast {k | 1 ≤ k ∧ Similar ((pass eliminate)^[k] t) ((pass eliminate)^[k - 1] t)}
      (t.rewritings eliminate).passCount := by
  refine ⟨⟨Nat.le_add_left 1 _, similar_length_earlier eliminate t⟩, ?_⟩
  rintro k ⟨positive, similar⟩
  obtain ⟨k, rfl⟩ := Nat.exists_eq_add_of_le' positive
  refine Nat.succ_le_succ (Nat.le_of_not_lt fun early => ?_)
  exact not_similar_of_lt_length_earlier early similar

/-! ### The end of the way -/

@[simp] theorem height_shape (t : Tree) : t.shape.height = t.height := by
  induction t <;> simp_all [shape, height]

@[simp] theorem hasDual_shape (t : Tree) : t.shape.hasDual = t.hasDual := by
  cases t <;> rfl

@[simp] theorem redexHeight_shape (eliminate : Bool) (t : Tree) :
    t.shape.redexHeight eliminate = t.redexHeight eliminate := by
  induction t with
  | proposition => rfl
  | negated mark operand ih => simp only [shape, redexHeight, hasDual_shape, height_shape, ih]
  | bare child ih => exact ih
  | composite left operator right ihl ihr =>
      simp only [shape, redexHeight, height_shape, ihl, ihr]
      rfl
  | formula child ih => exact ih

/-- A tree that a pass leaves as it was has no redex, since a pass would have lowered its redex
height. -/
theorem redexHeight_eq_zero_of_similar (h : Similar (t.pass eliminate) t) :
    t.redexHeight eliminate = 0 := by
  have lowered := redexHeight_pass eliminate t
  have same := h.congr (redexHeight_shape eliminate)
  omega

theorem redexHeight_normalize (eliminate : Bool) (t : Tree) :
    (t.normalize eliminate).redexHeight eliminate = 0 := by
  induction t using rewritings.induct eliminate with
  | case1 t similar =>
      have none := redexHeight_eq_zero_of_similar similar
      rw [normalize_of_similar similar, pass_eq_self none, none]
  | case2 t notSimilar ih => rwa [normalize_of_not_similar notSimilar]

/-! ### Records -/

theorem ofPasses_earlier (eliminate : Bool) (t : Tree) (first : Nat) :
    Record.ofPasses first (t.rewritings eliminate).earlier =
      (List.range (t.rewritings eliminate).earlier.length).map fun i =>
        .passed (first + i) ((pass eliminate)^[i + 1] t) := by
  induction t using rewritings.induct eliminate generalizing first with
  | case1 t similar =>
      rw [rewritings_of_similar similar]
      rfl
  | case2 t notSimilar ih =>
      rw [rewritings_of_not_similar notSimilar, Record.ofPasses, ih, List.length_cons,
        List.range_succ_eq_map, List.map_cons, List.map_map]
      congr 1
      refine List.map_congr_left fun i _ => ?_
      simp only [Function.comp_apply, Function.iterate_succ_apply, Nat.succ_eq_add_one,
        Nat.add_assoc, Nat.add_comm 1]

/-- Rewriting to the fixed point takes as many passes as it takes until one changes nothing, and at
most one more than there are composites on a branch of the tree. The records show the result of
every pass under its number, and the last one says how many there were. -/
theorem rewritings_reach_fixedPoint (eliminate : Bool) (t : Tree) :
    (t.rewritings eliminate).passCount ≤ t.height + 1 ∧
    IsLeast {k | 1 ≤ k ∧ Similar ((pass eliminate)^[k] t) ((pass eliminate)^[k - 1] t)}
      (t.rewritings eliminate).passCount ∧
    t.normalize eliminate = (pass eliminate)^[(t.rewritings eliminate).passCount] t ∧
    Record.ofRewritings (t.rewritings eliminate) =
      ((List.range ((t.rewritings eliminate).passCount - 1)).map fun i =>
        .passed (i + 1) ((pass eliminate)^[i + 1] t)) ++
      [.settled (t.normalize eliminate) (t.rewritings eliminate).passCount] := by
  refine ⟨passCount_le_height eliminate t, isLeast_passCount eliminate t,
    normalize_eq_iterate_pass eliminate t, ?_⟩
  rw [Record.ofRewritings, ofPasses_earlier]
  simp only [Nat.add_comm 1]
  rfl

end Tree

end Sentential
