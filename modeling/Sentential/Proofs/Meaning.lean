import Mathlib.Logic.Function.Iterate
import Sentential.Proofs.Truth
import Sentential.Rewriting.FixedPoint

/-!
# Rewriting keeps the meaning of a tree

The meaning of a tree under a valuation is its truth value, or the fault that evaluation meets
first. Both rules keep it, on trees that no text denotes too: the operands of a rewritten node stand
in the same order, and its operator is looked at after both of them, so the first fault stays the
first. The laws behind the rules hold for the bytes 0 and 1 only, which is all that a valuation has.
-/

namespace Sentential

/-! ### Truth values -/

/-- The complement wraps around on bytes other than truth values, but it does so both times. -/
@[simp] theorem complement_complement (value : UInt8) : complement (complement value) = value := by
  simp only [complement]
  grind

namespace Connective

/-- De Morgan's laws. -/
theorem apply_dual {k dual : Connective} (h : k.dual? = some dual) {a b : UInt8} (ha : a ≤ 1)
    (hb : b ≤ 1) : dual.apply (complement a) (complement b) = complement (k.apply a b) := by
  rcases eq_zero_or_one ha with rfl | rfl <;> rcases eq_zero_or_one hb with rfl | rfl <;>
    cases k <;> cases h <;> rfl

end Connective

namespace Tree

variable {v : Valuation}

/-- The meaning of a tree under a valuation: its value, or the first fault. -/
def valueUnder (v : Valuation) (t : Tree) : Except Fault UInt8 :=
  (t.trace v).map Trace.value

/-- The meaning of a composite from those of its operands. -/
def joinValues (operator : Token) (left right : Except Fault UInt8) : Except Fault UInt8 :=
  match left, right, operator.connective? with
  | .error fault, _, _ => .error fault
  | .ok _, .error fault, _ => .error fault
  | .ok _, .ok _, none => .error (.unknownConnective operator)
  | .ok a, .ok b, some k => .ok (k.apply a b)

@[simp] theorem valueUnder_letter (v : Valuation) (letter : Token) :
    (proposition none letter).valueUnder v = v.get letter.symbol := by
  simp only [valueUnder, trace]
  cases v.get letter.symbol <;> rfl

@[simp] theorem valueUnder_negatedLetter (v : Valuation) (mark letter : Token) :
    (proposition (some mark) letter).valueUnder v = (v.get letter.symbol).map complement := by
  simp only [valueUnder, trace]
  cases v.get letter.symbol <;> rfl

@[simp] theorem valueUnder_negated (v : Valuation) (mark : Token) (t : Tree) :
    (negated mark t).valueUnder v = (t.valueUnder v).map complement := by
  simp only [valueUnder, trace]
  cases t.trace v <;> rfl

@[simp] theorem valueUnder_bare (v : Valuation) (t : Tree) :
    (bare t).valueUnder v = t.valueUnder v := by
  simp only [valueUnder, trace]
  cases t.trace v <;> rfl

@[simp] theorem valueUnder_formula (v : Valuation) (t : Tree) :
    (formula t).valueUnder v = t.valueUnder v := by
  simp only [valueUnder, trace]
  cases t.trace v <;> rfl

@[simp] theorem valueUnder_composite (v : Valuation) (left : Tree) (operator : Token)
    (right : Tree) :
    (composite left operator right).valueUnder v =
      joinValues operator (left.valueUnder v) (right.valueUnder v) := by
  simp only [valueUnder, trace, joinValues]
  cases left.trace v with
  | error => rfl
  | ok =>
      cases right.trace v with
      | error => rfl
      | ok => cases operator.connective? <;> rfl

/-- The columns of a report have no part in the meaning. -/
theorem map_value_evaluate (t : Tree) (v : Valuation) (width : Nat) :
    (t.evaluate v width).map Evaluation.value = t.valueUnder v := by
  simp only [evaluate, valueUnder]
  cases t.trace v <;> rfl

theorem valueUnder_le_one {t : Tree} {value : UInt8} (h : t.valueUnder v = .ok value) :
    value ≤ 1 := by
  obtain ⟨trace, traced, rfl⟩ := map_eq_ok h
  exact value_le_one_of_trace traced

/-! ### Negations and rules -/

theorem valueUnder_opposite (v : Valuation) (t : Tree) :
    t.opposite.valueUnder v = (t.valueUnder v).map complement := by
  induction t with
  | proposition negation letter =>
      cases negation with
      | none => simp [opposite]
      | some mark =>
          simp only [opposite, valueUnder_letter, valueUnder_negatedLetter]
          cases v.get letter.symbol <;> simp [Except.map]
  | negated mark operand ih =>
      simp only [opposite, valueUnder_negated]
      cases operand.valueUnder v <;> simp [Except.map]
  | bare child ih => simpa [opposite] using ih
  | composite left operator right => simp [opposite]
  | formula child => simp [opposite]

theorem exists_connective_of_dualOf? {operator : Token} {dual : Connective}
    (h : dualOf? operator = some dual) :
    ∃ k, operator.connective? = some k ∧ k.dual? = some dual :=
  Option.bind_eq_some_iff.1 h

/-- Both operands of the rewritten node are visited before the operator, as they were before. -/
theorem valueUnder_deMorgan {t result : Tree} (h : t.deMorgan = .ok result) (v : Valuation) :
    result.valueUnder v = t.valueUnder v := by
  unfold deMorgan at h
  split at h
  · next mark left operator right =>
    split at h
    · next dual hdual =>
      cases h
      obtain ⟨k, hk, hkd⟩ := exists_connective_of_dualOf? hdual
      simp only [valueUnder_composite, valueUnder_negated, valueUnder_opposite]
      cases hl : left.valueUnder v with
      | error => rfl
      | ok a =>
          cases hr : right.valueUnder v with
          | error => rfl
          | ok b =>
              have law := k.apply_dual hkd (valueUnder_le_one hl) (valueUnder_le_one hr)
              simp only [joinValues, Except.map, hk, ← law]
              rfl
    · cases h
  · cases h
  · cases h

theorem valueUnder_eliminateImplication {t result : Tree}
    (h : t.eliminateImplication = .ok result) (v : Valuation) :
    result.valueUnder v = t.valueUnder v := by
  unfold eliminateImplication at h
  split at h
  · next left operator right =>
    split at h
    · next hk =>
      cases h
      simp only [valueUnder_composite, valueUnder_opposite]
      cases left.valueUnder v with
      | error => rfl
      | ok a =>
          cases right.valueUnder v with
          | error => rfl
          | ok b =>
              simp only [joinValues, Except.map, hk]
              rfl
    · cases h
  · cases h

theorem valueUnder_rewrittenBy {rule : Tree → Except Refusal Tree} {t : Tree}
    (keeps : ∀ result, rule t = .ok result → result.valueUnder v = t.valueUnder v) :
    (t.rewrittenBy rule).valueUnder v = t.valueUnder v := by
  unfold rewrittenBy
  split
  · next result h => exact keeps result h
  · rfl

/-! ### Passes -/

theorem valueUnder_pass (eliminate : Bool) (v : Valuation) (t : Tree) :
    (t.pass eliminate).valueUnder v = t.valueUnder v := by
  induction t with
  | proposition negation letter => rfl
  | negated mark operand ih =>
      rw [pass, valueUnder_rewrittenBy fun _ h => valueUnder_deMorgan h v, valueUnder_negated, ih,
        valueUnder_negated]
  | bare child ih => simpa [pass] using ih
  | composite left operator right ihl ihr =>
      have rebuilt :
          (composite (left.pass eliminate) operator (right.pass eliminate)).valueUnder v =
            (composite left operator right).valueUnder v := by
        simp only [valueUnder_composite, ihl, ihr]
      rw [pass]
      split
      · rw [valueUnder_rewrittenBy fun _ h => valueUnder_eliminateImplication h v, rebuilt]
      · exact rebuilt
  | formula child ih => simpa [pass] using ih

theorem valueUnder_iterate_pass (eliminate : Bool) (v : Valuation) (count : Nat) (t : Tree) :
    ((pass eliminate)^[count] t).valueUnder v = t.valueUnder v := by
  induction count generalizing t with
  | zero => rfl
  | succ count ih => rw [Function.iterate_succ_apply, ih, valueUnder_pass]

/-- The fixed point is what some number of passes leads to. -/
theorem normalize_eq_iterate_pass (eliminate : Bool) (t : Tree) :
    t.normalize eliminate = (pass eliminate)^[(t.rewritings eliminate).passCount] t := by
  induction t using rewritings.induct eliminate with
  | case1 t similar => rw [normalize, rewritings_of_similar similar]; rfl
  | case2 t notSimilar ih =>
      rw [normalize_of_not_similar notSimilar, ih, rewritings_of_not_similar notSimilar]
      rfl

/-- Any number of passes, and the rewriting to the fixed point, keep the value of a tree under every
valuation, and the fault where there is no value. The columns that the two evaluations report on
need not be the same. -/
theorem evaluate_rewritten (t : Tree) (eliminate : Bool) (v : Valuation) (width width' : Nat) :
    (∀ count, (((pass eliminate)^[count] t).evaluate v width).map Evaluation.value =
      (t.evaluate v width').map Evaluation.value) ∧
    ((t.normalize eliminate).evaluate v width).map Evaluation.value =
      (t.evaluate v width').map Evaluation.value := by
  have counted (count : Nat) :
      (((pass eliminate)^[count] t).evaluate v width).map Evaluation.value =
        (t.evaluate v width').map Evaluation.value := by
    rw [map_value_evaluate, map_value_evaluate, valueUnder_iterate_pass]
  exact ⟨counted, normalize_eq_iterate_pass eliminate t ▸ counted _⟩

end Tree

end Sentential
