import Sentential.Proofs.FixedPoint
import Sentential.Proofs.Language
import Sentential.Proofs.RoundTrip
import Sentential.Rewriting.NormalForm

/-!
# Passes compute the negation normal form

A pass keeps the negation normal form of a regular tree, under either sign. A tree without a redex
already has the form, but for bare letters and double negations: stripping it gives the form, and
one more negation sign gives the form of the negation. So the fixed point of the passes, stripped,
is the negation normal form of the tree they started from.
-/

namespace Sentential.Tree

variable {eliminate positive : Bool} {t : Tree} {left right : Tree} {operator : Token}

/-! ### The form of a composite -/

theorem nnf_composite_of_dual {k dual : Connective} (hk : operator.connective? = some k)
    (hd : k.dual? = some dual) :
    (composite left operator right).nnf eliminate positive =
      composite (left.nnf eliminate positive)
        ⟨.connective (if positive then k else dual), operator.position⟩
        (right.nnf eliminate positive) := by
  cases k <;> cases hd <;> simp [nnf, hk]

theorem nnf_composite_of_implication (h : (eliminate && isImplication operator) = true) :
    (composite left operator right).nnf eliminate positive =
      composite (left.nnf eliminate !positive)
        ⟨.connective (if positive then .disjunction else .conjunction), operator.position⟩
        (right.nnf eliminate positive) := by
  obtain ⟨rfl, hi⟩ := Bool.and_eq_true_iff.1 h
  have hk : operator.connective? = some .implication := by simpa [isImplication] using hi
  simp [nnf, hk]

/-- A composite that no rule fits stops the sign. -/
theorem nnf_composite_of_none (noDual : dualOf? operator = none)
    (h : (eliminate && isImplication operator) = false) :
    (composite left operator right).nnf eliminate positive =
      let rebuilt := composite (left.nnf eliminate true) operator (right.nnf eliminate true)
      if positive then rebuilt else negated ⟨.negation, rebuilt.leadingPosition⟩ rebuilt := by
  cases hk : operator.connective? with
  | none => simp only [nnf, hk]
  | some k =>
      cases k with
      | conjunction | disjunction => simp [dualOf?, hk, Connective.dual?] at noDual
      | equivalence => simp only [nnf, hk]
      | implication =>
          have off : eliminate = false := by simpa [isImplication, hk] using h
          simp only [nnf, hk, off]

/-- Either De Morgan's law fits the operator of a composite, or implication elimination does, or no
rule. -/
theorem operator_cases (eliminate : Bool) (operator : Token) :
    (∃ k dual, operator.connective? = some k ∧ k.dual? = some dual) ∨
    (eliminate && isImplication operator) = true ∨
    dualOf? operator = none ∧ (eliminate && isImplication operator) = false := by
  cases hd : dualOf? operator with
  | some dual =>
      obtain ⟨k, hk, hkd⟩ := exists_connective_of_dualOf? hd
      exact .inl ⟨k, dual, hk, hkd⟩
  | none =>
      cases hi : eliminate && isImplication operator with
      | true => exact .inr (.inl rfl)
      | false => exact .inr (.inr ⟨rfl, rfl⟩)

/-- A composite keeps its operator under the positive sign, unless it is eliminated. -/
theorem nnf_composite_positive (h : (eliminate && isImplication operator) = false) :
    Similar ((composite left operator right).nnf eliminate true)
      (composite (left.nnf eliminate true) operator (right.nnf eliminate true)) := by
  obtain ⟨k, dual, hk, hd⟩ | hi | ⟨noDual, hi⟩ := operator_cases eliminate operator
  · rw [nnf_composite_of_dual hk hd]
    exact .composite rfl (Token.kind_of_connective? hk).symm rfl
  · rw [h] at hi
    cases hi
  · rw [nnf_composite_of_none noDual hi]
    rfl

theorem nnf_composite_negative (noDual : dualOf? operator = none)
    (h : (eliminate && isImplication operator) = false) :
    Similar ((composite left operator right).nnf eliminate false)
      (negated ⟨.negation, 0⟩
        (composite (left.nnf eliminate true) operator (right.nnf eliminate true))) := by
  rw [nnf_composite_of_none noDual h]
  exact .negated rfl rfl

/-- The form of a composite depends on its operands through their forms only. -/
theorem nnf_composite_congr {left' right' : Tree}
    (hl : ∀ positive, Similar (left.nnf eliminate positive) (left'.nnf eliminate positive))
    (hr : ∀ positive, Similar (right.nnf eliminate positive) (right'.nnf eliminate positive)) :
    Similar ((composite left operator right).nnf eliminate positive)
      ((composite left' operator right').nnf eliminate positive) := by
  obtain ⟨k, dual, hk, hd⟩ | hi | ⟨noDual, hi⟩ := operator_cases eliminate operator
  · rw [nnf_composite_of_dual hk hd, nnf_composite_of_dual hk hd]
    exact .composite (hl positive) rfl (hr positive)
  · rw [nnf_composite_of_implication hi, nnf_composite_of_implication hi]
    exact .composite (hl !positive) rfl (hr positive)
  · have rebuilt := Similar.composite (hl true) (rfl : operator.kind = operator.kind) (hr true)
    cases positive with
    | true =>
        refine (nnf_composite_positive hi).trans (rebuilt.trans ?_)
        exact (nnf_composite_positive hi).symm
    | false =>
        refine (nnf_composite_negative noDual hi).trans (.trans (.negated rfl rebuilt) ?_)
        exact (nnf_composite_negative noDual hi).symm

/-! ### Passes keep the form -/

/-- The negation of a tree that rules put has the form of its negation. -/
theorem nnf_opposite (h : t.Regular) (eliminate positive : Bool) :
    Similar (t.opposite.nnf eliminate positive) (t.nnf eliminate !positive) := by
  induction t with
  | proposition negation letter =>
      cases negation with
      | none => cases positive <;> rfl
      | some mark =>
          cases positive with
          | true => rfl
          | false => exact .markedLetter (h.1 mark rfl).symm letter
  | negated mark operand =>
      rw [opposite, nnf, Bool.not_not]
  | bare child ih => exact ih h.2
  | composite left operator right => rw [opposite, nnf]
  | formula child => exact h.elim

/-- A pass keeps the form. This needs both signs at once, since a rule changes the sign of the
operands it negates. -/
theorem nnf_pass (h : t.Regular) (eliminate positive : Bool) :
    Similar ((t.pass eliminate).nnf eliminate positive) (t.nnf eliminate positive) := by
  induction t generalizing positive with
  | proposition => rfl
  | negated mark operand ih =>
      have kept := ih h.2.2 !positive
      obtain ⟨left, operator, right, dual, hp, hdual, passed⟩ | ⟨-, passed⟩ :=
        pass_negated_cases eliminate mark operand
      · -- The operands of the rebuilt composite have taken over the negation.
        have regular := h.2.2.pass eliminate
        rw [hp] at kept regular
        obtain ⟨k, hk, hd⟩ := exists_connective_of_dualOf? hdual
        rw [nnf_composite_of_dual hk hd] at kept
        rw [passed, nnf_composite_of_dual rfl (Connective.dual?_dual? hd), nnf]
        refine .trans ?_ kept
        refine .composite (nnf_opposite regular.1 eliminate positive) ?_
          (nnf_opposite regular.2.2 eliminate positive)
        cases positive <;> rfl
      · rw [passed]
        exact kept
  | bare child ih => exact ih h.2 positive
  | composite left operator right ihl ihr =>
      obtain ⟨hi, passed⟩ | ⟨-, passed⟩ := pass_composite_cases eliminate left operator right
      · have pushed := nnf_opposite (h.1.pass eliminate) eliminate positive
        rw [passed, nnf_composite_of_dual rfl rfl, nnf_composite_of_implication hi]
        exact .composite (pushed.trans (ihl h.1 !positive)) rfl (ihr h.2.2 positive)
      · rw [passed]
        exact nnf_composite_congr (ihl h.1) (ihr h.2.2)
  | formula child => exact h.elim

theorem nnf_normalize (h : t.Canonical) (eliminate positive : Bool) :
    Similar ((t.normalize eliminate).nnf eliminate positive) (t.nnf eliminate positive) := by
  have kept {t : Tree} (h : t.Canonical) :
      Similar ((t.pass eliminate).nnf eliminate positive) (t.nnf eliminate positive) := by
    cases t with
    | formula child => exact nnf_pass h eliminate positive
    | proposition | negated | bare | composite => exact h.elim
  induction t using rewritings.induct eliminate with
  | case1 t similar =>
      rw [normalize_of_similar similar]
      exact kept h
  | case2 t notSimilar ih =>
      rw [normalize_of_not_similar notSimilar]
      exact (ih (h.pass eliminate)).trans (kept h)

/-! ### Trees without a redex -/

/-- A tree that no rule fits is either a letter or stops the sign, so a negation sign before its
form gives the form of its negation. -/
theorem under_nnf {mark : Token} (negates : mark.kind = .negation) (h : t.Regular)
    (noRedex : t.redexHeight eliminate = 0) (noDual : t.hasDual = false) (positive : Bool) :
    Similar ((t.nnf eliminate positive).under mark) (t.nnf eliminate !positive) := by
  induction t generalizing positive with
  | proposition negation letter =>
      cases negation with
      | none =>
          cases positive with
          | true => exact .markedLetter negates letter
          | false => rfl
      | some own =>
          cases positive with
          | true => rfl
          | false => exact .markedLetter (negates.trans (h.1 own rfl).symm) letter
  | negated inner operand ih =>
      obtain ⟨dualFree, redexFree⟩ := redexHeight_negated_eq_zero_iff.1 noRedex
      exact ih h.2.2 redexFree dualFree !positive
  | bare child ih =>
      obtain ⟨alone, regular⟩ := h
      cases child with
      | proposition => exact ih regular noRedex rfl positive
      | negated | bare | composite | formula => cases alone
  | composite left operator right =>
      have none : dualOf? operator = none := by simpa [hasDual] using noDual
      obtain ⟨hi, -, -⟩ := redexHeight_composite_eq_zero_iff.1 noRedex
      cases positive with
      | true =>
          refine .trans ((nnf_composite_positive hi).under mark) ?_
          exact .trans (.negated negates rfl) (nnf_composite_negative none hi).symm
      | false =>
          refine .trans ((nnf_composite_negative none hi).under mark) ?_
          exact (nnf_composite_positive hi).symm
  | formula child => exact h.elim

/-- Without a redex, a tree has its negation normal form when it is stripped. -/
theorem stripped_of_redexHeight_eq_zero (h : t.Regular) (noRedex : t.redexHeight eliminate = 0) :
    Similar t.stripped (t.nnf eliminate true) := by
  induction t with
  | proposition => rfl
  | negated mark operand ih =>
      obtain ⟨dualFree, redexFree⟩ := redexHeight_negated_eq_zero_iff.1 noRedex
      exact .trans ((ih h.2.2 redexFree).under mark) (under_nnf h.1 h.2.2 redexFree dualFree true)
  | bare child ih => exact ih h.2 noRedex
  | composite left operator right ihl ihr =>
      obtain ⟨hi, leftFree, rightFree⟩ := redexHeight_composite_eq_zero_iff.1 noRedex
      exact .trans (.composite (ihl h.1 leftFree) rfl (ihr h.2.2 rightFree))
        (nnf_composite_positive hi).symm
  | formula child => exact h.elim

theorem Canonical.stripped_normalize (h : t.Canonical) (eliminate : Bool) :
    Similar (t.normalize eliminate).stripped ((t.normalize eliminate).nnf eliminate true) := by
  have canonical := h.normalize eliminate
  have noRedex := redexHeight_normalize eliminate t
  cases hn : t.normalize eliminate with
  | formula child =>
      rw [hn] at canonical noRedex
      exact stripped_of_redexHeight_eq_zero (t := child) canonical noRedex
  | proposition | negated | bare | composite =>
      rw [hn] at canonical
      exact canonical.elim

/-- The fixed point of the passes over the tree of a text, stripped of roots, bare letters and
double negations, is the negation normal form of the tree. -/
theorem stripped_normalize_of_read {text : String} (h : read text = .ok t) (eliminate : Bool) :
    Similar (t.normalize eliminate).stripped (t.nnf eliminate true) :=
  .trans ((canonical_of_read h).stripped_normalize eliminate)
    (nnf_normalize (canonical_of_read h) eliminate true)

/-- A text with a bare letter, a double negation, an implication under two negations and an
equivalence that stops a sign. -/
theorem stripped_normalize_nested :
    ∃ t, read "~(~((p) > ~q) & ~~(r = (~s)))" = .ok t ∧
      Similar (t.normalize true).stripped (t.nnf true true) ∧
      (t.nnf true true).text = "(~p | ~q) | ~(r = ~s)" := by
  obtain ⟨t, h⟩ : ∃ t, read "~(~((p) > ~q) & ~~(r = (~s)))" = .ok t := ⟨_, rfl⟩
  refine ⟨t, h, stripped_normalize_of_read h true, ?_⟩
  cases h
  rfl

end Sentential.Tree
