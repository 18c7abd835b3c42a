import Sentential.Rewriting.Basic

/-!
# Redexes and their height

A redex is a node that a rule fits. The height of a tree counts the composites on its longest
branch; rewriting leaves it as it is. The redex height is the height of the highest redex, and 0
when there is none. Main statements: a pass lowers the redex height (`redexHeight_pass`), and a tree
of redex height 0 is left alone by a pass (`pass_eq_self`). So passes reach a fixed point.
-/

namespace Sentential.Tree

/-- The greatest number of composites on a branch. -/
def height : Tree → Nat
  | proposition _ _ => 0
  | negated _ operand => operand.height
  | bare child => child.height
  | composite left _ right => max left.height right.height + 1
  | formula child => child.height

/-- Whether De Morgan's law fits the negation of a tree: it is a conjunction or a disjunction. -/
def hasDual : Tree → Bool
  | composite _ operator _ => (dualOf? operator).isSome
  | _ => false

/-- Whether implication elimination fits a composite with this operator. -/
def isImplication (operator : Token) : Bool :=
  operator.connective? = some .implication

/-- The height of the highest redex. -/
def redexHeight (eliminate : Bool) : Tree → Nat
  | proposition _ _ => 0
  | negated _ operand =>
    if operand.hasDual then operand.height else operand.redexHeight eliminate
  | bare child => child.redexHeight eliminate
  | composite left operator right =>
    if eliminate && isImplication operator then max left.height right.height + 1
    else max (left.redexHeight eliminate) (right.redexHeight eliminate)
  | formula child => child.redexHeight eliminate

theorem redexHeight_composite {eliminate : Bool} {left right : Tree} {operator : Token}
    (h : (eliminate && isImplication operator) = false) :
    (composite left operator right).redexHeight eliminate =
      max (left.redexHeight eliminate) (right.redexHeight eliminate) := by
  simp [redexHeight, h]

/-- De Morgan's law does not make implications. -/
theorem not_isImplication_dual {operator : Token} {dual : Connective}
    (h : dualOf? operator = some dual) (position : Nat) :
    isImplication ⟨.connective dual, position⟩ = false := by
  obtain ⟨k, _, hk⟩ := Option.bind_eq_some_iff.1 h
  cases k <;> cases hk <;> rfl

theorem redexHeight_le_height (eliminate : Bool) (t : Tree) :
    t.redexHeight eliminate ≤ t.height := by
  induction t with
  | proposition => simp [redexHeight]
  | negated mark operand ih => simp only [redexHeight, height]; split <;> omega
  | bare child ih => exact ih
  | composite left operator right ihl ihr => simp only [redexHeight, height]; split <;> omega
  | formula child ih => exact ih

theorem redexHeight_le_negated (eliminate : Bool) (mark : Token) (t : Tree) :
    t.redexHeight eliminate ≤ (negated mark t).redexHeight eliminate := by
  have := redexHeight_le_height eliminate t
  simp only [redexHeight]
  split <;> omega

theorem redexHeight_negated_eq_zero_iff {eliminate : Bool} {mark : Token} {operand : Tree} :
    (negated mark operand).redexHeight eliminate = 0 ↔
      operand.hasDual = false ∧ operand.redexHeight eliminate = 0 := by
  cases hd : operand.hasDual with
  | false => simp [redexHeight, hd]
  | true =>
    cases operand with
    | composite => simp [redexHeight, hd, height]
    | _ => simp [hasDual] at hd

theorem redexHeight_composite_eq_zero_iff {eliminate : Bool} {left right : Tree}
    {operator : Token} :
    (composite left operator right).redexHeight eliminate = 0 ↔
      (eliminate && isImplication operator) = false ∧
        left.redexHeight eliminate = 0 ∧ right.redexHeight eliminate = 0 := by
  cases hi : eliminate && isImplication operator with
  | true => simp [redexHeight, hi]
  | false => rw [redexHeight_composite hi, Nat.max_eq_zero_iff, and_iff_right rfl]

/-! ### Negating a tree -/

@[simp] theorem height_opposite (t : Tree) : t.opposite.height = t.height := by
  induction t with
  | proposition negation letter => cases negation <;> rfl
  | bare child ih => exact ih
  | negated => rfl
  | composite => rfl
  | formula => rfl

/-- Negating a tree puts a redex at its root at most. -/
theorem redexHeight_opposite (eliminate : Bool) (t : Tree) :
    t.opposite.redexHeight eliminate ≤ max (t.redexHeight eliminate) t.height := by
  induction t with
  | proposition negation letter => cases negation <;> simp [opposite, redexHeight]
  | negated mark operand ih =>
    have := redexHeight_le_negated eliminate mark operand
    simp only [opposite]
    omega
  | bare child ih => exact ih
  | composite left operator right ihl ihr =>
    have := redexHeight_le_height eliminate (composite left operator right)
    simp only [opposite]
    rw [redexHeight]
    split <;> omega
  | formula child ih =>
    show (formula child).redexHeight eliminate ≤ _
    exact Nat.le_max_left _ _

/-! ### What the rules do to a rebuilt node -/

theorem rewrittenBy_deMorgan_composite {mark operator : Token} {left right : Tree}
    {dual : Connective} (h : dualOf? operator = some dual) :
    (negated mark (composite left operator right)).rewrittenBy deMorgan =
      composite left.opposite ⟨.connective dual, operator.position⟩ right.opposite := by
  simp [rewrittenBy, deMorgan, h]

theorem rewrittenBy_deMorgan_of_not_hasDual {mark : Token} {operand : Tree}
    (h : operand.hasDual = false) :
    (negated mark operand).rewrittenBy deMorgan = negated mark operand := by
  cases operand with
  | composite left operator right =>
    have none : dualOf? operator = none := by simpa [hasDual] using h
    simp [rewrittenBy, deMorgan, none]
  | _ => rfl

theorem rewrittenBy_eliminateImplication {operator : Token} (left right : Tree)
    (h : isImplication operator = true) :
    (composite left operator right).rewrittenBy eliminateImplication =
      composite left.opposite ⟨.connective .disjunction, operator.position⟩ right := by
  have h : operator.connective? = some .implication := by simpa [isImplication] using h
  simp [rewrittenBy, eliminateImplication, h]

theorem rewrittenBy_eliminateImplication_of_not {operator : Token} (left right : Tree)
    (h : isImplication operator = false) :
    (composite left operator right).rewrittenBy eliminateImplication =
      composite left operator right := by
  have h : operator.connective? ≠ some .implication := by simpa [isImplication] using h
  simp [rewrittenBy, eliminateImplication, h]

theorem exists_composite_of_hasDual {t : Tree} (h : t.hasDual = true) :
    ∃ left operator right dual, t = composite left operator right ∧
      dualOf? operator = some dual := by
  cases t with
  | composite left operator right =>
    obtain ⟨dual, hd⟩ := Option.isSome_iff_exists.1 (by simpa [hasDual] using h)
    exact ⟨left, operator, right, dual, rfl, hd⟩
  | _ => simp [hasDual] at h

/-! ### The pass, node by node -/

theorem pass_negated_of_hasDual {eliminate : Bool} {mark operator : Token}
    {operand left right : Tree} {dual : Connective}
    (h : operand.pass eliminate = composite left operator right)
    (hd : dualOf? operator = some dual) :
    (negated mark operand).pass eliminate =
      composite left.opposite ⟨.connective dual, operator.position⟩ right.opposite := by
  rw [pass, h, rewrittenBy_deMorgan_composite hd]

theorem pass_negated_of_not_hasDual {eliminate : Bool} {mark : Token} {operand : Tree}
    (h : (operand.pass eliminate).hasDual = false) :
    (negated mark operand).pass eliminate = negated mark (operand.pass eliminate) := by
  rw [pass, rewrittenBy_deMorgan_of_not_hasDual h]

theorem pass_composite_of_implication {eliminate : Bool} {operator : Token} (left right : Tree)
    (h : (eliminate && isImplication operator) = true) :
    (composite left operator right).pass eliminate =
      composite (left.pass eliminate).opposite ⟨.connective .disjunction, operator.position⟩
        (right.pass eliminate) := by
  obtain ⟨he, hi⟩ := Bool.and_eq_true_iff.1 h
  simp only [pass, he, if_true]
  exact rewrittenBy_eliminateImplication _ _ hi

theorem pass_composite_of_not_implication {eliminate : Bool} {operator : Token} (left right : Tree)
    (h : (eliminate && isImplication operator) = false) :
    (composite left operator right).pass eliminate =
      composite (left.pass eliminate) operator (right.pass eliminate) := by
  simp only [pass]
  split
  · next he =>
    exact rewrittenBy_eliminateImplication_of_not _ _ (by simpa [he] using h)
  · rfl

/-- What a pass does to a negation: De Morgan's law if it fits the rebuilt operand, else nothing. -/
theorem pass_negated_cases (eliminate : Bool) (mark : Token) (operand : Tree) :
    (∃ left operator right dual, operand.pass eliminate = composite left operator right ∧
      dualOf? operator = some dual ∧ (negated mark operand).pass eliminate =
        composite left.opposite ⟨.connective dual, operator.position⟩ right.opposite) ∨
    ((operand.pass eliminate).hasDual = false ∧
      (negated mark operand).pass eliminate = negated mark (operand.pass eliminate)) := by
  cases hd : (operand.pass eliminate).hasDual with
  | true =>
    obtain ⟨left, operator, right, dual, hp, hdual⟩ := exists_composite_of_hasDual hd
    exact .inl ⟨left, operator, right, dual, hp, hdual, pass_negated_of_hasDual hp hdual⟩
  | false => exact .inr ⟨rfl, pass_negated_of_not_hasDual hd⟩

/-- What a pass does to a composite: implication elimination if it takes part and fits, else
nothing. -/
theorem pass_composite_cases (eliminate : Bool) (left : Tree) (operator : Token) (right : Tree) :
    ((eliminate && isImplication operator) = true ∧
      (composite left operator right).pass eliminate =
        composite (left.pass eliminate).opposite ⟨.connective .disjunction, operator.position⟩
          (right.pass eliminate)) ∨
    ((eliminate && isImplication operator) = false ∧
      (composite left operator right).pass eliminate =
        composite (left.pass eliminate) operator (right.pass eliminate)) := by
  cases hi : eliminate && isImplication operator with
  | true => exact .inl ⟨rfl, pass_composite_of_implication _ _ hi⟩
  | false => exact .inr ⟨rfl, pass_composite_of_not_implication _ _ hi⟩

@[simp] theorem height_pass (eliminate : Bool) (t : Tree) :
    (t.pass eliminate).height = t.height := by
  induction t with
  | proposition => rfl
  | negated mark operand ih =>
    obtain ⟨left, operator, right, dual, hp, -, passed⟩ | ⟨-, passed⟩ :=
      pass_negated_cases eliminate mark operand
    · rw [passed]
      rw [hp] at ih
      simpa [height] using ih
    · rw [passed]
      exact ih
  | bare child ih => exact ih
  | composite left operator right ihl ihr =>
    obtain ⟨-, passed⟩ | ⟨-, passed⟩ := pass_composite_cases eliminate left operator right
    all_goals rw [passed]; simp [height, ihl, ihr]
  | formula child ih => exact ih

/-- Where a pass leaves a conjunction or a disjunction under a negation, the whole operand was as
high as a redex. -/
theorem height_le_redexHeight_negated {eliminate : Bool} {t : Tree} (mark : Token)
    (h : (t.pass eliminate).hasDual = true) :
    t.height ≤ (negated mark t).redexHeight eliminate := by
  induction t generalizing mark with
  | proposition => simp [pass, hasDual] at h
  | bare => simp [pass, hasDual] at h
  | formula => simp [pass, hasDual] at h
  | negated inner operand ih =>
    cases hd : (operand.pass eliminate).hasDual with
    | true => simpa [redexHeight, hasDual, height] using ih inner hd
    | false => rw [pass_negated_of_not_hasDual hd] at h; simp [hasDual] at h
  | composite left operator right ihl ihr =>
    cases hi : eliminate && isImplication operator with
    | true =>
      have := redexHeight_le_negated eliminate mark (composite left operator right)
      simp only [redexHeight, hi, if_true, height] at *
      omega
    | false =>
      rw [pass_composite_of_not_implication _ _ hi] at h
      have : (composite left operator right).hasDual = true := by simpa [hasDual] using h
      simp [redexHeight, this]

/-- A pass lowers the height of the highest redex. -/
theorem redexHeight_pass (eliminate : Bool) (t : Tree) :
    (t.pass eliminate).redexHeight eliminate ≤ t.redexHeight eliminate - 1 := by
  induction t with
  | proposition => simp [pass, redexHeight]
  | bare child ih => exact ih
  | formula child ih => exact ih
  | negated mark operand ih =>
    cases hd : (operand.pass eliminate).hasDual with
    | true =>
      have high := height_le_redexHeight_negated mark hd
      obtain ⟨left, operator, right, dual, hp, hdual⟩ := exists_composite_of_hasDual hd
      rw [pass_negated_of_hasDual hp hdual]
      have same : max left.height right.height + 1 = operand.height := by
        rw [← height_pass eliminate operand, hp, height]
      have hl := redexHeight_opposite eliminate left
      have hr := redexHeight_opposite eliminate right
      have hl' := redexHeight_le_height eliminate left
      have hr' := redexHeight_le_height eliminate right
      rw [redexHeight_composite (by simp [not_isImplication_dual hdual])]
      omega
    | false =>
      rw [pass_negated_of_not_hasDual hd]
      have := redexHeight_le_negated eliminate mark operand
      rw [redexHeight, hd]
      simp only [Bool.false_eq_true, if_false]
      omega
  | composite left operator right ihl ihr =>
    cases hi : eliminate && isImplication operator with
    | true =>
      rw [pass_composite_of_implication _ _ hi]
      have hl := redexHeight_opposite eliminate (left.pass eliminate)
      have hl' := redexHeight_le_height eliminate (left.pass eliminate)
      have hr' := redexHeight_le_height eliminate (right.pass eliminate)
      simp only [height_pass] at hl hl' hr'
      rw [redexHeight_composite (by simp [isImplication, Token.connective?])]
      simp only [redexHeight, hi, if_true]
      omega
    | false =>
      rw [pass_composite_of_not_implication _ _ hi, redexHeight_composite hi,
        redexHeight_composite hi]
      omega

/-- Without a redex nothing changes, not even a place. -/
theorem pass_eq_self {eliminate : Bool} {t : Tree} (h : t.redexHeight eliminate = 0) :
    t.pass eliminate = t := by
  induction t with
  | proposition => rfl
  | bare child ih => rw [pass, ih h]
  | formula child ih => rw [pass, ih h]
  | negated mark operand ih =>
    obtain ⟨noDual, inner⟩ := redexHeight_negated_eq_zero_iff.1 h
    rw [pass_negated_of_not_hasDual (by rw [ih inner]; exact noDual), ih inner]
  | composite left operator right ihl ihr =>
    obtain ⟨hi, hl, hr⟩ := redexHeight_composite_eq_zero_iff.1 h
    rw [pass_composite_of_not_implication _ _ hi, ihl hl, ihr hr]

/-- A pass that changes a tree lowers its redex height. -/
theorem redexHeight_pass_lt {eliminate : Bool} {t : Tree} (h : ¬ Similar (t.pass eliminate) t) :
    (t.pass eliminate).redexHeight eliminate < t.redexHeight eliminate := by
  have lowered := redexHeight_pass eliminate t
  cases hr : t.redexHeight eliminate with
  | zero => exact absurd (by rw [pass_eq_self hr]) h
  | succ => omega

end Sentential.Tree
