import Sentential.Proofs.Irreducible

/-!
# Rules apply where they fit

De Morgan's law is for negated conjunctions and negated disjunctions, implication elimination is for
implications. Each rule accepts the trees it is for and no others, whatever token stands for the
operator, and what it makes of them means what they meant.

A pass looks at the rebuilt operand of a negation, or at the operator that a composite had from the
start, before it calls a rule. These two guards say neither more nor less than that the rule fits
the rebuilt tree, so no rule is refused in the course of a pass, nor of any number of them.
-/

namespace Sentential

/-- The trees that a rule is for. -/
inductive Rule.Fits : Rule → Tree → Prop
  | conjunction {mark operator : Token} {left right : Tree}
      (isConjunction : operator.kind = .connective .conjunction) :
      Fits .deMorgan (.negated mark (.composite left operator right))
  | disjunction {mark operator : Token} {left right : Tree}
      (isDisjunction : operator.kind = .connective .disjunction) :
      Fits .deMorgan (.negated mark (.composite left operator right))
  | implication {operator : Token} {left right : Tree}
      (isImplication : operator.kind = .connective .implication) :
      Fits .implicationElimination (.composite left operator right)

theorem mapError_eq_ok_iff {α β γ : Type} {f : α → β} {result : Except α γ} {c : γ} :
    result.mapError f = .ok c ↔ result = .ok c := by
  cases result <;> simp [Except.mapError]

theorem mapError_eq_error_iff {α β γ : Type} {f : α → β} {result : Except α γ} {b : β} :
    result.mapError f = .error b ↔ ∃ a, result = .error a ∧ f a = b := by
  cases result <;> simp [Except.mapError]

namespace Tree

variable {t result operand left right : Tree} {mark operator : Token} {rule : Rule}

/-! ### Guards -/

theorem fits_deMorgan_negated_iff :
    Rule.deMorgan.Fits (negated mark operand) ↔ operand.hasDual = true := by
  constructor
  · intro fits
    cases fits with
    | conjunction isConjunction =>
        exact isSome_dualOf?_iff.2 (.inl (Token.connective?_eq_some_iff.2 isConjunction))
    | disjunction isDisjunction =>
        exact isSome_dualOf?_iff.2 (.inr (Token.connective?_eq_some_iff.2 isDisjunction))
  · intro dual
    obtain ⟨left, operator, right, -, rfl, -⟩ := exists_composite_of_hasDual dual
    obtain isConjunction | isDisjunction := isSome_dualOf?_iff.1 dual
    · exact .conjunction (Token.connective?_eq_some_iff.1 isConjunction)
    · exact .disjunction (Token.connective?_eq_some_iff.1 isDisjunction)

theorem fits_implicationElimination_composite_iff :
    Rule.implicationElimination.Fits (composite left operator right) ↔
      isImplication operator = true := by
  rw [isImplication, decide_eq_true_iff, Token.connective?_eq_some_iff]
  constructor
  · rintro ⟨⟩
    assumption
  · exact .implication

/-! ### Rules -/

theorem isOk_deMorgan_iff : t.deMorgan.isOk = true ↔ Rule.deMorgan.Fits t := by
  cases t with
  | negated mark operand =>
      rw [fits_deMorgan_negated_iff]
      cases operand with
      | composite left operator right =>
          rw [deMorgan, hasDual]
          cases dualOf? operator <;> simp [Except.isOk, Except.toBool]
      | proposition | negated | bare | formula =>
          exact iff_of_false Bool.false_ne_true Bool.false_ne_true
  | proposition | bare | composite | formula =>
      refine iff_of_false Bool.false_ne_true fun fits => ?_
      cases fits

theorem isOk_eliminateImplication_iff :
    t.eliminateImplication.isOk = true ↔ Rule.implicationElimination.Fits t := by
  cases t with
  | composite left operator right =>
      rw [fits_implicationElimination_composite_iff, eliminateImplication, isImplication,
        decide_eq_true_iff]
      split
      · next implication => exact iff_of_true rfl implication
      · next other => exact iff_of_false Bool.false_ne_true other
  | proposition | negated | bare | formula =>
      refine iff_of_false Bool.false_ne_true fun fits => ?_
      cases fits

theorem rule_of_deMorgan {refusal : Refusal} (h : t.deMorgan = .error refusal) :
    refusal.rule = .deMorgan := by
  unfold deMorgan at h
  split at h
  · split at h
    · cases h
    · cases h
      rfl
  · cases h
    rfl
  · cases h
    rfl

theorem rule_of_eliminateImplication {refusal : Refusal}
    (h : t.eliminateImplication = .error refusal) : refusal.rule = .implicationElimination := by
  unfold eliminateImplication at h
  split at h
  · split at h
    · cases h
    · cases h
      rfl
  · cases h
    rfl

end Tree

namespace Rule

variable {t result : Tree} {rule : Rule} {fault : Fault}

theorem isOk_apply_iff : (rule.apply t).isOk = true ↔ rule.Fits t := by
  cases rule with
  | deMorgan =>
      rw [← Tree.isOk_deMorgan_iff, apply]
      cases t.deMorgan <;> rfl
  | implicationElimination =>
      rw [← Tree.isOk_eliminateImplication_iff, apply]
      cases t.eliminateImplication <;> rfl

/-- A refused rule says which rule it is. -/
theorem exists_refusal_of_apply (h : rule.apply t = .error fault) :
    ∃ refusal, fault = .inapplicable refusal ∧ refusal.rule = rule := by
  cases rule with
  | deMorgan =>
      obtain ⟨refusal, refused, rfl⟩ := mapError_eq_error_iff.1 h
      exact ⟨refusal, rfl, Tree.rule_of_deMorgan refused⟩
  | implicationElimination =>
      obtain ⟨refusal, refused, rfl⟩ := mapError_eq_error_iff.1 h
      exact ⟨refusal, rfl, Tree.rule_of_eliminateImplication refused⟩

theorem valueUnder_apply (h : rule.apply t = .ok result) (v : Valuation) :
    result.valueUnder v = t.valueUnder v := by
  cases rule with
  | deMorgan => exact Tree.valueUnder_deMorgan (mapError_eq_ok_iff.1 h) v
  | implicationElimination =>
      exact Tree.valueUnder_eliminateImplication (mapError_eq_ok_iff.1 h) v

end Rule

namespace Tree

/-- A rule succeeds with the trees it is for and keeps their meaning, faults included; with other
trees it is refused, under its own name. Passes over a tree, one or as many as it takes, are never
refused a rule. -/
theorem rules_apply_where_they_fit (t : Tree) :
    (∀ rule : Rule, (rule.apply t).isOk = true ↔ rule.Fits t) ∧
    (∀ (rule : Rule) (fault : Fault), rule.apply t = .error fault →
      ∃ refusal, fault = .inapplicable refusal ∧ refusal.rule = rule) ∧
    (∀ (rule : Rule) (result : Tree), rule.apply t = .ok result →
      ∀ (v : Valuation) (width width' : Nat),
        (result.evaluate v width).map Evaluation.value =
          (t.evaluate v width').map Evaluation.value) ∧
    ∀ eliminate, t.checkedPass eliminate = .ok (t.pass eliminate) ∧
      t.checkedRewritings eliminate = .ok (t.rewritings eliminate) := by
  refine ⟨fun _ => Rule.isOk_apply_iff, fun _ _ => Rule.exists_refusal_of_apply, ?_, ?_⟩
  · intro rule result applied v width width'
    rw [map_value_evaluate, map_value_evaluate, Rule.valueUnder_apply applied]
  · intro eliminate
    exact ⟨checkedPass_eq eliminate t, checkedRewritings_eq eliminate t⟩

/-- De Morgan's law fits a negated disjunction, and the value that is missing before is missing
after. The operator is no implication, and that is what the other rule says of it. -/
theorem rules_apply_where_they_fit_disjunction :
    let t : Tree := .negated ⟨.negation, 0⟩ (.composite (.proposition none ⟨.letter 'p', 2⟩)
      ⟨.connective .disjunction, 4⟩ (.proposition none ⟨.letter 'q', 6⟩))
    let v := Valuation.numbered ['p'] 1
    Rule.deMorgan.Fits t ∧ ¬ Rule.implicationElimination.Fits t ∧
    (∃ result, Rule.deMorgan.apply t = .ok result ∧
      (result.evaluate v 8).map Evaluation.value = .error (.unassigned 'q')) ∧
    ∃ refusal, Rule.implicationElimination.apply t = .error (.inapplicable refusal) ∧
      refusal.rule = .implicationElimination := by
  intro t v
  obtain ⟨fits, refused, keeps, -⟩ := rules_apply_where_they_fit t
  refine ⟨(fits .deMorgan).1 rfl, fun h => absurd ((fits .implicationElimination).2 h) nofun,
    ⟨_, rfl, keeps .deMorgan _ rfl v 8 8⟩, ?_⟩
  obtain ⟨refusal, same, rule⟩ := refused .implicationElimination _ rfl
  exact ⟨refusal, congrArg Except.error same, rule⟩

end Tree

end Sentential
