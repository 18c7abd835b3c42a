import Sentential.Proofs.Outlines
import Sentential.Proofs.Truth
import Sentential.Rewriting.Checked

/-!
# Similar trees are interchangeable

Rewriting stops at a tree that is similar to the one before it. This is a fixed point only because
no rule looks at places: where it reads one, it copies it into a new token. So taking the tokens out
of their places commutes with every operation, which is shown of one rule and one pass at first, and
then of all the passes to a fixed point. Evaluation uses places to lay out its marks, but neither
for the values nor to find what is wrong.

A fault may carry a tree or a token, and then it is the same up to their places as well.
-/

namespace Sentential

/-! ### Faults without places -/

/-- A refusal with the tokens in it taken out of their places. -/
def Refusal.unplaced : Refusal → Refusal
  | notNegated tree => .notNegated tree.shape
  | operandNotComposite operand => .operandNotComposite operand.shape
  | noDual operator => .noDual operator.unplaced
  | notImplication tree => .notImplication tree.shape

/-- A fault with the tokens in it taken out of their places. -/
def Fault.unplaced : Fault → Fault
  | unreadable text stop => .unreadable text stop
  | unassigned letter => .unassigned letter
  | notBit letter value => .notBit letter value
  | malformedAssignment text => .malformedAssignment text
  | unknownConnective operator => .unknownConnective operator.unplaced
  | inapplicable refusal => .inapplicable refusal.unplaced

/-- Two answers match if they are results that `same` relates, or faults that differ at most in the
places of tokens. -/
def Matching {α : Type} (same : α → α → Prop) : Except Fault α → Except Fault α → Prop
  | .ok result, .ok result' => same result result'
  | .error fault, .error fault' => fault.unplaced = fault'.unplaced
  | .ok _, .error _ => False
  | .error _, .ok _ => False

theorem Matching.of_eq {α β : Type} {f : α → β} {answer answer' : Except Fault α}
    (h : (answer.map f).mapError Fault.unplaced = (answer'.map f).mapError Fault.unplaced) :
    Matching (fun result result' => f result = f result') answer answer' := by
  cases answer with
  | ok result =>
      cases answer' with
      | ok result' => exact Except.ok.inj h
      | error fault' => cases h
  | error fault =>
      cases answer' with
      | ok result' => cases h
      | error fault' => exact Except.error.inj h

namespace Tree

/-! ### Rules -/

theorem leadingPosition_shape (t : Tree) : t.shape.leadingPosition = 0 := by
  rw [leadingPosition, tokens_shape]
  cases t.tokens <;> rfl

/-- A sign that is put before a tree stands in the place of the first token, with or without
places. -/
theorem negated_leadingPosition_shape (t : Tree) :
    negated ⟨.negation, t.shape.leadingPosition⟩ t.shape =
      (negated ⟨.negation, t.leadingPosition⟩ t).shape := by
  rw [leadingPosition_shape]
  rfl

theorem opposite_shape (t : Tree) : t.shape.opposite = t.opposite.shape := by
  induction t with
  | proposition negation letter => cases negation <;> rfl
  | negated => rfl
  | bare child ih => exact ih
  | composite left operator right =>
      exact negated_leadingPosition_shape (composite left operator right)
  | formula child => exact negated_leadingPosition_shape (formula child)

/-- Taking tokens out of their places commutes with a rule. -/
def PlaceBlind (rule : Tree → Except Refusal Tree) : Prop :=
  ∀ t : Tree, rule t.shape = ((rule t).map shape).mapError Refusal.unplaced

theorem placeBlind_deMorgan : PlaceBlind deMorgan := by
  intro t
  cases t with
  | negated mark operand =>
      cases operand with
      | composite left operator right =>
          have dual : dualOf? operator.unplaced = dualOf? operator := rfl
          rw [shape, shape, deMorgan, deMorgan, dual]
          cases dualOf? operator with
          | none => rfl
          | some k =>
              simp only [opposite_shape]
              rfl
      | proposition | negated | bare | formula => rfl
  | proposition | bare | composite | formula => rfl

theorem placeBlind_eliminateImplication : PlaceBlind eliminateImplication := by
  intro t
  cases t with
  | composite left operator right =>
      rw [shape, eliminateImplication, eliminateImplication, Token.unplaced_connective?]
      split
      · rw [opposite_shape]
        rfl
      · rfl
  | proposition | negated | bare | formula => rfl

theorem PlaceBlind.rewrittenBy {rule : Tree → Except Refusal Tree} (h : PlaceBlind rule)
    (t : Tree) : t.shape.rewrittenBy rule = (t.rewrittenBy rule).shape := by
  rw [Tree.rewrittenBy, Tree.rewrittenBy, h]
  cases rule t <;> rfl

theorem apply_shape (rule : Rule) (t : Tree) :
    rule.apply t.shape = ((rule.apply t).map shape).mapError Fault.unplaced := by
  cases rule with
  | deMorgan =>
      rw [Rule.apply, Rule.apply, placeBlind_deMorgan]
      cases t.deMorgan <;> rfl
  | implicationElimination =>
      rw [Rule.apply, Rule.apply, placeBlind_eliminateImplication]
      cases t.eliminateImplication <;> rfl

/-! ### Passes -/

theorem pass_shape (eliminate : Bool) (t : Tree) :
    t.shape.pass eliminate = (t.pass eliminate).shape := by
  induction t with
  | proposition => rfl
  | negated mark operand ih =>
      rw [shape, pass, ih, pass]
      exact placeBlind_deMorgan.rewrittenBy (negated mark (operand.pass eliminate))
  | bare child ih | formula child ih =>
      rw [shape, pass, ih]
      rfl
  | composite left operator right ihl ihr =>
      rw [shape, pass, ihl, ihr]
      cases eliminate with
      | false => rfl
      | true =>
          exact placeBlind_eliminateImplication.rewrittenBy
            (composite (left.pass true) operator (right.pass true))

end Tree

/-- The passes to a fixed point with all tokens taken out of their places. -/
def Rewritings.shape (way : Rewritings) : Rewritings :=
  ⟨way.earlier.map Tree.shape, way.final.shape⟩

@[simp] theorem Rewritings.passCount_shape (way : Rewritings) :
    way.shape.passCount = way.passCount := by
  rw [passCount, shape, List.length_map, passCount]

namespace Tree

theorem similar_pass_shape_iff {eliminate : Bool} {t : Tree} :
    Similar (t.shape.pass eliminate) t.shape ↔ Similar (t.pass eliminate) t := by
  rw [Similar, pass_shape, shape_shape, shape_shape, Similar]

theorem rewritings_shape (eliminate : Bool) (t : Tree) :
    t.shape.rewritings eliminate = (t.rewritings eliminate).shape := by
  induction t using rewritings.induct eliminate with
  | case1 t similar =>
      rw [rewritings_of_similar similar, rewritings_of_similar (similar_pass_shape_iff.2 similar),
        pass_shape]
      rfl
  | case2 t notSimilar ih =>
      rw [rewritings_of_not_similar notSimilar,
        rewritings_of_not_similar (similar_pass_shape_iff.not.2 notSimilar), pass_shape, ih]
      rfl

/-! ### Evaluation -/

theorem subtrees_shape (t : Tree) : t.shape.subtrees = t.subtrees.map shape := by
  induction t with
  | proposition => rfl
  | negated mark operand ih | bare operand ih | formula operand ih =>
      rw [shape, subtrees, ih, subtrees, List.map_append]
      rfl
  | composite left operator right ihl ihr =>
      rw [shape, subtrees, ihl, ihr, subtrees, List.map_append, List.map_append]
      rfl

@[simp] theorem holds_shape (assignment : Char → Bool) (t : Tree) :
    t.shape.holds assignment = t.holds assignment := by
  induction t with
  | proposition negation letter => cases negation <;> rfl
  | negated mark operand ih => rw [shape, holds, ih, holds]
  | bare child ih | formula child ih => exact ih
  | composite left operator right ihl ihr =>
      rw [shape, holds, ihl, ihr, holds, Token.unplaced_connective?]

theorem rootFault_shape (v : Valuation) (t : Tree) :
    t.shape.rootFault v = (t.rootFault v).map Fault.unplaced := by
  cases t with
  | proposition negation letter =>
      rw [shape, rootFault, rootFault, Token.unplaced_symbol]
      cases v.get? letter.symbol <;> rfl
  | composite left operator right =>
      rw [shape, rootFault, rootFault, Token.unplaced_connective?]
      cases operator.connective? <;> rfl
  | negated | bare | formula => rfl

theorem firstFault_shape (v : Valuation) (t : Tree) :
    t.shape.firstFault v = (t.firstFault v).map Fault.unplaced := by
  rw [firstFault, subtrees_shape, List.findSome?_map, firstFault, List.map_findSome?]
  congr 1
  funext s
  exact rootFault_shape v s

end Tree

/-- The values of a tree and its subtrees that an evaluation tells, without its entries. -/
def Evaluation.values (evaluation : Evaluation) : UInt8 × List UInt8 :=
  (evaluation.value, evaluation.annotations)

namespace Tree

/-- Neither places nor the number of columns make a difference to the values or to the fault. -/
theorem values_evaluate_shape (v : Valuation) (width width' : Nat) (t : Tree) :
    (t.shape.evaluate v width).map Evaluation.values =
      ((t.evaluate v width').map Evaluation.values).mapError Fault.unplaced := by
  rw [evaluate, evaluate, trace_eq, trace_eq, firstFault_shape]
  cases t.firstFault v with
  | some fault => rfl
  | none =>
      have annotations : (t.shape.truthTrace v.holds).annotations =
          (t.truthTrace v.holds).annotations := by
        simp only [truthTrace, subtrees_shape, List.map_map, Function.comp_def, holds_shape]
      have value : (t.shape.truthTrace v.holds).value = (t.truthTrace v.holds).value := by
        rw [truthTrace, holds_shape, truthTrace]
      simp only [Option.map_none, Except.map, Except.mapError, Evaluation.values, annotations,
        value]

/-! ### Similar trees -/

/-- What is done with two trees comes to the same, places of tokens aside. Rewriting goes through
as many passes, and none of them is refused a rule. -/
structure Interchangeable (a b : Tree) : Prop where
  text_eq : a.text = b.text
  outline_eq : a.outline = b.outline
  matching_evaluate : ∀ (v : Valuation) (width width' : Nat),
    Matching (fun evaluation evaluation' => evaluation.values = evaluation'.values)
      (a.evaluate v width) (b.evaluate v width')
  matching_apply : ∀ rule : Rule, Matching Similar (rule.apply a) (rule.apply b)
  similar_pass : ∀ eliminate, ∃ next next', a.checkedPass eliminate = .ok next ∧
    b.checkedPass eliminate = .ok next' ∧ Similar next next'
  similar_rewritings : ∀ eliminate, ∃ way way', a.checkedRewritings eliminate = .ok way ∧
    b.checkedRewritings eliminate = .ok way' ∧ way.passCount = way'.passCount ∧
    Similar way.final way'.final

variable {a b : Tree}

theorem Similar.matching_evaluate (h : Similar a b) (v : Valuation) (width width' : Nat) :
    Matching (fun evaluation evaluation' => evaluation.values = evaluation'.values)
      (a.evaluate v width) (b.evaluate v width') := by
  refine Matching.of_eq ?_
  rw [← values_evaluate_shape v 0, ← values_evaluate_shape v 0, h]

theorem Similar.matching_apply (h : Similar a b) (rule : Rule) :
    Matching Similar (rule.apply a) (rule.apply b) := by
  refine Matching.of_eq ?_
  rw [← apply_shape, ← apply_shape, h]

theorem Similar.pass (h : Similar a b) (eliminate : Bool) :
    Similar (a.pass eliminate) (b.pass eliminate) := by
  rw [Similar, ← pass_shape, ← pass_shape, h]

theorem Similar.shape_rewritings (h : Similar a b) (eliminate : Bool) :
    (a.rewritings eliminate).shape = (b.rewritings eliminate).shape := by
  rw [← rewritings_shape, ← rewritings_shape, h]

/-- Similarity is a congruence for writing, evaluating and rewriting. -/
theorem Similar.interchangeable (h : Similar a b) : Interchangeable a b where
  text_eq := h.text_eq
  outline_eq := h.outline_eq
  matching_evaluate := h.matching_evaluate
  matching_apply := h.matching_apply
  similar_pass eliminate :=
    ⟨_, _, checkedPass_eq eliminate a, checkedPass_eq eliminate b, h.pass eliminate⟩
  similar_rewritings eliminate := by
    have same := h.shape_rewritings eliminate
    refine ⟨_, _, checkedRewritings_eq eliminate a, checkedRewritings_eq eliminate b, ?_, ?_⟩
    · rw [← Rewritings.passCount_shape, same, Rewritings.passCount_shape]
    · exact congrArg Rewritings.final same

/-- The two trees are one negated implication in different places, and after a pass their tokens
still stand in different places. -/
theorem interchangeable_negated_implication :
    let tree (place : Nat) : Tree :=
      .negated ⟨.negation, place⟩ (.composite
        (.proposition (some ⟨.negation, 3⟩) ⟨.letter 'p', place + 4⟩)
        ⟨.connective .implication, 2 * place⟩ (.bare (.proposition none ⟨.letter 'q', 1⟩)))
    Similar (tree 0) (tree 9) ∧ Interchangeable (tree 0) (tree 9) ∧
      (tree 0).pass true ≠ (tree 9).pass true :=
  ⟨rfl, Similar.interchangeable rfl, by decide⟩

end Tree

end Sentential
