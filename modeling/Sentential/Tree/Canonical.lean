import Sentential.Text.Alphabetic
import Sentential.Tree.Basic

/-!
# Canonical trees

Different trees can have the same text. A canonical tree is one that reading its text gives back:
its root is a `formula` and no other node is; parentheses leave a node only around a proposition; a
negation sign directly before a letter is the mark of a proposition; and every token is one that the
grammar has in its place.
-/

namespace Sentential

/-- Whether a token is a letter, and one that texts have. -/
def Token.isLetter (token : Token) : Bool :=
  match token.kind with
  | .letter c => isAlphabetic c
  | .negation => false
  | .connective _ => false

@[simp] theorem Token.unplaced_kind (token : Token) : token.unplaced.kind = token.kind := rfl

@[simp] theorem Token.unplaced_isLetter (token : Token) :
    token.unplaced.isLetter = token.isLetter := rfl

namespace Tree

/-- Whether a tree is a letter without a negation sign of its own. -/
def isUnmarked : Tree → Bool
  | proposition none _ => true
  | proposition (some _) _ => false
  | negated _ _ => false
  | bare _ => false
  | composite _ _ _ => false
  | formula _ => false

/-- What can stand below the root of a canonical tree. -/
def Regular : Tree → Prop
  | proposition negation letter =>
    (∀ mark ∈ negation, mark.kind = .negation) ∧ letter.isLetter = true
  | negated mark operand => mark.kind = .negation ∧ operand.isUnmarked = false ∧ operand.Regular
  | bare child => child.kind = .proposition ∧ child.Regular
  | composite left operator right =>
    left.Regular ∧ operator.connective?.isSome ∧ right.Regular
  | formula _ => False

/-- The trees that agree with what reading their text gives. -/
def Canonical : Tree → Prop
  | formula child => child.Regular
  | proposition _ _ => False
  | negated _ _ => False
  | bare _ => False
  | composite _ _ _ => False

instance decidableRegular : (t : Tree) → Decidable t.Regular
  | proposition _ _ => inferInstanceAs (Decidable (_ ∧ _))
  | negated _ operand =>
    have := decidableRegular operand
    inferInstanceAs (Decidable (_ ∧ _ ∧ _))
  | bare child =>
    have := decidableRegular child
    inferInstanceAs (Decidable (_ ∧ _))
  | composite left _ right =>
    have := decidableRegular left
    have := decidableRegular right
    inferInstanceAs (Decidable (_ ∧ _ ∧ _))
  | formula _ => inferInstanceAs (Decidable False)

instance : DecidablePred Canonical
  | formula child => decidableRegular child
  | proposition _ _ => inferInstanceAs (Decidable False)
  | negated _ _ => inferInstanceAs (Decidable False)
  | bare _ => inferInstanceAs (Decidable False)
  | composite _ _ _ => inferInstanceAs (Decidable False)

@[simp] theorem kind_shape (t : Tree) : t.shape.kind = t.kind := by
  cases t <;> rfl

@[simp] theorem isUnmarked_shape (t : Tree) : t.shape.isUnmarked = t.isUnmarked := by
  cases t with
  | proposition negation letter => cases negation <;> rfl
  | negated | bare | composite | formula => rfl

@[simp] theorem regular_shape (t : Tree) : t.shape.Regular ↔ t.Regular := by
  induction t with
  | proposition negation letter =>
      cases negation <;> simp [shape, Regular]
  | negated mark operand ih =>
      simp only [shape, Regular, Token.unplaced_kind, isUnmarked_shape, ih]
  | bare child ih => simp only [shape, Regular, kind_shape, ih]
  | composite left operator right ihl ihr =>
      simp only [shape, Regular, Token.unplaced_connective?, ihl, ihr]
  | formula child => rfl

/-- Whether a tree is canonical does not depend on the places of its tokens. -/
theorem Similar.canonical_iff {a b : Tree} (h : Similar a b) : a.Canonical ↔ b.Canonical := by
  have shaped (t : Tree) : t.shape.Canonical ↔ t.Canonical := by
    cases t with
    | formula child => exact regular_shape child
    | proposition | negated | bare | composite => rfl
  rw [← shaped a, ← shaped b, h]

end Tree

end Sentential
