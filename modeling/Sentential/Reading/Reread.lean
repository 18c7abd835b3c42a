import Sentential.Reading.Reader
import Sentential.Tree.Canonical

/-!
# Rereading the text of a tree

A tree fits the grammar when every token is one that the grammar has in its place, whatever nodes
stand over one another. Its text need not denote it: a root inside leaves no trace, parentheses
count around a letter only, and a negation sign directly before a letter is its mark. The tree that
the text is read as instead is `reread`, and it is written with the same characters.
-/

namespace Sentential

/-- Parentheses have no tokens. -/
@[simp] theorem Reader.tokens_grouped (t : Tree) : (grouped t).tokens = t.tokens := by
  cases t <;> rfl

namespace Tree

/-- Every token is one that the grammar has in its place. A negation sign only has to look like
one. -/
def Fitting : Tree → Prop
  | proposition negation letter => (∀ mark ∈ negation, mark.symbol = '~') ∧ letter.isLetter = true
  | negated mark operand => mark.symbol = '~' ∧ operand.Fitting
  | bare child => child.Fitting
  | composite left operator right =>
    left.Fitting ∧ operator.connective?.isSome ∧ right.Fitting
  | formula child => child.Fitting

instance decidableFitting : (t : Tree) → Decidable t.Fitting
  | proposition _ _ => inferInstanceAs (Decidable (_ ∧ _))
  | negated _ operand =>
    have := decidableFitting operand
    inferInstanceAs (Decidable (_ ∧ _))
  | bare child => decidableFitting child
  | composite left _ right =>
    have := decidableFitting left
    have := decidableFitting right
    inferInstanceAs (Decidable (_ ∧ _ ∧ _))
  | formula child => decidableFitting child

/-- A tree with a negation sign before it, which becomes the mark of a letter without one. -/
def marked (position : Nat) : Tree → Tree
  | proposition none letter => .proposition (some ⟨.negation, position⟩) letter
  | other => .negated ⟨.negation, position⟩ other

/-- The tree that the text of a tree is read as, below the root. -/
def reread : Tree → Tree
  | proposition none letter => .proposition none letter
  | proposition (some mark) letter => (proposition none letter).marked mark.position
  | negated mark operand => operand.reread.marked mark.position
  | bare child => Reader.grouped child.reread
  | composite left operator right => .composite left.reread operator right.reread
  | formula child => child.reread

variable {t : Tree}

theorem marked_of_isUnmarked_eq_false (h : t.isUnmarked = false) (position : Nat) :
    t.marked position = .negated ⟨.negation, position⟩ t := by
  cases t with
  | proposition negation letter =>
      cases negation with
      | none => cases h
      | some mark => rfl
  | negated | bare | composite | formula => rfl

@[simp] theorem tokens_marked (position : Nat) (t : Tree) :
    (t.marked position).tokens = ⟨.negation, position⟩ :: t.tokens := by
  cases t with
  | proposition negation letter => cases negation <;> rfl
  | negated | bare | composite | formula => rfl

@[simp] theorem shape_marked (position : Nat) (t : Tree) :
    (t.marked position).shape = t.shape.marked 0 := by
  cases t with
  | proposition negation letter => cases negation <;> rfl
  | negated | bare | composite | formula => rfl

theorem Similar.marked {a b : Tree} (h : Similar a b) (position position' : Nat) :
    Similar (a.marked position) (b.marked position') := by
  rw [Similar, shape_marked, shape_marked, h]

theorem Fitting.map_symbol_tokens (h : t.Fitting) :
    t.reread.tokens.map Token.symbol = t.tokens.map Token.symbol := by
  induction t with
  | proposition negation letter =>
      cases negation with
      | none => rfl
      | some mark => exact congrArg (· :: [letter.symbol]) (h.1 mark rfl).symm
  | negated mark operand ih =>
      rw [reread, tokens_marked, List.map_cons, ih h.2, tokens, List.map_cons, h.1]
      rfl
  | bare child ih => rw [reread, Reader.tokens_grouped, ih h, tokens]
  | composite left operator right ihl ihr =>
      simp only [reread, tokens, List.map_append, List.map_cons, ihl h.1, ihr h.2.2]
  | formula child ih => exact ih h

/-! ### Regular trees -/

theorem Regular.fitting (h : t.Regular) : t.Fitting := by
  induction t with
  | proposition => exact ⟨fun mark own => congrArg Token.Kind.symbol (h.1 mark own), h.2⟩
  | negated mark operand ih => exact ⟨congrArg Token.Kind.symbol h.1, ih h.2.2⟩
  | bare child ih => exact ih h.2
  | composite left operator right ihl ihr => exact ⟨ihl h.1, h.2.1, ihr h.2.2⟩
  | formula child => exact h.elim

theorem Canonical.fitting (h : t.Canonical) : t.Fitting := by
  cases t with
  | formula child =>
      have regular : child.Regular := h
      exact regular.fitting
  | proposition | negated | bare | composite => exact h.elim

/-- Regular trees are read as they are. -/
theorem Regular.reread_eq (h : t.Regular) : t.reread = t := by
  have sign {mark : Token} (negates : mark.kind = .negation) : ⟨.negation, mark.position⟩ = mark :=
    negates ▸ rfl
  induction t with
  | proposition negation letter =>
      cases negation with
      | none => rfl
      | some mark => rw [reread, marked, sign (h.1 mark rfl)]
  | negated mark operand ih =>
      rw [reread, ih h.2.2, marked_of_isUnmarked_eq_false h.2.1, sign h.1]
  | bare child ih =>
      obtain ⟨alone, regular⟩ := h
      rw [reread, ih regular]
      cases child with
      | proposition => rfl
      | negated | bare | composite | formula => cases alone
  | composite left operator right ihl ihr => rw [reread, ihl h.1, ihr h.2.2]
  | formula child => exact h.elim

end Tree

end Sentential
