import Sentential.Token

/-!
# Syntax trees

A formula is a tree that carries the tokens it was read from. The type also has trees that no text
denotes: an operator may be any token, and the root node may occur inside. Every operation on trees
is therefore total on those as well.

Two trees are `Similar` when they differ at most in the places of their tokens. Rewriting invents
and drops places, so this is the equality that the rest of the library compares trees by.
-/

namespace Sentential

/-- The syntax tree of a formula. A letter keeps the negation written directly before it; `bare` is
a letter in parentheses of its own; `formula` marks the root. -/
inductive Tree
  | proposition (negation : Option Token) (letter : Token)
  | negated (mark : Token) (operand : Tree)
  | bare (child : Tree)
  | composite (left : Tree) (operator : Token) (right : Tree)
  | formula (child : Tree)
  deriving DecidableEq, Repr

namespace Tree

/-- The four sorts of nodes that messages and outlines tell apart. -/
inductive Kind
  | proposition
  | unary
  | composite
  | formula
  deriving DecidableEq, Repr

/-- The word for a sort of nodes. -/
def Kind.name : Kind → String
  | proposition => "proposition"
  | unary => "unary"
  | composite => "composite"
  | formula => "formula"

/-- The sort of a tree's root. -/
def kind : Tree → Kind
  | proposition _ _ => .proposition
  | negated _ _ => .unary
  | bare _ => .unary
  | composite _ _ _ => .composite
  | formula _ => .formula

/-- The tokens of a tree from left to right. -/
def tokens : Tree → List Token
  | proposition negation letter => negation.toList ++ [letter]
  | negated mark operand => mark :: operand.tokens
  | bare child => child.tokens
  | composite left operator right => left.tokens ++ operator :: right.tokens
  | formula child => child.tokens

theorem tokens_ne_nil (t : Tree) : t.tokens ≠ [] := by
  induction t <;> simp_all [tokens]

/-- The place of the leftmost token. -/
def leadingPosition (t : Tree) : Nat :=
  match t.tokens with
  | [] => 0
  | first :: _ => first.position

/-- One more than the greatest place of a token: the columns that a report on the tree needs. -/
def width (t : Tree) : Nat :=
  t.tokens.foldl (fun columns token => max columns (token.position + 1)) 0

/-- A tree with its tokens taken out of their places. -/
def shape : Tree → Tree
  | proposition negation letter => .proposition (negation.map Token.unplaced) letter.unplaced
  | negated mark operand => .negated mark.unplaced operand.shape
  | bare child => .bare child.shape
  | composite left operator right => .composite left.shape operator.unplaced right.shape
  | formula child => .formula child.shape

/-- Two trees agree in all but the places of their tokens. -/
def Similar (a b : Tree) : Prop :=
  a.shape = b.shape

instance : DecidableRel Similar :=
  fun a b => inferInstanceAs (Decidable (a.shape = b.shape))

@[refl] theorem Similar.refl (t : Tree) : Similar t t := rfl

theorem Similar.symm {a b : Tree} (h : Similar a b) : Similar b a := Eq.symm h

theorem Similar.trans {a b c : Tree} (hab : Similar a b) (hbc : Similar b c) : Similar a c :=
  Eq.trans hab hbc

/-- What does not depend on places is the same for similar trees. -/
theorem Similar.congr {α : Type} {f : Tree → α} (unplaced : ∀ t : Tree, f t.shape = f t)
    {a b : Tree} (h : Similar a b) : f a = f b := by
  rw [← unplaced a, h, unplaced]

theorem Similar.markedLetter {mark mark' : Token} (same : mark.kind = mark'.kind)
    (letter : Token) :
    Similar (.proposition (some mark) letter) (.proposition (some mark') letter) := by
  simp only [Similar, shape, Option.map_some, Token.unplaced, same]

theorem Similar.negated {a b : Tree} {mark mark' : Token} (same : mark.kind = mark'.kind)
    (h : Similar a b) : Similar (.negated mark a) (.negated mark' b) := by
  simp only [Similar, shape, Token.unplaced, same, show a.shape = b.shape from h]

theorem Similar.composite {a a' b b' : Tree} {operator operator' : Token} (left : Similar a a')
    (same : operator.kind = operator'.kind) (right : Similar b b') :
    Similar (.composite a operator b) (.composite a' operator' b') := by
  simp only [Similar, shape, Token.unplaced, same, show a.shape = a'.shape from left,
    show b.shape = b'.shape from right]

@[simp] theorem shape_shape (t : Tree) : t.shape.shape = t.shape := by
  induction t with
  | proposition negation letter => cases negation <;> simp [shape]
  | negated mark operand ih => simp [shape, ih]
  | bare child ih => simp [shape, ih]
  | composite left operator right ihl ihr => simp [shape, ihl, ihr]
  | formula child ih => simp [shape, ih]

theorem tokens_shape (t : Tree) : t.shape.tokens = t.tokens.map Token.unplaced := by
  induction t with
  | proposition negation letter => cases negation <;> simp [shape, tokens]
  | negated mark operand ih => simp [shape, tokens, ih]
  | bare child ih => simp [shape, tokens, ih]
  | composite left operator right ihl ihr => simp [shape, tokens, ihl, ihr]
  | formula child ih => simp [shape, tokens, ih]

theorem Similar.map_symbol_tokens {a b : Tree} (h : Similar a b) :
    a.tokens.map Token.symbol = b.tokens.map Token.symbol := by
  refine Similar.congr (f := fun t => t.tokens.map Token.symbol) (fun t => ?_) h
  rw [tokens_shape, List.map_map]
  rfl

end Tree

end Sentential
