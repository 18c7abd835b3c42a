import Sentential.Tree.Basic

/-!
# Subtrees

Every node of a tree is the root of a subtree. The subtrees are listed in post-order: first those of
the operands, from left to right, then the tree itself. This is the order in which a tree is walked
through, and the list has one entry for every node.

Every token heads a tree: a connective its composite, a negation sign the negation that it makes,
and a letter itself, without a negation sign of its own.
-/

namespace Sentential.Tree

/-- The subtrees of a tree in post-order. -/
def subtrees : Tree → List Tree
  | t@(proposition _ _) => [t]
  | t@(negated _ operand) => operand.subtrees ++ [t]
  | t@(bare child) => child.subtrees ++ [t]
  | t@(composite left _ right) => left.subtrees ++ right.subtrees ++ [t]
  | t@(formula child) => child.subtrees ++ [t]

@[simp] theorem getLast?_subtrees (t : Tree) : t.subtrees.getLast? = some t := by
  cases t <;> simp [subtrees]

section Membership

variable {s operand child left right : Tree} {mark letter operator : Token}
  {negation : Option Token}

@[simp] theorem mem_subtrees_proposition :
    s ∈ (proposition negation letter).subtrees ↔ s = proposition negation letter := by
  simp [subtrees]

@[simp] theorem mem_subtrees_negated :
    s ∈ (negated mark operand).subtrees ↔ s ∈ operand.subtrees ∨ s = negated mark operand := by
  simp [subtrees]

@[simp] theorem mem_subtrees_bare :
    s ∈ (bare child).subtrees ↔ s ∈ child.subtrees ∨ s = bare child := by
  simp [subtrees]

@[simp] theorem mem_subtrees_composite :
    s ∈ (composite left operator right).subtrees ↔
      s ∈ left.subtrees ∨ s ∈ right.subtrees ∨ s = composite left operator right := by
  simp [subtrees]

@[simp] theorem mem_subtrees_formula :
    s ∈ (formula child).subtrees ↔ s ∈ child.subtrees ∨ s = formula child := by
  simp [subtrees]

end Membership

/-- The tokens at the root of a tree, each with the tree that it heads. -/
def rootHeads : Tree → List (Token × Tree)
  | proposition none letter => [(letter, proposition none letter)]
  | t@(proposition (some mark) letter) => [(letter, proposition none letter), (mark, t)]
  | t@(negated mark _) => [(mark, t)]
  | bare _ => []
  | t@(composite _ operator _) => [(operator, t)]
  | formula _ => []

/-- The tokens of a tree, node by node in post-order, each with the tree that it heads. -/
def heads (t : Tree) : List (Token × Tree) :=
  t.subtrees.flatMap rootHeads

@[simp] theorem heads_proposition (negation : Option Token) (letter : Token) :
    (proposition negation letter).heads = (proposition negation letter).rootHeads :=
  List.append_nil _

@[simp] theorem heads_negated (mark : Token) (operand : Tree) :
    (negated mark operand).heads = operand.heads ++ [(mark, negated mark operand)] :=
  List.flatMap_append

@[simp] theorem heads_bare (child : Tree) : (bare child).heads = child.heads :=
  List.flatMap_append.trans (List.append_nil _)

@[simp] theorem heads_composite (left : Tree) (operator : Token) (right : Tree) :
    (composite left operator right).heads =
      left.heads ++ right.heads ++ [(operator, composite left operator right)] := by
  rw [heads, subtrees, List.flatMap_append, List.flatMap_append]
  rfl

@[simp] theorem heads_formula (child : Tree) : (formula child).heads = child.heads :=
  List.flatMap_append.trans (List.append_nil _)

/-- The token that heads the whole tree, seen through parentheses and the root node. -/
def mainToken : Tree → Token
  | proposition none letter => letter
  | proposition (some mark) _ => mark
  | negated mark _ => mark
  | bare child => child.mainToken
  | composite _ operator _ => operator
  | formula child => child.mainToken

/-- Every token heads one tree. -/
theorem map_fst_heads_perm (t : Tree) : (t.heads.map Prod.fst).Perm t.tokens := by
  induction t with
  | proposition negation letter =>
      cases negation with
      | none => exact .refl _
      | some mark => exact .swap _ _ _
  | negated mark operand ih =>
      rw [heads_negated, List.map_append, tokens]
      exact (List.perm_append_singleton _ _).trans (ih.cons _)
  | bare child ih | formula child ih => simpa [tokens] using ih
  | composite left operator right ihl ihr =>
      rw [heads_composite, List.map_append, List.map_append, List.append_assoc, tokens]
      exact ihl.append ((List.perm_append_singleton _ _).trans (ihr.cons _))

end Sentential.Tree
