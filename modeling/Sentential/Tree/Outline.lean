import Sentential.Tree.Basic

/-!
# The outline of a tree

An outline has one line for each node and one for each token, indented by two blanks for every level
of depth. A node's line carries the word for its sort; its tokens and children follow from left to
right, one level deeper.
-/

namespace Sentential.Tree

/-- A line of an outline: how deep it stands and what it says. -/
structure OutlineLine where
  depth : Nat
  label : List Char
  deriving DecidableEq, Repr

/-- The characters of a line, its line break included. -/
def OutlineLine.chars (line : OutlineLine) : List Char :=
  List.replicate (2 * line.depth) ' ' ++ line.label ++ ['\n']

/-- The line of a node. -/
def nodeLine (depth : Nat) (t : Tree) : OutlineLine :=
  ⟨depth, t.kind.name.toList⟩

/-- The line of a token that belongs to a node at `depth`. -/
def tokenLine (depth : Nat) (token : Token) : OutlineLine :=
  ⟨depth + 1, [token.symbol]⟩

/-- The lines of a tree whose root stands at `depth`. -/
def outlineLines (depth : Nat) : Tree → List OutlineLine
  | t@(proposition negation letter) =>
    nodeLine depth t :: (negation.toList ++ [letter]).map (tokenLine depth)
  | t@(negated mark operand) =>
    nodeLine depth t :: tokenLine depth mark :: operand.outlineLines (depth + 1)
  | t@(bare child) => nodeLine depth t :: child.outlineLines (depth + 1)
  | t@(composite left operator right) =>
    nodeLine depth t :: (left.outlineLines (depth + 1) ++
      tokenLine depth operator :: right.outlineLines (depth + 1))
  | t@(formula child) => nodeLine depth t :: child.outlineLines (depth + 1)

/-- The outline of a tree as text. -/
def outline (t : Tree) : String :=
  String.ofList ((t.outlineLines 0).flatMap OutlineLine.chars)

end Sentential.Tree
