import Sentential.Tree.Basic

/-!
# Projection onto the source columns

The projection of a tree writes every token in the column it came from. Tokens that rewriting has
added share their place with a neighbour; there the later token moves right, and everything after it
moves along.
-/

namespace Sentential.Tree

/-- Columns for tokens that follow one another, when the text so far ends before column `free` and
has been moved right by `shift`. -/
def placements (shift free : Nat) : List Token → List (Nat × Token)
  | [] => []
  | token :: rest =>
    let column := max (token.position + shift) free
    (column, token) :: placements (column - token.position) (column + 1) rest

/-- The text that has the given tokens at their columns, from column `free` on, and blanks
between them. -/
def spread (free : Nat) : List (Nat × Token) → List Char
  | [] => []
  | (column, token) :: rest =>
    List.replicate (column - free) ' ' ++ token.symbol :: spread (column + 1) rest

/-- The tokens of a tree, each as near as can be to the column it came from. -/
def projection (t : Tree) : String :=
  String.ofList (spread 0 (placements 0 0 t.tokens))

@[simp] theorem placements_nil (shift free : Nat) : placements shift free [] = [] := rfl

@[simp] theorem spread_nil (free : Nat) : spread free [] = [] := rfl

/-- A token never stands left of the place it came from. -/
theorem position_le_of_mem_placements {tokens : List Token} {shift free : Nat}
    {entry : Nat × Token} (h : entry ∈ placements shift free tokens) :
    entry.2.position ≤ entry.1 := by
  induction tokens generalizing shift free with
  | nil => simp at h
  | cons token rest ih =>
    simp only [placements, List.mem_cons] at h
    rcases h with rfl | h
    · simp only
      omega
    · exact ih h

end Sentential.Tree
