import Mathlib.Algebra.Group.Nat.Defs
import Sentential.Tree.Projection

/-!
# Checked projection

Written into a buffer, a token stands at the end of the buffer after it has been filled up with
blanks. With checked arithmetic this stops without any text where a column, or the length of the
buffer, is no word, and where a shift would lie below 0. A buffer would be cut if it were longer
than the column of the next token. Whatever the places of the tokens, neither of the last two comes
about.
-/

namespace Sentential.Tree

/-- The sum of two words of `bits` bits, unless it is no word. -/
def checkedSum (bits a b : Nat) : Option Nat :=
  if a + b < 2 ^ bits then some (a + b) else none

/-- The difference of two words, unless it lies below 0. -/
def checkedDifference (a b : Nat) : Option Nat :=
  if b ≤ a then some (a - b) else none

/-- A buffer with another character at its end, unless the new length is no word. -/
def checkedPush (bits : Nat) (buffer : List Char) (c : Char) : Option (List Char) :=
  (checkedSum bits buffer.length 1).map fun _ => buffer ++ [c]

/-- A buffer that ends before `column`: cut there, or filled up with blanks. -/
def resized (column : Nat) (buffer : List Char) : List Char :=
  buffer.take column ++ List.replicate (column - buffer.length) ' '

/-- A buffer into which tokens have been written one after the other. -/
def checkedWrite (bits shift : Nat) (buffer : List Char) : List Token → Option (List Char)
  | [] => some buffer
  | token :: rest => do
    let moved ← checkedSum bits token.position shift
    let column := max moved buffer.length
    let shift ← checkedDifference column token.position
    let buffer ← checkedPush bits (resized column buffer) token.symbol
    checkedWrite bits shift buffer rest

/-- The projection of a tree, written with checked arithmetic on words of `bits` bits. -/
def checkedProjection (bits : Nat) (t : Tree) : Option String :=
  (checkedWrite bits 0 [] t.tokens).map String.ofList

theorem checkedSum_of_lt {bits a b : Nat} (h : a + b < 2 ^ bits) :
    checkedSum bits a b = some (a + b) :=
  if_pos h

theorem checkedSum_of_le {bits a b : Nat} (h : 2 ^ bits ≤ a + b) : checkedSum bits a b = none :=
  if_neg (Nat.not_lt.2 h)

theorem checkedDifference_of_le {a b : Nat} (h : b ≤ a) : checkedDifference a b = some (a - b) :=
  if_pos h

theorem resized_of_length_le {column : Nat} {buffer : List Char} (h : buffer.length ≤ column) :
    resized column buffer = buffer ++ List.replicate (column - buffer.length) ' ' := by
  rw [resized, List.take_of_length_le h]

@[simp] theorem length_resized (column : Nat) (buffer : List Char) :
    (resized column buffer).length = column := by
  rw [resized, List.length_append, List.length_take, List.length_replicate]
  omega

/-- What a buffer is filled up with is blank. -/
theorem getElem?_resized {column i : Nat} {buffer : List Char} (behind : buffer.length ≤ i)
    (before : i < column) : (resized column buffer)[i]? = some ' ' := by
  rw [resized_of_length_le (by omega), List.getElem?_append_right behind,
    List.getElem?_replicate_of_lt (by omega)]

/-- One step of the loop: the column and the new length are words together, and the difference is
never missing. -/
theorem checkedWrite_cons (bits shift : Nat) (buffer : List Char) (token : Token)
    (rest : List Token) :
    checkedWrite bits shift buffer (token :: rest) =
      if max (token.position + shift) buffer.length + 1 < 2 ^ bits then
        checkedWrite bits (max (token.position + shift) buffer.length - token.position)
          (resized (max (token.position + shift) buffer.length) buffer ++ [token.symbol]) rest
      else none := by
  rw [checkedWrite]
  by_cases fits : token.position + shift < 2 ^ bits
  · have behind : token.position ≤ max (token.position + shift) buffer.length := by omega
    simp only [checkedSum_of_lt fits, checkedDifference_of_le behind, checkedPush, length_resized,
      Option.bind_eq_bind, Option.bind_some]
    split
    · next small => rw [checkedSum_of_lt small, Option.map_some, Option.bind_some]
    · next large => rw [checkedSum_of_le (Nat.not_lt.1 large), Option.map_none, Option.bind_none]
  · rw [checkedSum_of_le (Nat.not_lt.1 fits), if_neg (by omega)]
    rfl

end Sentential.Tree
