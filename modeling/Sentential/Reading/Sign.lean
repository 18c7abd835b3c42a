import Sentential.Text.Classes
import Sentential.Token

/-!
# Signs

The signs of a formula are single characters: letters, the negation sign, the four connectives and
the two parentheses. Blanks may stand anywhere between signs and are dropped, but the signs keep
their columns.
-/

namespace Sentential

/-- What a character of a formula can be. -/
inductive Sign
  | letter (c : Char)
  | negation
  | connective (k : Connective)
  | opening
  | closing
  deriving DecidableEq, Repr

namespace Sign

/-- The sign that a character is, if it is one. -/
def ofChar? (c : Char) : Option Sign :=
  if c = '(' then some opening
  else if c = ')' then some closing
  else if c = '~' then some negation
  else match Connective.ofChar? c with
    | some k => some (connective k)
    | none => if isAlphabetic c then some (letter c) else none

/-- The characters of a text that are not blank, with their columns. -/
def significant (text : List Char) : List (Char × Nat) :=
  text.zipIdx.filter fun entry => !isBlank entry.1

end Sign

end Sentential
