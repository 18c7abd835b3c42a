import Sentential.Reading.Sign
import Sentential.Tree.Basic

/-!
# The grammar of formulas

    formula     := operand CONNECTIVE operand | operand
    operand     := proposition | '~' (group | operand) | group
    group       := '(' formula ')'
    proposition := '~'? LETTER

A derivation places signs in columns and denotes a tree. The grammar is ambiguous in two ways. The
negation sign of `~p` can be the mark of a proposition or head an operand; a derivation that always
takes it for a mark is `Marking`. The group of `~(p)` can stand behind the sign itself or as an
operand; a derivation that never takes the detour is `Direct`. The first choice shows in the tree,
the second does not.
-/

namespace Sentential

namespace Sign

/-- Whether the first of some signs is a letter. -/
def letterFirst : List (Sign × Nat) → Bool
  | (letter _, _) :: _ => true
  | _ => false

/-- Whether the first of some signs is an opening parenthesis. -/
def openingFirst : List (Sign × Nat) → Bool
  | (opening, _) :: _ => true
  | _ => false

/-- The sign is written as the character. -/
def WrittenAs : Sign → Char → Prop
  | letter c, d => d = c ∧ isAlphabetic c = true
  | negation, d => d = '~'
  | connective k, d => d = k.symbol
  | opening, d => d = '('
  | closing, d => d = ')'

end Sign

/-- The sorts of phrases that the grammar derives. -/
inductive Phrase
  | formula
  | operand
  | group
  | proposition
  deriving DecidableEq, Repr

/-- The derivations of a sort of phrases, one constructor for each alternative of the grammar. Every
sign comes with its column. -/
inductive Derivation : Phrase → Type
  | joined (left : Derivation .operand) (k : Connective) (column : Nat)
      (right : Derivation .operand) : Derivation .formula
  | single (operand : Derivation .operand) : Derivation .formula
  | plain (inner : Derivation .proposition) : Derivation .operand
  | negatedGroup (mark : Nat) (inner : Derivation .group) : Derivation .operand
  | negatedOperand (mark : Nat) (inner : Derivation .operand) : Derivation .operand
  | grouped (inner : Derivation .group) : Derivation .operand
  | enclosed (first : Nat) (inner : Derivation .formula) (last : Nat) : Derivation .group
  | letter (c : Char) (column : Nat) : Derivation .proposition
  | markedLetter (mark : Nat) (c : Char) (column : Nat) : Derivation .proposition

namespace Derivation

/-- The signs of a derivation from left to right, with their columns. -/
def signs {phrase : Phrase} : Derivation phrase → List (Sign × Nat)
  | joined left k column right => left.signs ++ (.connective k, column) :: right.signs
  | single operand => operand.signs
  | plain inner => inner.signs
  | negatedGroup mark inner => (.negation, mark) :: inner.signs
  | negatedOperand mark inner => (.negation, mark) :: inner.signs
  | grouped inner => inner.signs
  | enclosed first inner last => (.opening, first) :: (inner.signs ++ [(.closing, last)])
  | letter c column => [(.letter c, column)]
  | markedLetter mark c column => [(.negation, mark), (.letter c, column)]

/-- The tree of a derivation. Parentheses leave a node only around a proposition. -/
def tree {phrase : Phrase} : Derivation phrase → Tree
  | joined left k column right => .composite left.tree ⟨.connective k, column⟩ right.tree
  | single operand => operand.tree
  | plain inner => inner.tree
  | negatedGroup mark inner => .negated ⟨.negation, mark⟩ inner.tree
  | negatedOperand mark inner => .negated ⟨.negation, mark⟩ inner.tree
  | grouped inner => inner.tree
  | enclosed _ inner _ =>
    match inner.tree with
    | .proposition mark name => .bare (.proposition mark name)
    | other => other
  | letter c column => .proposition none ⟨.letter c, column⟩
  | markedLetter mark c column => .proposition (some ⟨.negation, mark⟩) ⟨.letter c, column⟩

/-- A negation sign directly before a letter is the mark of a proposition, everywhere in the
derivation. -/
def Marking {phrase : Phrase} : Derivation phrase → Prop
  | joined left _ _ right => left.Marking ∧ right.Marking
  | single operand => operand.Marking
  | plain inner => inner.Marking
  | negatedGroup _ inner => inner.Marking
  | negatedOperand _ inner => Sign.letterFirst inner.signs = false ∧ inner.Marking
  | grouped inner => inner.Marking
  | enclosed _ inner _ => inner.Marking
  | letter _ _ => True
  | markedLetter _ _ _ => True

/-- A negation sign before an opening parenthesis stands directly before the group, everywhere in
the derivation. -/
def Direct {phrase : Phrase} : Derivation phrase → Prop
  | joined left _ _ right => left.Direct ∧ right.Direct
  | single operand => operand.Direct
  | plain inner => inner.Direct
  | negatedGroup _ inner => inner.Direct
  | negatedOperand _ inner => Sign.openingFirst inner.signs = false ∧ inner.Direct
  | grouped inner => inner.Direct
  | enclosed _ inner _ => inner.Direct
  | letter _ _ => True
  | markedLetter _ _ _ => True

end Derivation

/-- The text from some column on writes the signs, in their columns, with any blanks before,
between and after them. -/
inductive Spells : Nat → List Char → List (Sign × Nat) → Prop
  | nil (column : Nat) : Spells column [] []
  | blank {column : Nat} {c : Char} {text : List Char} {signs : List (Sign × Nat)} :
      isBlank c = true → Spells (column + 1) text signs → Spells column (c :: text) signs
  | sign {column : Nat} {sign : Sign} {c : Char} {text : List Char}
      {signs : List (Sign × Nat)} :
      sign.WrittenAs c → Spells (column + 1) text signs →
      Spells column (c :: text) ((sign, column) :: signs)

/-- A derivation of a formula from the whole text. -/
def Derivation.Of (d : Derivation .formula) (text : List Char) : Prop :=
  Spells 0 text d.signs

end Sentential
