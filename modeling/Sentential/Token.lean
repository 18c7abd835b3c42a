import Sentential.Connective

/-!
# Tokens

A token is a letter, the negation sign or a connective, together with the column of the text where
it was written. The trees of formulas carry their tokens, so that values can be reported under the
characters they belong to.
-/

namespace Sentential

namespace Token

/-- What a token stands for. -/
inductive Kind
  | letter (c : Char)
  | negation
  | connective (k : Connective)
  deriving DecidableEq, Repr

/-- The character a token of this kind is written with. -/
def Kind.symbol : Kind → Char
  | letter c => c
  | negation => '~'
  | connective k => k.symbol

/-- The kind of token that a character denotes; every character but five is a letter. -/
def Kind.ofChar (c : Char) : Kind :=
  if c = '~' then negation
  else match Connective.ofChar? c with
    | some k => connective k
    | none => letter c

@[simp] theorem Kind.symbol_ofChar (c : Char) : (Kind.ofChar c).symbol = c := by
  unfold ofChar
  split
  · symm; assumption
  · split
    · exact Connective.symbol_of_ofChar? (by assumption)
    · rfl

end Token

/-- A sign of a formula and the column it stands in, counted from 0. -/
structure Token where
  kind : Token.Kind
  position : Nat
  deriving DecidableEq, Repr

namespace Token

/-- The character a token is written with. -/
def symbol (t : Token) : Char :=
  t.kind.symbol

/-- The connective that a token stands for, if it is one. -/
def connective? (t : Token) : Option Connective :=
  match t.kind with
  | .connective k => some k
  | .letter _ => none
  | .negation => none

theorem kind_of_connective? {t : Token} {k : Connective} (h : t.connective? = some k) :
    t.kind = .connective k := by
  obtain ⟨kind, position⟩ := t
  cases kind with
  | connective => cases h; rfl
  | letter | negation => cases h

theorem connective?_eq_some_iff {t : Token} {k : Connective} :
    t.connective? = some k ↔ t.kind = .connective k := by
  refine ⟨kind_of_connective?, fun h => ?_⟩
  rw [connective?, h]

/-- A token as messages name it, such as `` `&` at 2 ``. -/
def describe (t : Token) : String :=
  "`" ++ t.symbol.toString ++ "` at " ++ toString t.position

/-- A token without its place. -/
def unplaced (t : Token) : Token :=
  { t with position := 0 }

@[simp] theorem unplaced_symbol (t : Token) : t.unplaced.symbol = t.symbol := rfl

@[simp] theorem unplaced_connective? (t : Token) : t.unplaced.connective? = t.connective? := rfl

@[simp] theorem unplaced_unplaced (t : Token) : t.unplaced.unplaced = t.unplaced := rfl

end Token

end Sentential
