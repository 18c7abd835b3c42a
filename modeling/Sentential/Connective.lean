/-!
# Truth values and connectives

Truth values are the bytes 0 and 1. The complement and the four binary connectives compute on bytes,
bit by bit where they can, so conjunction and disjunction are meaningful on every byte.
-/

namespace Sentential

/-- The other truth value. -/
def complement (value : UInt8) : UInt8 :=
  1 - value

theorem eq_zero_or_one {value : UInt8} (bit : value ≤ 1) : value = 0 ∨ value = 1 := by
  have bound : value.toNat ≤ 1 := UInt8.le_iff_toNat_le.1 bit
  rcases Nat.le_one_iff_eq_zero_or_eq_one.1 bound with zero | one
  · exact .inl (UInt8.toNat_inj.1 zero)
  · exact .inr (UInt8.toNat_inj.1 one)

@[simp] theorem complement_zero : complement 0 = 1 := rfl

@[simp] theorem complement_one : complement 1 = 0 := rfl

/-- The binary connectives of a formula. -/
inductive Connective
  | conjunction
  | disjunction
  | implication
  | equivalence
  deriving DecidableEq, Repr

namespace Connective

/-- The value of `a k b` for a connective `k`. -/
def apply : Connective → UInt8 → UInt8 → UInt8
  | conjunction, a, b => a &&& b
  | disjunction, a, b => a ||| b
  | implication, a, b => complement a ||| b
  | equivalence, a, b => (a &&& b) ||| (complement a &&& complement b)

/-- The character that stands for a connective in a formula. -/
def symbol : Connective → Char
  | conjunction => '&'
  | disjunction => '|'
  | implication => '>'
  | equivalence => '='

/-- The connective that a character stands for. -/
def ofChar? (c : Char) : Option Connective :=
  if c = '&' then some conjunction
  else if c = '|' then some disjunction
  else if c = '>' then some implication
  else if c = '=' then some equivalence
  else none

/-- De Morgan's law exchanges conjunction and disjunction and speaks of no other connective. -/
def dual? : Connective → Option Connective
  | conjunction => some disjunction
  | disjunction => some conjunction
  | implication => none
  | equivalence => none

@[simp] theorem ofChar?_symbol (k : Connective) : ofChar? k.symbol = some k := by
  cases k <;> rfl

theorem symbol_of_ofChar? {c : Char} {k : Connective} (h : ofChar? c = some k) : k.symbol = c := by
  unfold ofChar? at h
  split at h
  · cases h; symm; assumption
  split at h
  · cases h; symm; assumption
  split at h
  · cases h; symm; assumption
  split at h
  · cases h; symm; assumption
  · cases h

theorem dual?_dual? {k l : Connective} (h : k.dual? = some l) : l.dual? = some k := by
  cases k <;> cases h <;> rfl

end Connective

end Sentential
