import Sentential.Evaluation

/-!
# Checked arithmetic

The complement `1 - value` of a byte above 1 would lie below 0, where bytes wrap around. Evaluation
with checked arithmetic stops there without any answer. It answers all the same on every tree, since
valuations have no other bytes than 0 and 1 and connectives lead to no others.
-/

namespace Sentential

/-- The complement, unless it lies below 0. -/
def checkedComplement (value : UInt8) : Option UInt8 :=
  if value ≤ 1 then some (1 - value) else none

/-- The value of `a k b`, unless a complement that it needs lies below 0. -/
def Connective.checkedApply : Connective → UInt8 → UInt8 → Option UInt8
  | conjunction, a, b => some (a &&& b)
  | disjunction, a, b => some (a ||| b)
  | implication, a, b => do
    let notA ← checkedComplement a
    return notA ||| b
  | equivalence, a, b => do
    let notA ← checkedComplement a
    let notB ← checkedComplement b
    return (a &&& b) ||| (notA &&& notB)

/-- The value of a tree, or the first fault, with checked arithmetic. -/
def Tree.checkedValue (v : Valuation) : Tree → Option (Except Fault UInt8)
  | .proposition negation letter =>
    match v.get letter.symbol, negation with
    | .error fault, _ => some (.error fault)
    | .ok value, none => some (.ok value)
    | .ok value, some _ => (checkedComplement value).map .ok
  | .negated _ operand => do
    match ← operand.checkedValue v with
    | .error fault => return .error fault
    | .ok value => return .ok (← checkedComplement value)
  | .bare child => child.checkedValue v
  | .composite left operator right => do
    match ← left.checkedValue v with
    | .error fault => return .error fault
    | .ok a =>
      match ← right.checkedValue v with
      | .error fault => return .error fault
      | .ok b =>
        match operator.connective? with
        | none => return .error (.unknownConnective operator)
        | some k => return .ok (← k.checkedApply a b)
  | .formula child => child.checkedValue v

theorem checkedComplement_of_le_one {value : UInt8} (bit : value ≤ 1) :
    checkedComplement value = some (complement value) :=
  if_pos bit

theorem Connective.checkedApply_of_le_one (k : Connective) {a b : UInt8} (ha : a ≤ 1) (hb : b ≤ 1) :
    k.checkedApply a b = some (k.apply a b) := by
  cases k <;>
    simp [checkedApply, apply, checkedComplement_of_le_one ha, checkedComplement_of_le_one hb]

end Sentential
