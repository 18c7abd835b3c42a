import Sentential.Proofs.Insertions
import Sentential.Valuation.Steps

/-!
# Valuations are finite maps

A valuation is told by the insertions that have made it: a letter has the value of its last one.
Each step adds to these insertions, drops some or starts anew, and so does every run of steps. The
valuation itself shows nothing of their order.

Restricted to letters that they assign, valuations can be told apart by their keys alone, since all
keys then list the values of the same letters in the same order.
-/

namespace Sentential.Valuation

variable {v w : Valuation} {letters : Letters} {pairs : List (Char × UInt8)} {steps : List Step}

/-! ### Steps -/

/-- The insertions that have made a valuation, the latest one first, after a step. A value that is
not a bit is not inserted. A restriction keeps the insertions of its letters if each has one, and a
valuation with a number is made by inserting the digits of this number. -/
def Step.insertions (pairs : List (Char × UInt8)) : Step → List (Char × UInt8)
  | .insert letter value => if value ≤ 1 then (letter, value) :: pairs else pairs
  | .restrict letters =>
    if letters.toList.all fun c => (pairs.lookup c).isSome then
      pairs.filter fun pair => letters.toList.contains pair.1
    else pairs
  | .number letters index => (letters.zip (digits index letters.length)).reverse

/-- The insertions that make a valuation in the course of some steps, the latest one first. -/
def insertions (steps : List Step) : List (Char × UInt8) :=
  steps.foldl Step.insertions []

/-- A valuation is what some insertions have made, of which the latest one comes first. -/
def MadeBy (v : Valuation) (pairs : List (Char × UInt8)) : Prop :=
  ∀ c, v.get? c = pairs.lookup c

theorem after_insert_of_le_one {letter : Char} {value : UInt8} (bit : value ≤ 1) :
    v.after (.insert letter value) = v.assign letter value bit :=
  after_of_ok (by rw [perform, insert_of_le_one bit]; rfl)

theorem after_insert_of_one_lt {letter : Char} {value : UInt8} (large : 1 < value) :
    v.after (.insert letter value) = v :=
  after_of_error (by rw [perform, insert_of_one_lt large]; rfl)

theorem MadeBy.after (h : v.MadeBy pairs) (step : Step) :
    (v.after step).MadeBy (step.insertions pairs) := by
  intro c
  cases step with
  | insert letter value =>
      by_cases bit : value ≤ 1
      · rw [after_insert_of_le_one bit, get?_assign, Step.insertions, if_pos bit, List.lookup_cons,
          h c]
        by_cases same : c = letter
        · simp [same]
        · rw [if_neg same, beq_eq_false_iff_ne.2 same]
      · rw [after_insert_of_one_lt (UInt8.not_le.1 bit), Step.insertions, if_neg bit, h c]
  | restrict letters =>
      have covers : (letters.toList.all fun c => (pairs.lookup c).isSome) = true ↔
          ∀ c ∈ letters.toList, (v.get? c).isSome := by
        simp only [List.all_eq_true, h _]
      cases restricts : v.restrict letters with
      | ok w =>
          obtain ⟨assigned, rfl⟩ := restrict_eq_ok_iff.1 restricts
          have limited : v.after (.restrict letters) = v.only letters := after_of_ok restricts
          rw [limited, get?_only, Step.insertions, if_pos (covers.2 assigned),
            lookup_filter_contains, h c]
      | error fault =>
          obtain ⟨missing, least, -⟩ := exists_isLeast_of_restrict restricts
          have lacks : ¬ (letters.toList.all fun c => (pairs.lookup c).isSome) = true := by
            intro all
            have present := covers.1 all missing least.1.1
            rw [least.1.2] at present
            cases present
          have unchanged : v.after (.restrict letters) = v := after_of_error restricts
          rw [unchanged, Step.insertions, if_neg lacks, h c]
  | number letters index => exact get?_numbered letters index c

/-- A valuation can be restricted to `letters` if it assigns them all, and can then be told apart by
its key from other valuations restricted to them. -/
structure Restricts (v : Valuation) (letters : Letters) : Prop where
  ok_iff : (∃ w, v.restrict letters = .ok w) ↔ ∀ c ∈ letters.toList, (v.get? c).isSome
  error_iff : ∀ fault, v.restrict letters = .error fault ↔
    ∃ c, IsLeast {c | c ∈ letters.toList ∧ v.get? c = none} c ∧ fault = .unassigned c
  get? : ∀ w, v.restrict letters = .ok w →
    ∀ c, w.get? c = if c ∈ letters.toList then v.get? c else none
  key_eq_iff : ∀ other w w' : Valuation, v.restrict letters = .ok w →
    other.restrict letters = .ok w' →
    (w.key = w'.key ↔ ∀ c ∈ letters.toList, v.get? c = other.get? c)

theorem restricts (v : Valuation) (letters : Letters) : Restricts v letters := by
  constructor
  case ok_iff =>
    simp only [restrict_eq_ok_iff, exists_and_left, exists_eq', and_true]
  case error_iff => exact fun _ => restrict_eq_error_iff
  case get? =>
    intro w restricted c
    obtain ⟨-, rfl⟩ := restrict_eq_ok_iff.1 restricted
    exact get?_only v letters c
  case key_eq_iff =>
    intro other w w' restricted restricted'
    obtain ⟨assigned, rfl⟩ := restrict_eq_ok_iff.1 restricted
    obtain ⟨assigned', rfl⟩ := restrict_eq_ok_iff.1 restricted'
    exact key_only_eq_iff assigned assigned'

end Sentential.Valuation
