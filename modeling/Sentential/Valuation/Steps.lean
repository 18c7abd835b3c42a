import Sentential.Valuation.Numbering

/-!
# Steps with a valuation

A valuation changes by insertions, is limited to some letters, or is put aside for one with a
number. A step that fails leaves it as it was.
-/

namespace Sentential.Valuation

/-- What can be done with a valuation. -/
inductive Step
  | insert (letter : Char) (value : UInt8)
  | restrict (letters : Letters)
  | number (letters : List Char) (index : Nat)
  deriving DecidableEq, Repr

/-- The valuation that a step leads to. -/
def perform (v : Valuation) : Step → Except Fault Valuation
  | .insert letter value => (v.insert letter value).map Prod.fst
  | .restrict letters => v.restrict letters
  | .number letters index => .ok (numbered letters index)

/-- The valuation after a step, be it a failing one. -/
def after (v : Valuation) (step : Step) : Valuation :=
  match v.perform step with
  | .ok next => next
  | .error _ => v

theorem after_of_ok {v next : Valuation} {step : Step} (h : v.perform step = .ok next) :
    v.after step = next := by
  rw [after, h]

theorem after_of_error {v : Valuation} {step : Step} {fault : Fault}
    (h : v.perform step = .error fault) : v.after step = v := by
  rw [after, h]

end Sentential.Valuation
