import Sentential.Valuation.Basic

/-!
# What a run is asked to do

A configuration says which formula a run is about and which of the three sections of output it is to
have: the value under a valuation, the truth table, and the rewritten formula.

A configuration is made from an invocation, which is what a command line says, however it is read.
Making the valuation fails at a pair whose value is no bit.
-/

namespace Sentential.Command

/-- How a formula is to be rewritten: by one pass or to the fixed point, with or without the
elimination of implications. -/
structure NormalForm where
  toFixedPoint : Bool
  eliminate : Bool
  deriving DecidableEq, Repr

/-- What a run is asked to do. -/
structure Configuration where
  text : String
  valuation : Option Valuation
  truthTable : Bool
  normalForm : Option NormalForm
  deriving DecidableEq, Repr

/-- The options that are either given or not. -/
inductive Switch
  | truthTable
  | normalForm
  | singlePass
  | eliminate
  deriving DecidableEq, Repr

/-- What a command line says: the formula, the written assignments, and the switches that are on. -/
structure Invocation where
  text : String
  pairs : Option (List (Char × UInt8))
  switches : List Switch
  deriving DecidableEq, Repr

/-- Whether a switch is on. -/
def Invocation.asks (invocation : Invocation) (switch : Switch) : Bool :=
  switch ∈ invocation.switches

/-- The configuration that an invocation asks for. -/
def Configuration.ofInvocation (invocation : Invocation) : Except Fault Configuration := do
  let valuation ← invocation.pairs.mapM Valuation.ofPairs
  return {
    text := invocation.text
    valuation := valuation
    truthTable := invocation.asks .truthTable
    normalForm :=
      if invocation.asks .normalForm then
        some ⟨!invocation.asks .singlePass, invocation.asks .eliminate⟩
      else none }

end Sentential.Command
