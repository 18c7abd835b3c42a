import Sentential.Valuation.Basic

/-!
# Numbered valuations

The valuations of `n` letters are numbered by counting in binary, the first letter being the most
significant digit. Counting from 0 lists them in the order of the rows of a truth table.

Numbers of valuations are words of 64 bits, and their digits are found with masks. No mask is left
when a bit is shifted out of a word, and the place of a digit could lie below 0. Numbering with
checked arithmetic stops there without any answer. As words have 64 places, it answers for all lists
of up to 64 letters.
-/

namespace Sentential.Valuation

/-- A valuation extended to some letters by the binary digits of `index`, the last letter taking the
lowest digit. -/
def assignDigits (index : Nat) (v : Valuation) : List Char → Valuation
  | [] => v
  | letter :: rest =>
    if index.testBit rest.length then
      assignDigits index (v.assign letter 1 (by decide)) rest
    else
      assignDigits index (v.assign letter 0 (by decide)) rest

/-- The valuation of `letters` with the number `index`. Of a repeated letter the last place
counts. -/
def numbered (letters : List Char) (index : Nat) : Valuation :=
  assignDigits index empty letters

@[simp] theorem numbered_nil (index : Nat) : numbered [] index = empty := rfl

/-! ### Checked arithmetic -/

/-- The place of the digit for the letter that comes after `before` of `count` letters, unless it
lies below 0. -/
def checkedPlace (count before : Nat) : Option Nat :=
  if before + 1 ≤ count then some (count - before - 1) else none

/-- The word with a bit at one place, unless words do not have this place. -/
def checkedMask (place : Nat) : Option UInt64 :=
  if place < 64 then some (1 <<< UInt64.ofNat place) else none

/-- The digit of a word for the letter that comes after `before` of `count` letters. -/
def checkedDigit (index : UInt64) (count before : Nat) : Option UInt8 := do
  let place ← checkedPlace count before
  let mask ← checkedMask place
  return if index &&& mask > 0 then 1 else 0

/-- The valuation of `letters` with the number `index`, found with checked arithmetic. -/
def checkedNumbered (letters : List Char) (index : UInt64) : Option Valuation := do
  let pairs ← letters.zipIdx.mapM fun (letter, before) => do
    let digit ← checkedDigit index letters.length before
    return (letter, digit)
  (ofPairs pairs).toOption

theorem checkedPlace_add (before after : Nat) :
    checkedPlace (before + (after + 1)) before = some after := by
  rw [checkedPlace, if_pos (by omega)]
  congr 1
  omega

theorem checkedMask_of_lt {place : Nat} (h : place < 64) :
    checkedMask place = some (1 <<< UInt64.ofNat place) :=
  if_pos h

end Sentential.Valuation
