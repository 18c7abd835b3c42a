import Sentential.Letters
import Sentential.Text.Alphabetic
import Sentential.Token

/-!
# What a table finds out

A scan of a text finds what a table can know of it before it is read as a formula, and of a text
that is no formula too: its letters, and how many of its signs have a column of their own.

When all rows are there, they give a verdict. A formula is a tautology when it is true under all
valuations of its letters, a contradiction when it is false under all of them, and a contingency
otherwise. A verdict keeps the first two findings apart: without any row both would hold.
-/

namespace Sentential

/-- The letters of a text and the number of its signs other than parentheses. -/
structure Scan where
  letters : Letters
  columnCount : Nat
  deriving DecidableEq, Repr

namespace Scan

/-- Whether a character is a negation sign or a connective. -/
def isOperator (c : Char) : Bool :=
  c = '~' || (Connective.ofChar? c).isSome

/-- The scan of a text. -/
def ofText (text : String) : Scan where
  letters := Letters.ofList (text.toList.filter isAlphabetic)
  columnCount := text.toList.countP fun c => isAlphabetic c || isOperator c

/-- The number of rows of a full table. Counts saturate at the greatest number of 64 bits. -/
def rowCount (scan : Scan) : Nat :=
  let letterCount := scan.letters.toList.length
  if letterCount < 64 then 1 <<< letterCount else UInt64.size - 1

theorem mem_letters_ofText {text : String} {c : Char} :
    c ∈ (ofText text).letters.toList ↔ c ∈ text.toList ∧ isAlphabetic c = true := by
  simp [ofText]

end Scan

/-- What the rows of a full table say about a formula. -/
structure Verdict where
  tautology : Bool
  contradiction : Bool
  deriving DecidableEq, Repr

namespace Verdict

/-- Neither a tautology nor a contradiction. -/
def contingency (verdict : Verdict) : Bool :=
  !verdict.tautology && !verdict.contradiction

/-- The word for a verdict. -/
def name (verdict : Verdict) : String :=
  if verdict.tautology then "tautology"
  else if verdict.contradiction then "contradiction"
  else "contingency"

/-- The verdict that the values of all rows give. -/
def ofValues (values : List UInt8) : Verdict where
  tautology := values.all (· = 1)
  contradiction := values.all (· = 0)

end Verdict

end Sentential
