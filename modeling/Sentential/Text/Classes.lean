import Sentential.Text.Alphabetic

/-!
# The character classes

Blank characters separate the tokens of a formula and stand around the two halves of an assignment.
They are the characters with the property `White_Space` of the Unicode Character Database.

No character is both blank and alphabetic, and the signs of a formula other than letters are
neither. So every character of a text has at most one part to play.
-/

namespace Sentential

/-- The code points with the property `White_Space`, ascending. -/
def blankRanges : List CodeRange :=
  [⟨0x9, 0xD⟩, ⟨0x20, 0x20⟩, ⟨0x85, 0x85⟩, ⟨0xA0, 0xA0⟩, ⟨0x1680, 0x1680⟩, ⟨0x2000, 0x200A⟩,
   ⟨0x2028, 0x2029⟩, ⟨0x202F, 0x202F⟩, ⟨0x205F, 0x205F⟩, ⟨0x3000, 0x3000⟩]

/-- Whether a character has the property `White_Space`. -/
def isBlank (c : Char) : Bool :=
  CodeRange.covers blankRanges c.toNat

/-- A text without the blanks at its two ends. -/
def trimBlanks (text : List Char) : List Char :=
  ((text.dropWhile isBlank).reverse.dropWhile isBlank).reverse

@[simp] theorem trimBlanks_nil : trimBlanks [] = [] := rfl

theorem blankRanges_avoid_alphabeticRanges :
    ∀ range ∈ blankRanges, range.avoids alphabeticRanges = true := by
  decide +kernel

/-- Blanks do not name propositions. -/
theorem isAlphabetic_eq_false_of_isBlank {c : Char} (h : isBlank c = true) :
    isAlphabetic c = false := by
  obtain ⟨range, mem, first, last⟩ := CodeRange.exists_of_covers h
  exact CodeRange.covers_eq_false_of_avoids (blankRanges_avoid_alphabeticRanges range mem)
    first last

theorem isBlank_eq_false_of_isAlphabetic {c : Char} (h : isAlphabetic c = true) :
    isBlank c = false :=
  Bool.eq_false_iff.2 fun blank => by
    rw [isAlphabetic_eq_false_of_isBlank blank] at h
    cases h

/-- The characters of a formula that are neither letters nor blanks. -/
def isMark (c : Char) : Bool :=
  c ∈ ['(', ')', '~', '&', '|', '>', '=']

theorem isAlphabetic_eq_false_of_isMark {c : Char} (h : isMark c = true) :
    isAlphabetic c = false := by
  revert c
  simp only [isMark, List.mem_cons, List.not_mem_nil, or_false, decide_eq_true_eq]
  rintro c (rfl | rfl | rfl | rfl | rfl | rfl | rfl) <;> rfl

theorem isBlank_eq_false_of_isMark {c : Char} (h : isMark c = true) : isBlank c = false := by
  revert c
  simp only [isMark, List.mem_cons, List.not_mem_nil, or_false, decide_eq_true_eq]
  rintro c (rfl | rfl | rfl | rfl | rfl | rfl | rfl) <;> rfl

end Sentential
