/-!
# Classes of characters as code ranges

A character class is written as an ascending list of closed ranges of code points. The search stops
at the first range that does not lie wholly below the character, so a character near the start of
the table is found, or missed, at once.
-/

namespace Sentential

/-- The code points from `first` to `last`, both included. -/
structure CodeRange where
  first : Nat
  last : Nat
  deriving DecidableEq, Repr

namespace CodeRange

/-- Whether an ascending table of ranges holds the code point `n`. -/
def covers : List CodeRange → Nat → Bool
  | [], _ => false
  | range :: rest, n => if n ≤ range.last then decide (range.first ≤ n) else covers rest n

@[simp] theorem covers_nil (n : Nat) : covers [] n = false := rfl

theorem covers_cons (range : CodeRange) (rest : List CodeRange) (n : Nat) :
    covers (range :: rest) n =
      if n ≤ range.last then decide (range.first ≤ n) else covers rest n := rfl

theorem exists_of_covers {table : List CodeRange} {n : Nat} (h : covers table n = true) :
    ∃ range ∈ table, range.first ≤ n ∧ n ≤ range.last := by
  induction table with
  | nil => simp at h
  | cons range rest ih =>
    rw [covers_cons] at h
    by_cases below : n ≤ range.last
    · rw [if_pos below] at h
      exact ⟨range, List.mem_cons_self, of_decide_eq_true h, below⟩
    · rw [if_neg below] at h
      obtain ⟨found, mem, bounds⟩ := ih h
      exact ⟨found, List.mem_cons_of_mem _ mem, bounds⟩

/-- No code point of the range is in the table. -/
def avoids (range : CodeRange) (table : List CodeRange) : Bool :=
  (List.range (range.last - range.first + 1)).all fun k => !covers table (range.first + k)

theorem covers_eq_false_of_avoids {range : CodeRange} {table : List CodeRange} {n : Nat}
    (h : range.avoids table = true) (first : range.first ≤ n) (last : n ≤ range.last) :
    covers table n = false := by
  have at_n := List.all_eq_true.1 h (n - range.first) (List.mem_range.2 (by omega))
  rw [show range.first + (n - range.first) = n by omega] at at_n
  simpa using at_n

end CodeRange

end Sentential
