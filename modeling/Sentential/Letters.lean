/-!
# Sets of letters

A set of letters is kept as its strictly ascending list, so equal sets are equal values and the
letters can be walked in order.
-/

namespace Sentential

/-- A finite set of letters. -/
structure Letters where
  toList : List Char
  ascending : toList.Pairwise (· < ·)
  deriving DecidableEq, Repr

namespace Letters

/-- A letter put into its place in an ascending list, unless it is there already. -/
def place (letter : Char) : List Char → List Char
  | [] => [letter]
  | c :: rest =>
    if letter < c then letter :: c :: rest
    else if letter = c then c :: rest
    else c :: place letter rest

@[simp] theorem mem_place {letter c : Char} {letters : List Char} :
    c ∈ place letter letters ↔ c = letter ∨ c ∈ letters := by
  induction letters with
  | nil => simp [place]
  | cons d rest ih =>
    unfold place
    split
    · simp
    split
    · next h => subst h; simp
    · simp [ih, or_left_comm]

theorem pairwise_place (letter : Char) {letters : List Char} (h : letters.Pairwise (· < ·)) :
    (place letter letters).Pairwise (· < ·) := by
  induction letters with
  | nil => simp [place]
  | cons d rest ih =>
    obtain ⟨head, tail⟩ := List.pairwise_cons.1 h
    unfold place
    split
    · next below =>
      refine List.pairwise_cons.2 ⟨fun c hc => ?_, h⟩
      rcases List.mem_cons.1 hc with rfl | hc
      · exact below
      · exact Char.lt_trans below (head c hc)
    split
    · exact h
    · next notBelow differs =>
      refine List.pairwise_cons.2 ⟨fun c hc => ?_, ih tail⟩
      rcases mem_place.1 hc with rfl | hc
      · refine Char.not_le.1 fun le => differs ?_
        exact Char.le_antisymm le (Char.not_lt.1 notBelow)
      · exact head c hc

/-- The set without letters. -/
def empty : Letters :=
  ⟨[], .nil⟩

/-- A set with one letter more. -/
def insert (letter : Char) (letters : Letters) : Letters :=
  ⟨place letter letters.toList, pairwise_place letter letters.ascending⟩

/-- The letters of a list. -/
def ofList (letters : List Char) : Letters :=
  letters.foldr insert empty

@[simp] theorem mem_toList_insert {letter c : Char} {letters : Letters} :
    c ∈ (insert letter letters).toList ↔ c = letter ∨ c ∈ letters.toList :=
  mem_place

@[simp] theorem mem_toList_ofList {c : Char} {letters : List Char} :
    c ∈ (ofList letters).toList ↔ c ∈ letters := by
  induction letters with
  | nil => simp [ofList, empty]
  | cons d rest ih =>
    rw [ofList, List.foldr_cons, ← ofList, mem_toList_insert, ih, List.mem_cons]

end Letters

end Sentential
