import Sentential.Fault
import Sentential.Letters
import Sentential.Text.Classes

/-!
# Valuations

A valuation gives truth values to finitely many letters. Its entries are kept in ascending order of
their letters and hold the bytes 0 and 1 only, so equal assignments are equal values, and the key of
a valuation, its values without the letters, depends on the assignment alone.

`get?_assign` says what assigning a letter does to every look-up; the other operations are built
from it, or drop entries.

A written assignment is a letter, an equals sign and one of the digits 0 and 1, with blanks allowed
around the letter and around the digit. The first equals sign of a text divides it.
-/

namespace Sentential

/-- An assignment of truth values to letters. -/
structure Valuation where
  entries : List (Char × UInt8)
  ascending : entries.Pairwise fun a b => a.1 < b.1
  bits : ∀ entry ∈ entries, entry.2 ≤ 1
  deriving DecidableEq, Repr

namespace Valuation

/-- An entry put into its place in an ascending list, instead of the one for the same letter. -/
def place (letter : Char) (value : UInt8) : List (Char × UInt8) → List (Char × UInt8)
  | [] => [(letter, value)]
  | (c, x) :: rest =>
    if letter < c then (letter, value) :: (c, x) :: rest
    else if letter = c then (letter, value) :: rest
    else (c, x) :: place letter value rest

theorem mem_place {letter : Char} {value : UInt8} {entries : List (Char × UInt8)}
    {entry : Char × UInt8} (h : entry ∈ place letter value entries) :
    entry = (letter, value) ∨ entry ∈ entries := by
  induction entries with
  | nil => simpa [place] using h
  | cons head rest ih =>
    obtain ⟨c, x⟩ := head
    unfold place at h
    split at h
    · simpa using h
    split at h
    · rcases List.mem_cons.1 h with h | h
      · exact .inl h
      · exact .inr (List.mem_cons_of_mem _ h)
    · rcases List.mem_cons.1 h with h | h
      · exact .inr (h ▸ List.mem_cons_self)
      · exact (ih h).imp_right (List.mem_cons_of_mem _)

theorem pairwise_place (letter : Char) (value : UInt8) {entries : List (Char × UInt8)}
    (h : entries.Pairwise fun a b => a.1 < b.1) :
    (place letter value entries).Pairwise fun a b => a.1 < b.1 := by
  induction entries with
  | nil => simp [place]
  | cons head rest ih =>
    obtain ⟨c, x⟩ := head
    obtain ⟨first, tail⟩ := List.pairwise_cons.1 h
    unfold place
    split
    · next below =>
      refine List.pairwise_cons.2 ⟨fun entry he => ?_, h⟩
      rcases List.mem_cons.1 he with rfl | he
      · exact below
      · exact Char.lt_trans below (first entry he)
    split
    · next same =>
      subst same
      exact List.pairwise_cons.2 ⟨first, tail⟩
    · next notBelow differs =>
      refine List.pairwise_cons.2 ⟨fun entry he => ?_, ih tail⟩
      rcases mem_place he with rfl | he
      · refine Char.not_le.1 fun le => differs ?_
        exact Char.le_antisymm le (Char.not_lt.1 notBelow)
      · exact first entry he

theorem lookup_place (letter : Char) (value : UInt8) (entries : List (Char × UInt8)) (c : Char) :
    (place letter value entries).lookup c =
      if c = letter then some value else entries.lookup c := by
  induction entries with
  | nil =>
    simp only [place, List.lookup_cons, List.lookup_nil]
    split <;> simp_all
  | cons head rest ih =>
    obtain ⟨d, x⟩ := head
    unfold place
    split
    · rw [List.lookup_cons]
      split <;> simp_all
    split
    · next same =>
      subst same
      simp only [List.lookup_cons]
      split <;> simp_all
    · simp only [List.lookup_cons, ih]
      split <;> split <;> simp_all

/-- The valuation that assigns nothing. -/
def empty : Valuation :=
  ⟨[], .nil, by simp⟩

/-- Whether a valuation assigns nothing. -/
def isEmpty (v : Valuation) : Bool :=
  v.entries.isEmpty

/-- The value of a letter, if it has one. -/
def get? (v : Valuation) (letter : Char) : Option UInt8 :=
  v.entries.lookup letter

/-- The value of a letter that must have one. -/
def get (v : Valuation) (letter : Char) : Except Fault UInt8 :=
  match v.get? letter with
  | some value => .ok value
  | none => .error (.unassigned letter)

/-- The assigned letters, ascending. -/
def letters (v : Valuation) : List Char :=
  v.entries.map Prod.fst

/-- The values in ascending order of their letters. -/
def key (v : Valuation) : List UInt8 :=
  v.entries.map Prod.snd

/-- A valuation with `letter` given a truth value. -/
def assign (v : Valuation) (letter : Char) (value : UInt8) (bit : value ≤ 1) : Valuation where
  entries := place letter value v.entries
  ascending := pairwise_place letter value v.ascending
  bits entry h := by
    rcases mem_place h with rfl | h
    · exact bit
    · exact v.bits entry h

theorem get?_le_one {v : Valuation} {letter : Char} {value : UInt8}
    (h : v.get? letter = some value) : value ≤ 1 := by
  obtain ⟨front, back, entries, _⟩ := List.lookup_eq_some_iff.1 h
  exact v.bits (letter, value) (by simp [entries])

theorem get_eq_ok_iff {v : Valuation} {letter : Char} {value : UInt8} :
    v.get letter = .ok value ↔ v.get? letter = some value := by
  unfold get
  cases v.get? letter <;> simp

@[simp] theorem get?_empty (letter : Char) : empty.get? letter = none := rfl

@[simp] theorem get?_assign (v : Valuation) (letter : Char) (value : UInt8) (bit : value ≤ 1)
    (c : Char) :
    (v.assign letter value bit).get? c = if c = letter then some value else v.get? c :=
  lookup_place letter value v.entries c

/-- A valuation with `letter` given a value, and the value it had before. Bytes other than 0 and 1
are refused. -/
def insert (v : Valuation) (letter : Char) (value : UInt8) :
    Except Fault (Valuation × Option UInt8) :=
  if bit : value ≤ 1 then .ok (v.assign letter value bit, v.get? letter)
  else .error (.notBit letter (toString value.toNat))

/-- A valuation with pairs inserted one after the other. -/
def insertAll (v : Valuation) : List (Char × UInt8) → Except Fault Valuation
  | [] => .ok v
  | (letter, value) :: rest =>
    match v.insert letter value with
    | .ok (next, _) => next.insertAll rest
    | .error fault => .error fault

/-- The valuation of a list of pairs, in which later pairs replace earlier ones. -/
def ofPairs (pairs : List (Char × UInt8)) : Except Fault Valuation :=
  empty.insertAll pairs

/-- The entries for some letters only. -/
def only (v : Valuation) (letters : Letters) : Valuation where
  entries := v.entries.filter fun entry => letters.toList.contains entry.1
  ascending := v.ascending.filter _
  bits entry h := v.bits entry (List.mem_filter.1 h).1

/-- The valuation limited to letters that must all be assigned; the least one that is not is at
fault. -/
def restrict (v : Valuation) (letters : Letters) : Except Fault Valuation :=
  match letters.toList.find? fun c => (v.get? c).isNone with
  | some missing => .error (.unassigned missing)
  | none => .ok (v.only letters)

/-- A truth value as a digit. -/
def digit (value : UInt8) : Char :=
  if value = 0 then '0' else '1'

/-- The characters of a valuation's text. -/
def chars (v : Valuation) : List Char :=
  [',', ' '].intercalate (v.entries.map fun entry => [entry.1, '=', digit entry.2])

/-- A valuation in the form `p=1, q=0`. -/
def text (v : Valuation) : String :=
  String.ofList v.chars

/-- The order of keys is lexicographic. -/
def compareKeys (a b : List UInt8) : Ordering :=
  if a < b then .lt else if a = b then .eq else .gt

end Valuation

/-- The letter and the value of a written assignment. -/
def Assignment.parse (text : String) : Except Fault (Char × UInt8) :=
  let front := text.toList.takeWhile (· ≠ '=')
  let back := text.toList.dropWhile (· ≠ '=')
  match back, trimBlanks front with
  | _ :: written, [letter] =>
    if isAlphabetic letter then
      match trimBlanks written with
      | ['0'] => .ok (letter, 0)
      | ['1'] => .ok (letter, 1)
      | other => .error (.notBit letter (String.ofList other))
    else .error (.malformedAssignment text)
  | _, _ => .error (.malformedAssignment text)

end Sentential
