import Mathlib.Data.Nat.Bitwise
import Mathlib.Data.Set.Function
import Sentential.Proofs.Insertions
import Sentential.Valuation.Numbering

/-!
# Numbering is binary counting

The valuation with a number gives each letter a binary digit of the number, the last letter the
lowest one. A letter that is repeated has the digit of its last place, and other letters have none.
Found with words and masks the digits are the same, up to 64 letters.

For letters in ascending order the numbers below `2 ^ n` are those of all valuations of the letters,
each with one number, in the order of their keys. Larger numbers start again from 0.
-/

namespace Sentential.Valuation

variable {letters : List Char} {index : Nat}

/-! ### Digits -/

theorem digit_eq_ite (index place : Nat) :
    UInt8.ofNat (index / 2 ^ place % 2) = if index.testBit place then 1 else 0 := by
  rw [Nat.testBit_eq_decide_div_mod_eq]
  rcases Nat.mod_two_eq_zero_or_one (index / 2 ^ place) with zero | one
  · rw [zero]
    rfl
  · rw [one]
    rfl

theorem getElem?_digits {n j : Nat} (h : j < n) :
    (digits index n)[j]? = some (UInt8.ofNat (index / 2 ^ (n - 1 - j) % 2)) := by
  induction n generalizing j with
  | zero => omega
  | succ n ih =>
      rw [digits]
      cases j with
      | zero =>
          rw [List.getElem?_cons_zero, digit_eq_ite]
          rfl
      | succ j =>
          rw [List.getElem?_cons_succ, ih (by omega)]
          congr 5
          omega

/-- Of the pairs for a letter the last one counts. -/
theorem lookup_reverse_of_last {pairs : List (Char × UInt8)} {j : Nat} {c : Char} {value : UInt8}
    (here : pairs[j]? = some (c, value)) (last : ∀ k, j < k → ∀ x, pairs[k]? ≠ some (c, x)) :
    pairs.reverse.lookup c = some value := by
  obtain ⟨inside, entry⟩ := List.getElem?_eq_some_iff.1 here
  have split : pairs = pairs.take j ++ (c, value) :: pairs.drop (j + 1) := by
    rw [← entry, ← List.drop_eq_getElem_cons inside, List.take_append_drop]
  refine List.lookup_eq_some_iff.2
    ⟨(pairs.drop (j + 1)).reverse, (pairs.take j).reverse, ?_, fun later member => ?_⟩
  · calc
      pairs.reverse = (pairs.take j ++ (c, value) :: pairs.drop (j + 1)).reverse := by rw [← split]
      _ = (pairs.drop (j + 1)).reverse ++ (c, value) :: (pairs.take j).reverse := by simp
  · obtain ⟨i, found⟩ := List.getElem?_of_mem (List.mem_reverse.1 member)
    rw [List.getElem?_drop] at found
    rw [bne_iff_ne]
    rintro rfl
    exact last (j + 1 + i) (by omega) _ found

/-! ### Values -/

theorem isSome_get?_numbered_iff {c : Char} :
    ((numbered letters index).get? c).isSome ↔ c ∈ letters := by
  have made := ofPairs_zip_digits letters index
  have unassigned := get?_ofPairs_eq_none_iff made (c := c)
  rw [List.map_fst_zip (Nat.le_of_eq (length_digits _ _).symm)] at unassigned
  rw [Option.isSome_iff_ne_none, ne_eq, unassigned, not_not]

/-- The digit at the last place of a letter is its value. -/
theorem get?_numbered_of_last {j : Nat} {c : Char} (here : letters[j]? = some c)
    (last : ∀ k, j < k → letters[k]? ≠ some c) :
    (numbered letters index).get? c =
      some (UInt8.ofNat (index / 2 ^ (letters.length - 1 - j) % 2)) := by
  obtain ⟨inside, -⟩ := List.getElem?_eq_some_iff.1 here
  rw [get?_numbered]
  refine lookup_reverse_of_last (j := j) ?_ fun k later x found => ?_
  · exact List.getElem?_zip_eq_some.2 ⟨here, getElem?_digits inside⟩
  · exact last k later (List.getElem?_zip_eq_some.1 found).1

/-- Numbers that differ by a multiple of `2 ^ n` are those of the same valuation. -/
theorem numbered_mod (letters : List Char) (index : Nat) :
    numbered letters (index % 2 ^ letters.length) = numbered letters index := by
  refine eq_of_get?_eq fun c => ?_
  rw [get?_numbered, get?_numbered, digits_mod]

/-! ### Words -/

theorem toNat_one_shiftLeft {place : Nat} (h : place < 64) :
    (1 <<< UInt64.ofNat place : UInt64).toNat = 2 ^ place := by
  have same : (UInt64.ofNat place).toNat % 64 = place := by
    rw [UInt64.toNat_ofNat']
    omega
  rw [UInt64.toNat_shiftLeft, same, UInt64.toNat_one, Nat.one_shiftLeft, Nat.mod_eq_of_lt]
  exact Nat.pow_lt_pow_right (by decide) h

theorem and_one_shiftLeft_pos_iff {place : Nat} (h : place < 64) (index : UInt64) :
    (index &&& (1 <<< UInt64.ofNat place)) > 0 ↔ index.toNat.testBit place := by
  rw [gt_iff_lt, UInt64.lt_iff_toNat_lt, UInt64.toNat_and, toNat_one_shiftLeft h, Nat.and_two_pow]
  cases index.toNat.testBit place with
  | false =>
      rw [Bool.toNat_false, Nat.zero_mul]
      exact iff_of_false (Nat.lt_irrefl 0) Bool.false_ne_true
  | true =>
      rw [Bool.toNat_true, Nat.one_mul]
      exact iff_of_true (Nat.two_pow_pos place) rfl

theorem checkedDigit_eq {after : Nat} (index : UInt64) (before : Nat) (h : after < 64) :
    checkedDigit index (before + (after + 1)) before =
      some (if index.toNat.testBit after then 1 else 0) := by
  rw [checkedDigit, checkedPlace_add, Option.bind_eq_bind, Option.bind_some, checkedMask_of_lt h]
  simp only [Option.bind_eq_bind, Option.bind_some, and_one_shiftLeft_pos_iff h]
  rfl

theorem mapM_checkedDigit {rest : List Char} {before count : Nat} (index : UInt64)
    (all : count = before + rest.length) (small : rest.length ≤ 64) :
    ((rest.zipIdx before).mapM fun (letter, before) => do
      let digit ← checkedDigit index count before
      return (letter, digit)) = some (rest.zip (digits index.toNat rest.length)) := by
  induction rest generalizing before with
  | nil => rfl
  | cons letter rest ih =>
      rw [List.length_cons] at all small
      have inWord : rest.length < 64 := by omega
      have digit := checkedDigit_eq index before inWord
      rw [← all] at digit
      rw [List.zipIdx_cons, List.mapM_cons, ih (by omega) (by omega), List.length_cons, digits,
        List.zip_cons_cons]
      simp only [digit]
      rfl

/-- Words have places enough for 64 letters. -/
theorem checkedNumbered_eq (small : letters.length ≤ 64) (index : UInt64) :
    checkedNumbered letters index = some (numbered letters index.toNat) := by
  rw [checkedNumbered, mapM_checkedDigit index (Nat.zero_add _).symm small, Option.bind_eq_bind,
    Option.bind_some, ofPairs_zip_digits]
  rfl

/-! ### Keys in order -/

theorem compareKeys_self (key : List UInt8) : compareKeys key key = .eq := by
  rw [compareKeys, if_neg (List.lt_irrefl key), if_pos rfl]

theorem compareKeys_of_lt {a b : List UInt8} (h : a < b) : compareKeys a b = .lt :=
  if_pos h

theorem compareKeys_of_gt {a b : List UInt8} (h : b < a) : compareKeys a b = .gt := by
  rw [compareKeys, if_neg (List.lt_asymm h), if_neg]
  rintro rfl
  exact List.lt_irrefl a h

/-- Below `2 ^ n` the numbers come in the order of the keys. -/
theorem compareKeys_numbered (ascending : letters.Pairwise (· < ·)) {i j : Nat}
    (hi : i < 2 ^ letters.length) (hj : j < 2 ^ letters.length) :
    compareKeys (numbered letters i).key (numbered letters j).key = compare i j := by
  have key (index : Nat) : (numbered letters index).key = digits index letters.length :=
    key_numbered ⟨letters, ascending⟩ index
  rw [key, key]
  rcases Nat.lt_trichotomy i j with less | rfl | greater
  · rw [compareKeys_of_lt (digits_lt_digits less hj), Nat.compare_eq_lt.2 less]
  · rw [compareKeys_self, Nat.compare_eq_eq.2 rfl]
  · rw [compareKeys_of_gt (digits_lt_digits greater hi), Nat.compare_eq_gt.2 greater]

theorem bijOn_numbered (ascending : letters.Pairwise (· < ·)) :
    Set.BijOn (numbered letters) {index | index < 2 ^ letters.length}
      {v | v.letters = letters} := by
  refine ⟨fun index _ => letters_numbered ⟨letters, ascending⟩ index, ?_, ?_⟩
  · intro i hi j hj same
    have equal : compareKeys (numbered letters i).key (numbered letters j).key = .eq := by
      rw [same, compareKeys_self]
    rw [compareKeys_numbered ascending hi hj] at equal
    exact Nat.compare_eq_eq.1 equal
  · intro v hv
    have counted : v.key ∈ keys letters.length :=
      key_mem_keys (show v.letters = Letters.toList ⟨letters, ascending⟩ from hv)
    obtain ⟨index, small, key⟩ := List.mem_map.1 counted
    refine ⟨index, List.mem_range.1 small, ?_⟩
    exact eq_of_key_eq ((letters_numbered ⟨letters, ascending⟩ index).trans hv.symm)
      ((key_numbered ⟨letters, ascending⟩ index).trans key)

/-- The valuations of `letters` are numbered by counting in binary. -/
structure CountsInBinary (letters : List Char) : Prop where
  /-- Words have places enough for 64 letters. -/
  words : letters.length ≤ 64 → ∀ index : UInt64,
    checkedNumbered letters index = some (numbered letters index.toNat)
  assigned : ∀ (index : Nat) (c : Char), ((numbered letters index).get? c).isSome ↔ c ∈ letters
  /-- The last place of a letter tells the weight of its digit. -/
  digit : ∀ (index j : Nat) (c : Char), letters[j]? = some c →
    (∀ k, j < k → letters[k]? ≠ some c) →
    (numbered letters index).get? c =
      some (UInt8.ofNat (index / 2 ^ (letters.length - 1 - j) % 2))
  modulo : ∀ index : Nat, numbered letters (index % 2 ^ letters.length) = numbered letters index
  bijOn : letters.Pairwise (· < ·) →
    Set.BijOn (numbered letters) {index | index < 2 ^ letters.length} {v | v.letters = letters}
  ordered : letters.Pairwise (· < ·) → ∀ i j : Nat, i < 2 ^ letters.length →
    j < 2 ^ letters.length →
    compareKeys (numbered letters i).key (numbered letters j).key = compare i j

/-- Numbering counts in binary, for letters in any order and repeated letters too. -/
theorem countsInBinary_numbered (letters : List Char) : CountsInBinary letters where
  words small index := checkedNumbered_eq small index
  assigned _ _ := isSome_get?_numbered_iff
  digit _ _ _ here last := get?_numbered_of_last here last
  modulo := numbered_mod letters
  bijOn := bijOn_numbered
  ordered ascending _ _ hi hj := compareKeys_numbered ascending hi hj

/-- With 64 letters the highest digit of a word is the value of the first letter. -/
theorem countsInBinary_numbered_highest :
    let letters := (List.range 64).map fun i => Char.ofNat (0x4E00 + i)
    letters.length ≤ 64 ∧ letters.Pairwise (· < ·) ∧
    (checkedNumbered letters 0x8000000000000000).map (·.get? (Char.ofNat 0x4E00)) =
      some (some 1) ∧
    compareKeys (numbered letters 0x7FFFFFFFFFFFFFFF).key
      (numbered letters 0x8000000000000000).key = .lt := by
  intro letters
  have counts := countsInBinary_numbered letters
  have small : letters.length ≤ 64 := by decide
  have ascending : letters.Pairwise (· < ·) := by decide +kernel
  have last (k : Nat) (later : 0 < k) : letters[k]? ≠ some (Char.ofNat 0x4E00) := by
    intro found
    obtain ⟨inside, same⟩ := List.getElem?_eq_some_iff.1 found
    have less := List.pairwise_iff_getElem.1 ascending 0 k (by decide) inside later
    rw [same] at less
    exact Char.lt_irrefl _ less
  refine ⟨small, ascending, ?_, ?_⟩
  · rw [counts.words small, Option.map_some, counts.digit _ 0 _ rfl last]
    decide
  · exact counts.ordered ascending _ _ (by decide) (by decide)

end Sentential.Valuation
