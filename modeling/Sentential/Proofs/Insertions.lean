import Sentential.Proofs.Keys

/-!
# Insertions in a row

Pairs are inserted one after the other. The first one that is not a bit ends this, and is the one
reported. If all are bits, each letter has the value of its last pair, or the value it had before if
it has no pair. So valuations made from pairs are the same if the pairs bind the same letters to the
same last values.
-/

namespace Sentential.Valuation

variable {v w : Valuation} {pairs pairs' : List (Char × UInt8)} {letter : Char} {value : UInt8}
  {fault : Fault}

/-! ### One insertion -/

theorem insert_of_le_one (bit : value ≤ 1) :
    v.insert letter value = .ok (v.assign letter value bit, v.get? letter) :=
  dif_pos bit

theorem insert_of_one_lt (large : 1 < value) :
    v.insert letter value = .error (.notBit letter (toString value.toNat)) :=
  dif_neg (UInt8.not_le.2 large)

/-! ### Insertions in a row -/

/-- The value of a letter is that of its last pair, or the old one. -/
theorem get?_insertAll (inserts : v.insertAll pairs = .ok w) (c : Char) :
    w.get? c = (pairs.reverse.lookup c).or (v.get? c) := by
  induction pairs generalizing v with
  | nil =>
      cases inserts
      rfl
  | cons pair rest ih =>
      obtain ⟨letter, value⟩ := pair
      by_cases bit : value ≤ 1
      · rw [insertAll, insert_of_le_one bit] at inserts
        rw [ih inserts, get?_assign, List.reverse_cons, List.lookup_append, Option.or_assoc,
          List.lookup_cons, List.lookup_nil]
        by_cases same : c = letter
        · simp [same]
        · have other : (c == letter) = false := beq_eq_false_iff_ne.2 same
          simp [same, other]
      · rw [insertAll, insert_of_one_lt (UInt8.not_le.1 bit)] at inserts
        cases inserts

theorem exists_insertAll (v : Valuation) (bits : ∀ pair ∈ pairs, pair.2 ≤ 1) :
    ∃ w, v.insertAll pairs = .ok w := by
  induction pairs generalizing v with
  | nil => exact ⟨v, rfl⟩
  | cons pair rest ih =>
      obtain ⟨bit, bits⟩ := List.forall_mem_cons.1 bits
      obtain ⟨w, inserts⟩ := ih (v.assign pair.1 pair.2 bit) bits
      refine ⟨w, ?_⟩
      rw [insertAll, insert_of_le_one bit]
      exact inserts

theorem get?_ofPairs (made : ofPairs pairs = .ok v) (c : Char) :
    v.get? c = pairs.reverse.lookup c := by
  rw [get?_insertAll made c, get?_empty, Option.or_none]

theorem get?_ofPairs_eq_none_iff (made : ofPairs pairs = .ok v) {c : Char} :
    v.get? c = none ↔ c ∉ pairs.map Prod.fst := by
  rw [get?_ofPairs made, ← Option.not_isSome_iff_eq_none, List.lookup_isSome_iff, List.mem_map]
  simp

theorem exists_ofPairs (bits : ∀ pair ∈ pairs, pair.2 ≤ 1) : ∃ v, ofPairs pairs = .ok v :=
  exists_insertAll empty bits

/-- Among pairs with different letters the last one for a letter is the only one. -/
theorem lookup_reverse (unique : (pairs.map Prod.fst).Nodup) (c : Char) :
    pairs.reverse.lookup c = pairs.lookup c := by
  have unique' : (pairs.reverse.map Prod.fst).Nodup := by
    rw [List.map_reverse]
    exact (List.reverse_perm _).nodup_iff.2 unique
  refine Option.ext fun value => ?_
  rw [lookup_eq_some_iff unique', lookup_eq_some_iff unique, List.mem_reverse]

/-- A valuation is made from its own entries. -/
theorem ofPairs_entries (v : Valuation) : ofPairs v.entries = .ok v := by
  have unique : (v.entries.map Prod.fst).Nodup :=
    (List.pairwise_map.2 v.ascending).imp Char.ne_of_lt
  obtain ⟨w, made⟩ := exists_ofPairs v.bits
  have same : w = v := by
    refine eq_of_get?_eq fun c => ?_
    rw [get?_ofPairs made, lookup_reverse unique]
    rfl
  rw [made, same]

/-! ### Numbered valuations -/

/-- Numbering is inserting the binary digits of the number. -/
theorem insertAll_zip_digits (v : Valuation) (index : Nat) (letters : List Char) :
    v.insertAll (letters.zip (digits index letters.length)) =
      .ok (assignDigits index v letters) := by
  induction letters generalizing v with
  | nil => rfl
  | cons letter rest ih =>
      rw [List.length_cons, digits, List.zip_cons_cons, assignDigits]
      split
      · rw [insertAll, insert_of_le_one (UInt8.le_refl 1)]
        exact ih _
      · rw [insertAll, insert_of_le_one (by decide : (0 : UInt8) ≤ 1)]
        exact ih _

theorem ofPairs_zip_digits (letters : List Char) (index : Nat) :
    ofPairs (letters.zip (digits index letters.length)) = .ok (numbered letters index) :=
  insertAll_zip_digits empty index letters

/-- The value of a letter is the digit at its last place. -/
theorem get?_numbered (letters : List Char) (index : Nat) (c : Char) :
    (numbered letters index).get? c =
      (letters.zip (digits index letters.length)).reverse.lookup c :=
  get?_ofPairs (ofPairs_zip_digits letters index) c

end Sentential.Valuation
