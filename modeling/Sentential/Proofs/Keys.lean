import Mathlib.Algebra.Group.Nat.Defs
import Mathlib.Data.Char
import Mathlib.Order.Bounds.Basic
import Sentential.Connective
import Sentential.Valuation.Numbering

/-!
# Keys

The key of a valuation lists its values in the order of its letters. For given letters a key tells
the valuation, and counting in binary lists all keys, in their lexicographic order and each of them
once. Limiting a valuation to letters that it assigns keeps exactly these letters and their values.
-/

namespace Sentential

/-- Under different keys, what is found under a key is what is there. -/
theorem lookup_eq_some_iff {α β : Type} [BEq α] [LawfulBEq α] {entries : List (α × β)} {a : α}
    {b : β} (unique : (entries.map Prod.fst).Nodup) :
    entries.lookup a = some b ↔ (a, b) ∈ entries := by
  rw [List.lookup_eq_some_iff]
  constructor
  · rintro ⟨front, back, rfl, -⟩
    exact List.mem_append_right _ List.mem_cons_self
  · intro member
    obtain ⟨front, back, rfl⟩ := List.append_of_mem member
    refine ⟨front, back, rfl, fun entry before => ?_⟩
    rw [List.map_append, List.map_cons, List.nodup_append] at unique
    rw [bne_iff_ne]
    exact (unique.2.2 _ (List.mem_map_of_mem before) _ List.mem_cons_self).symm

/-- Keeping the entries for some keys only, one finds under these keys what one found before. -/
theorem lookup_filter_contains {α β : Type} [BEq α] [LawfulBEq α] [DecidableEq α]
    (entries : List (α × β)) (keys : List α) (a : α) :
    (entries.filter fun entry => keys.contains entry.1).lookup a =
      if a ∈ keys then entries.lookup a else none := by
  induction entries with
  | nil => simp
  | cons entry rest ih =>
      obtain ⟨b, value⟩ := entry
      rw [List.filter_cons, List.lookup_cons]
      by_cases same : a = b
      · subst same
        by_cases member : a ∈ keys
        · simp [member]
        · rw [if_neg (by simp [member]), ih, if_neg member, if_neg member]
      · have other : (a == b) = false := beq_eq_false_iff_ne.2 same
        simp only [other]
        split
        · rw [List.lookup_cons, other, ih]
        · exact ih

namespace Valuation

variable {v w : Valuation} {letters : Letters}

/-- The lowest `n` binary digits of `index`, the most significant one first. -/
def digits (index : Nat) : Nat → List UInt8
  | 0 => []
  | n + 1 => (if index.testBit n then 1 else 0) :: digits index n

/-- All lists of `n` bits, by counting. -/
def keys (n : Nat) : List (List UInt8) :=
  (List.range (2 ^ n)).map fun index => digits index n

/-! ### Counting -/

@[simp] theorem length_digits (index n : Nat) : (digits index n).length = n := by
  induction n with
  | zero => rfl
  | succ n ih => rw [digits, List.length_cons, ih]

theorem le_one_of_mem_digits {index n : Nat} {bit : UInt8} (h : bit ∈ digits index n) :
    bit ≤ 1 := by
  induction n with
  | zero => cases h
  | succ n ih =>
      rcases List.mem_cons.1 h with rfl | member
      · split <;> decide
      · exact ih member

/-- Only the lowest digits matter. -/
theorem digits_mod (index n : Nat) : digits (index % 2 ^ n) n = digits index n := by
  suffices h : ∀ m ≤ n, digits (index % 2 ^ n) m = digits index m from h n (Nat.le_refl n)
  intro m hm
  induction m with
  | zero => rfl
  | succ m ih =>
      have low : decide (m < n) = true := decide_eq_true hm
      rw [digits, digits, ih (by omega), Nat.testBit_mod_two_pow, low, Bool.true_and]

theorem testBit_of_lt_two_pow_succ {index n : Nat} (h : index < 2 ^ (n + 1)) :
    index.testBit n = decide (2 ^ n ≤ index) := by
  by_cases small : index < 2 ^ n
  · rw [Nat.testBit_lt_two_pow small, decide_eq_false (Nat.not_le.2 small)]
  · obtain ⟨rest, rfl⟩ := Nat.exists_eq_add_of_le (Nat.not_lt.1 small)
    have low : rest < 2 ^ n := by
      rw [Nat.pow_succ] at h
      omega
    rw [Nat.testBit_two_pow_add_eq, Nat.testBit_lt_two_pow low,
      decide_eq_true (Nat.le_add_right _ _)]
    rfl

/-- Counting goes up in the order of keys: the first digits decide, or they agree and the lower
digits do. -/
theorem digits_lt_digits {n i j : Nat} (h : i < j) (hj : j < 2 ^ n) : digits i n < digits j n := by
  induction n generalizing i j with
  | zero => omega
  | succ n ih =>
      have power : 2 ^ (n + 1) = 2 * 2 ^ n := by rw [Nat.pow_succ, Nat.mul_comm]
      rw [digits, digits, testBit_of_lt_two_pow_succ (Nat.lt_trans h hj),
        testBit_of_lt_two_pow_succ hj, ← digits_mod i, ← digits_mod j]
      by_cases high : 2 ^ n ≤ i
      · have high' : 2 ^ n ≤ j := by omega
        rw [decide_eq_true high, decide_eq_true high', List.cons_lt_cons_iff]
        refine .inr ⟨rfl, ih ?_ (Nat.mod_lt _ (Nat.two_pow_pos n))⟩
        rw [Nat.mod_eq_sub_mod high, Nat.mod_eq_sub_mod high', Nat.mod_eq_of_lt (by omega),
          Nat.mod_eq_of_lt (by omega)]
        omega
      · by_cases high' : 2 ^ n ≤ j
        · rw [decide_eq_false high, decide_eq_true high', List.cons_lt_cons_iff]
          exact .inl (by decide)
        · rw [decide_eq_false high, decide_eq_false high', List.cons_lt_cons_iff]
          refine .inr ⟨rfl, ih ?_ (Nat.mod_lt _ (Nat.two_pow_pos n))⟩
          rwa [Nat.mod_eq_of_lt (by omega), Nat.mod_eq_of_lt (by omega)]

theorem exists_digits_eq {key : List UInt8} (bits : ∀ bit ∈ key, bit ≤ 1) :
    ∃ index < 2 ^ key.length, digits index key.length = key := by
  induction key with
  | nil => exact ⟨0, by decide, rfl⟩
  | cons bit rest ih =>
      obtain ⟨head, tail⟩ := List.forall_mem_cons.1 bits
      obtain ⟨index, small, hindex⟩ := ih tail
      have power : 2 ^ (rest.length + 1) = 2 * 2 ^ rest.length := by
        rw [Nat.pow_succ, Nat.mul_comm]
      rcases eq_zero_or_one head with rfl | rfl
      · refine ⟨index, by rw [List.length_cons]; omega, ?_⟩
        rw [List.length_cons, digits, Nat.testBit_lt_two_pow small, hindex]
        rfl
      · refine ⟨2 ^ rest.length + index, by rw [List.length_cons]; omega, ?_⟩
        rw [List.length_cons, digits, Nat.testBit_two_pow_add_eq, Nat.testBit_lt_two_pow small,
          ← digits_mod, Nat.add_mod_left, digits_mod, hindex]
        rfl

@[simp] theorem length_keys (n : Nat) : (keys n).length = 2 ^ n := by
  simp [keys]

theorem getElem_keys {n index : Nat} (h : index < (keys n).length) :
    (keys n)[index] = digits index n := by
  simp [keys]

theorem mem_keys {n : Nat} {key : List UInt8} :
    key ∈ keys n ↔ key.length = n ∧ ∀ bit ∈ key, bit ≤ 1 := by
  constructor
  · intro h
    obtain ⟨index, -, rfl⟩ := List.mem_map.1 h
    exact ⟨length_digits index n, fun bit => le_one_of_mem_digits⟩
  · rintro ⟨rfl, bits⟩
    obtain ⟨index, small, hindex⟩ := exists_digits_eq bits
    exact List.mem_map.2 ⟨index, List.mem_range.2 small, hindex⟩

/-- Counting lists the keys in ascending order. -/
theorem pairwise_keys (n : Nat) : (keys n).Pairwise (· < ·) := by
  rw [keys, List.pairwise_map, List.pairwise_iff_getElem]
  intro i j hi hj lt
  rw [List.length_range] at hj
  rw [List.getElem_range, List.getElem_range]
  exact digits_lt_digits lt hj

theorem nodup_keys (n : Nat) : (keys n).Nodup := by
  refine (pairwise_keys n).imp ?_
  rintro key _ lt rfl
  exact List.lt_irrefl key lt

/-! ### Numbered valuations -/

theorem place_of_forall_lt {letter : Char} {value : UInt8} {entries : List (Char × UInt8)}
    (h : ∀ entry ∈ entries, entry.1 < letter) :
    place letter value entries = entries ++ [(letter, value)] := by
  induction entries with
  | nil => rfl
  | cons entry rest ih =>
      obtain ⟨head, tail⟩ := List.forall_mem_cons.1 h
      rw [place, if_neg (Char.lt_asymm head), if_neg (Char.ne_of_lt head).symm, ih tail,
        List.cons_append]

theorem entries_assignDigits {index : Nat} {list : List Char} (ascending : list.Pairwise (· < ·))
    (behind : ∀ entry ∈ v.entries, ∀ letter ∈ list, entry.1 < letter) :
    (assignDigits index v list).entries = v.entries ++ list.zip (digits index list.length) := by
  induction list generalizing v with
  | nil => simp [assignDigits]
  | cons letter rest ih =>
      obtain ⟨first, tail⟩ := List.pairwise_cons.1 ascending
      have last (value : UInt8) (bit : value ≤ 1) :
          (v.assign letter value bit).entries = v.entries ++ [(letter, value)] :=
        place_of_forall_lt fun entry member => behind entry member letter List.mem_cons_self
      have next (value : UInt8) (bit : value ≤ 1) :
          (assignDigits index (v.assign letter value bit) rest).entries =
            v.entries ++ (letter, value) :: rest.zip (digits index rest.length) := by
        rw [ih tail, last, List.append_assoc, List.singleton_append]
        intro entry member other hother
        rw [last] at member
        rcases List.mem_append.1 member with old | new
        · exact behind entry old other (List.mem_cons_of_mem _ hother)
        · rw [List.mem_singleton.1 new]
          exact first other hother
      rw [assignDigits, List.length_cons, digits, List.zip_cons_cons]
      split <;> exact next _ _

theorem entries_numbered (letters : Letters) (index : Nat) :
    (numbered letters.toList index).entries =
      letters.toList.zip (digits index letters.toList.length) :=
  entries_assignDigits letters.ascending (by simp [empty])

theorem letters_numbered (letters : Letters) (index : Nat) :
    (numbered letters.toList index).letters = letters.toList := by
  rw [Valuation.letters, entries_numbered]
  exact List.map_fst_zip (Nat.le_of_eq (length_digits _ _).symm)

theorem key_numbered (letters : Letters) (index : Nat) :
    (numbered letters.toList index).key = digits index letters.toList.length := by
  rw [key, entries_numbered]
  exact List.map_snd_zip (Nat.le_of_eq (length_digits _ _))

/-! ### Letters and keys -/

theorem isSome_get?_iff {letter : Char} : (v.get? letter).isSome ↔ letter ∈ v.letters := by
  rw [get?, List.lookup_isSome_iff, Valuation.letters, List.mem_map]
  simp

theorem length_key (v : Valuation) : v.key.length = v.letters.length := by
  rw [key, Valuation.letters, List.length_map, List.length_map]

theorem le_one_of_mem_key {bit : UInt8} (h : bit ∈ v.key) : bit ≤ 1 := by
  obtain ⟨entry, member, rfl⟩ := List.mem_map.1 h
  exact v.bits entry member

/-- The valuations of given letters have the keys of their length. -/
theorem key_mem_keys (h : v.letters = letters.toList) : v.key ∈ keys letters.toList.length :=
  mem_keys.2 ⟨by rw [length_key, h], fun _ => le_one_of_mem_key⟩

/-- For given letters a key tells the valuation. -/
theorem eq_of_key_eq (sameLetters : v.letters = w.letters) (sameKey : v.key = w.key) : v = w := by
  have same : v.entries = w.entries := by
    rw [← List.zip_unzip v.entries, ← List.zip_unzip w.entries, List.unzip_eq_map,
      List.unzip_eq_map]
    change v.letters.zip v.key = w.letters.zip w.key
    rw [sameLetters, sameKey]
  cases v
  cases w
  cases same
  rfl

theorem exists_of_mem_keys {key : List UInt8} (h : key ∈ keys letters.toList.length) :
    ∃ v : Valuation, v.letters = letters.toList ∧ v.key = key := by
  obtain ⟨index, -, rfl⟩ := List.mem_map.1 h
  exact ⟨_, letters_numbered letters index, key_numbered letters index⟩

theorem mem_entries_iff {entry : Char × UInt8} :
    entry ∈ v.entries ↔ v.get? entry.1 = some entry.2 := by
  have unique : (v.entries.map Prod.fst).Nodup :=
    (List.pairwise_map.2 v.ascending).imp Char.ne_of_lt
  exact (lookup_eq_some_iff unique).symm

/-- What a valuation assigns tells the valuation. -/
theorem eq_of_get?_eq (same : ∀ c, v.get? c = w.get? c) : v = w := by
  have distinct (u : Valuation) : u.entries.Nodup := by
    refine u.ascending.imp ?_
    rintro entry _ lt rfl
    exact Char.lt_irrefl _ lt
  have perm : v.entries.Perm w.entries := by
    rw [List.perm_ext_iff_of_nodup (distinct v) (distinct w)]
    intro entry
    rw [mem_entries_iff, mem_entries_iff, same]
  have entries : v.entries = w.entries := perm.eq_of_pairwise
    (fun a b _ _ lt gt => absurd gt (Char.lt_asymm lt)) v.ascending w.ascending
  cases v
  cases w
  cases entries
  rfl

/-! ### Restriction -/

theorem get?_only (v : Valuation) (letters : Letters) (c : Char) :
    (v.only letters).get? c = if c ∈ letters.toList then v.get? c else none :=
  lookup_filter_contains v.entries letters.toList c

theorem letters_only (assigned : ∀ c ∈ letters.toList, (v.get? c).isSome) :
    (v.only letters).letters = letters.toList := by
  have ascending : (v.only letters).letters.Pairwise (· < ·) :=
    List.pairwise_map.2 (v.only letters).ascending
  have distinct {list : List Char} (h : list.Pairwise (· < ·)) : list.Nodup :=
    h.imp Char.ne_of_lt
  refine List.Perm.eq_of_pairwise (fun c d _ _ lt gt => absurd gt (Char.lt_asymm lt)) ascending
    letters.ascending ?_
  rw [List.perm_ext_iff_of_nodup (distinct ascending) (distinct letters.ascending)]
  intro c
  rw [← isSome_get?_iff, get?_only]
  constructor
  · intro h
    split at h
    · next member => exact member
    · cases h
  · intro member
    rw [if_pos member]
    exact assigned c member

/-- Limited to letters that both assign, two valuations have the same key if they agree on them. -/
theorem key_only_eq_iff (assigned : ∀ c ∈ letters.toList, (v.get? c).isSome)
    (assigned' : ∀ c ∈ letters.toList, (w.get? c).isSome) :
    (v.only letters).key = (w.only letters).key ↔ ∀ c ∈ letters.toList, v.get? c = w.get? c := by
  constructor
  · intro sameKey c member
    have same : v.only letters = w.only letters :=
      eq_of_key_eq ((letters_only assigned).trans (letters_only assigned').symm) sameKey
    have found := congrArg (·.get? c) same
    simpa only [get?_only, if_pos member] using found
  · intro agree
    refine congrArg key (eq_of_get?_eq fun c => ?_)
    rw [get?_only, get?_only]
    split
    · next member => exact agree c member
    · rfl

theorem only_eq_self (h : v.letters = letters.toList) : v.only letters = v := by
  have same : (v.only letters).entries = v.entries := by
    refine List.filter_eq_self.2 fun entry member => ?_
    rw [List.contains_iff_mem, ← h]
    exact List.mem_map_of_mem member
  exact eq_of_key_eq (congrArg (List.map Prod.fst) same) (congrArg (List.map Prod.snd) same)

theorem restrict_eq_ok_iff :
    v.restrict letters = .ok w ↔
      (∀ c ∈ letters.toList, (v.get? c).isSome) ∧ v.only letters = w := by
  rw [restrict]
  split
  · next missing found =>
    have absent := List.find?_some found
    refine ⟨fun h => (nomatch h), fun h => ?_⟩
    have present := h.1 missing (List.mem_of_find?_eq_some found)
    rw [Option.isNone_iff_eq_none.1 absent] at present
    cases present
  · next none =>
    have assigned (c : Char) (member : c ∈ letters.toList) : (v.get? c).isSome := by
      have present := List.find?_eq_none.1 none c member
      simpa [Option.isSome_iff_ne_none] using present
    rw [Except.ok.injEq]
    exact ⟨fun h => ⟨assigned, h⟩, And.right⟩

theorem restrict_eq_self (h : v.letters = letters.toList) : v.restrict letters = .ok v := by
  refine restrict_eq_ok_iff.2 ⟨fun c member => ?_, only_eq_self h⟩
  rw [isSome_get?_iff, h]
  exact member

/-- The letter that a failing restriction names is the least one without a value. -/
theorem exists_isLeast_of_restrict {fault : Fault} (h : v.restrict letters = .error fault) :
    ∃ c, IsLeast {c | c ∈ letters.toList ∧ v.get? c = none} c ∧ fault = .unassigned c := by
  rw [restrict] at h
  split at h
  · next missing found =>
    cases h
    obtain ⟨absent, before, after, split, assigned⟩ := List.find?_eq_some_iff_append.1 found
    have member : missing ∈ letters.toList := List.mem_of_find?_eq_some found
    refine ⟨missing, ⟨⟨member, Option.isNone_iff_eq_none.1 absent⟩, ?_⟩, rfl⟩
    rintro c ⟨inside, unassigned⟩
    have ascending := letters.ascending
    rw [split] at inside ascending
    rcases List.mem_append.1 inside with early | late
    · have value := assigned c early
      rw [unassigned] at value
      cases value
    · rcases List.mem_cons.1 late with rfl | late
      · exact le_refl _
      · obtain ⟨later, -⟩ := List.pairwise_cons.1 (List.pairwise_append.1 ascending).2.1
        exact le_of_lt (later c late)
  · cases h

/-- Restriction fails exactly if some letter has no value. -/
theorem restrict_eq_error_iff {fault : Fault} :
    v.restrict letters = .error fault ↔
      ∃ c, IsLeast {c | c ∈ letters.toList ∧ v.get? c = none} c ∧ fault = .unassigned c := by
  refine ⟨exists_isLeast_of_restrict, ?_⟩
  rintro ⟨c, least, rfl⟩
  cases restricts : v.restrict letters with
  | error fault =>
      obtain ⟨d, least', rfl⟩ := exists_isLeast_of_restrict restricts
      rw [least.unique least']
  | ok restricted =>
      have value := (restrict_eq_ok_iff.1 restricts).1 c least.1.1
      rw [least.1.2] at value
      cases value

end Valuation

end Sentential
