import Mathlib.Data.List.Perm.Subperm
import Sentential.Proofs.Keys
import Sentential.Proofs.Letters
import Sentential.Table.Basic

/-!
# The rows of a text

A text has at most one row for each key of its letters: what evaluation gives for the valuation with
that key. A list of such rows under different keys is `RowsOf` the text. Storing a row again changes
nothing, a list of full length has every row, and sorting it puts the rows in the order of counting.
-/

namespace Sentential.Table

variable {text : String} {key : List UInt8} {row row' : Row} {rows : List (List UInt8 × Row)}

/-- The number of different letters of a text. -/
def letterCount (text : String) : Nat :=
  (Scan.ofText text).letters.toList.length

/-- The row of a text under a key: the value and the entries that evaluation gives for the
valuation that assigns the bits of the key to the letters of the text. -/
def IsRow (text : String) (key : List UInt8) (row : Row) : Prop :=
  ∃ v t evaluation, v.letters = (Scan.ofText text).letters.toList ∧ v.key = key ∧
    Tree.read text = .ok t ∧ t.evaluate v text.length = .ok evaluation ∧
    row = ⟨evaluation.value, evaluation.entries⟩

theorem IsRow.key_mem (h : IsRow text key row) : key ∈ Valuation.keys (letterCount text) := by
  obtain ⟨v, t, evaluation, hletters, rfl, -⟩ := h
  exact Valuation.key_mem_keys hletters

theorem IsRow.unique (h : IsRow text key row) (h' : IsRow text key row') : row = row' := by
  obtain ⟨v, t, evaluation, hletters, hkey, hread, heval, rfl⟩ := h
  obtain ⟨v', t', evaluation', hletters', hkey', hread', heval', rfl⟩ := h'
  obtain rfl : v = v' :=
    Valuation.eq_of_key_eq (hletters.trans hletters'.symm) (hkey.trans hkey'.symm)
  rw [hread, Except.ok.injEq] at hread'
  subst hread'
  rw [heval, Except.ok.injEq] at heval'
  rw [heval']

/-- A valuation that assigns all letters of a text evaluates it to its row, whatever other letters
it assigns. -/
theorem isRow_of_evaluate {v : Valuation} {t : Tree} {evaluation : Evaluation}
    (read : Tree.read text = .ok t)
    (assigned : ∀ c ∈ (Scan.ofText text).letters.toList, (v.get? c).isSome)
    (h : t.evaluate v text.length = .ok evaluation) :
    IsRow text (v.only (Scan.ofText text).letters).key ⟨evaluation.value, evaluation.entries⟩ := by
  refine ⟨_, t, evaluation, Valuation.letters_only assigned, rfl, read, ?_, rfl⟩
  rw [← h]
  refine Tree.evaluate_congr (fun c member => ?_) _
  rw [Valuation.get?_only, if_pos ((Tree.mem_letters_of_read read).1 member)]

/-! ### Storing a row -/

theorem storeRow_of_mem (unique : (rows.map Prod.fst).Nodup) (h : (key, row) ∈ rows) :
    storeRow key row rows = rows := by
  induction rows with
  | nil => cases h
  | cons entry rest ih =>
      obtain ⟨k, old⟩ := entry
      obtain ⟨new, unique⟩ := List.nodup_cons.1 unique
      rw [storeRow]
      split
      · next same =>
        rcases List.mem_cons.1 h with here | there
        · rw [here]
        · exact absurd (List.mem_map_of_mem there) (same ▸ new)
      · next other =>
        rcases List.mem_cons.1 h with here | there
        · exact absurd (congrArg Prod.fst here).symm other
        · rw [ih unique there]

theorem storeRow_of_not_mem (h : key ∉ rows.map Prod.fst) :
    storeRow key row rows = rows ++ [(key, row)] := by
  induction rows with
  | nil => rfl
  | cons entry rest ih =>
      obtain ⟨k, old⟩ := entry
      obtain ⟨other, new⟩ := List.ne_and_not_mem_of_not_mem_cons h
      rw [storeRow, if_neg (Ne.symm other), ih new, List.cons_append]

theorem isSome_lookup_iff : (rows.lookup key).isSome ↔ key ∈ rows.map Prod.fst := by
  rw [List.lookup_isSome_iff, List.mem_map]
  constructor
  · rintro ⟨entry, member, same⟩
    exact ⟨entry, member, (beq_iff_eq.1 same).symm⟩
  · rintro ⟨entry, member, rfl⟩
    exact ⟨entry, member, beq_self_eq_true _⟩

/-- Rows of a text under different keys. -/
structure RowsOf (text : String) (rows : List (List UInt8 × Row)) : Prop where
  unique : (rows.map Prod.fst).Nodup
  isRow : ∀ entry ∈ rows, IsRow text entry.1 entry.2

namespace RowsOf

theorem perm {rows' : List (List UInt8 × Row)} (h : RowsOf text rows) (perm : rows.Perm rows') :
    RowsOf text rows' where
  unique := (perm.map Prod.fst).nodup_iff.1 h.unique
  isRow entry member := h.isRow entry (perm.symm.subset member)

theorem mem_of_key_mem (h : RowsOf text rows) (isRow : IsRow text key row)
    (member : key ∈ rows.map Prod.fst) : (key, row) ∈ rows := by
  obtain ⟨entry, hentry, rfl⟩ := List.mem_map.1 member
  rw [isRow.unique (h.isRow entry hentry)]
  exact hentry

/-- Storing a row that is there changes nothing. -/
theorem storeRow_eq_self (h : RowsOf text rows) (isRow : IsRow text key row)
    (member : key ∈ rows.map Prod.fst) : storeRow key row rows = rows :=
  storeRow_of_mem h.unique (h.mem_of_key_mem isRow member)

theorem subset_storeRow (h : RowsOf text rows) (isRow : IsRow text key row) :
    rows ⊆ storeRow key row rows := by
  by_cases member : key ∈ rows.map Prod.fst
  · rw [h.storeRow_eq_self isRow member]
    exact List.Subset.refl _
  · rw [storeRow_of_not_mem member]
    exact List.subset_append_left _ _

theorem key_mem_storeRow (h : RowsOf text rows) (isRow : IsRow text key row) :
    key ∈ (storeRow key row rows).map Prod.fst := by
  by_cases member : key ∈ rows.map Prod.fst
  · rw [h.storeRow_eq_self isRow member]
    exact member
  · rw [storeRow_of_not_mem member]
    exact List.mem_map_of_mem (List.mem_append_right _ List.mem_cons_self)

theorem store (h : RowsOf text rows) (isRow : IsRow text key row) :
    RowsOf text (storeRow key row rows) := by
  by_cases member : key ∈ rows.map Prod.fst
  · rw [h.storeRow_eq_self isRow member]
    exact h
  · rw [storeRow_of_not_mem member]
    constructor
    · rw [List.map_append, List.map_singleton, List.nodup_append]
      refine ⟨h.unique, List.pairwise_singleton _ _, ?_⟩
      rintro k old k' added rfl
      rw [List.mem_singleton.1 added] at old
      exact member old
    · intro entry there
      rcases List.mem_append.1 there with old | added
      · exact h.isRow entry old
      · rw [List.mem_singleton.1 added]
        exact isRow

theorem keys_subset (h : RowsOf text rows) :
    rows.map Prod.fst ⊆ Valuation.keys (letterCount text) := by
  intro key member
  obtain ⟨entry, hentry, rfl⟩ := List.mem_map.1 member
  exact (h.isRow entry hentry).key_mem

theorem length_le (h : RowsOf text rows) : rows.length ≤ 2 ^ letterCount text := by
  have le := (h.unique.subperm h.keys_subset).length_le
  rwa [List.length_map, Valuation.length_keys] at le

/-- All rows are there if there are as many as there can be. -/
theorem keys_perm_iff (h : RowsOf text rows) :
    (rows.map Prod.fst).Perm (Valuation.keys (letterCount text)) ↔
      rows.length = 2 ^ letterCount text := by
  constructor
  · intro perm
    simpa using perm.length_eq
  · intro full
    refine (h.unique.subperm h.keys_subset).perm_of_length_le (Nat.le_of_eq ?_)
    rw [List.length_map, Valuation.length_keys, full]

theorem keys_perm_of_subset (h : RowsOf text rows)
    (all : Valuation.keys (letterCount text) ⊆ rows.map Prod.fst) :
    (rows.map Prod.fst).Perm (Valuation.keys (letterCount text)) := by
  rw [List.perm_ext_iff_of_nodup h.unique (Valuation.nodup_keys _)]
  exact fun key => ⟨fun member => h.keys_subset member, fun member => all member⟩

end RowsOf

/-! ### The order of rows -/

theorem isLE_compareKeys {a b : List UInt8} :
    (Valuation.compareKeys a b).isLE = true ↔ a ≤ b := by
  rw [List.le_iff_lt_or_eq, Valuation.compareKeys]
  split
  · next less => simp [less]
  · next notLess =>
    split
    · next same => simp [same]
    · next other => simp [notLess, other]

theorem sorted_perm (rows : List (List UInt8 × Row)) : (sorted rows).Perm rows :=
  List.mergeSort_perm _ _

theorem pairwise_sorted (rows : List (List UInt8 × Row)) :
    ((sorted rows).map Prod.fst).Pairwise (· ≤ ·) := by
  let le (a b : List UInt8 × Row) : Bool := (Valuation.compareKeys a.1 b.1).isLE
  have trans (a b c : List UInt8 × Row) (hab : le a b) (hbc : le b c) : le a c :=
    isLE_compareKeys.2 (List.le_trans (isLE_compareKeys.1 hab) (isLE_compareKeys.1 hbc))
  have total (a b : List UInt8 × Row) : (le a b || le b a) = true := by
    rw [Bool.or_eq_true, isLE_compareKeys, isLE_compareKeys]
    exact List.le_total a.1 b.1
  exact List.pairwise_map.2 ((List.pairwise_mergeSort trans total rows).imp isLE_compareKeys.1)

/-- Sorted, all rows are in the order of counting. -/
theorem keys_sorted {n : Nat} (h : (rows.map Prod.fst).Perm (Valuation.keys n)) :
    (sorted rows).map Prod.fst = Valuation.keys n := by
  refine List.Perm.eq_of_pairwise (fun a b _ _ => List.le_antisymm) (pairwise_sorted rows)
    ((Valuation.pairwise_keys n).imp List.le_of_lt) ?_
  exact ((sorted_perm rows).map Prod.fst).trans h

end Sentential.Table
