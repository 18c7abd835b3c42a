import Sentential.Proofs.Rows
import Sentential.Table.Session

/-!
# What a table has of its text

A table fills its fields when they are first asked for, in whatever order the requests come. It is
`Grounded` if the scan, the tree and the rows that it has are those of its text. Every operation is
told here once, about grounded tables: what it answers, what it stores, and what it reports. The
verdict has no part in this. No request leaves a table ungrounded, so no session does, however many
letters the text has.

The row of a valuation is found with all letters that it assigns and stored under the letters of the
text only; the letters of the tree are those of the text, so the others have no part in the row.
-/

namespace Sentential.Table

variable {text : String} {table : Table} {α β : Type}

/-- The scan, the tree and the rows of a table, where it has them, are those of its text. -/
structure Grounded (text : String) (table : Table) : Prop where
  text_eq : table.text = text
  scan_eq : table.currentScan = .ofText text
  tree_eq : ∀ t, table.tree = some t → Tree.read text = .ok t
  rows : RowsOf text table.rows

/-! ### What operations report -/

/-- The record of reading the text of a table, unless it has been read. -/
def readingRecords (table : Table) (t : Tree) : List Record :=
  if table.tree.isSome then [] else [.read table.text t]

/-- The records of evaluating `count` valuations of some letters, numbered from `index` on. -/
def countingRecords (t : Tree) (letters : List Char) (count index : Nat) : List Record :=
  (List.range count).map fun i =>
    .evaluated (Valuation.numbered letters (index + i))
      (t.holds (Valuation.numbered letters (index + i)).holds).toUInt8

/-- The records of filling the table of a formula, unless all rows are there. -/
def completionRecords (text : String) (table : Table) (t : Tree) : List Record :=
  if table.isComplete then []
  else
    .constructing (2 ^ letterCount text) text ::
      (table.readingRecords t ++
        countingRecords t (Scan.ofText text).letters.toList (2 ^ letterCount text) 0)

theorem countingRecords_succ (t : Tree) (letters : List Char) (count index : Nat) :
    countingRecords t letters (count + 1) index =
      .evaluated (Valuation.numbered letters index)
          (t.holds (Valuation.numbered letters index).holds).toUInt8 ::
        countingRecords t letters count (index + 1) := by
  simp only [countingRecords, List.range_succ_eq_map, List.map_cons, List.map_map,
    Function.comp_def, Nat.add_zero, Nat.succ_eq_add_one, Nat.add_right_comm index]
  simp only [Nat.add_assoc]

/-- Evaluating a valuation of a formula, limited to its letters, has stored a row. -/
structure Evaluates (text : String) (t : Tree) (table : Table) (v restricted : Valuation)
    (row : Row) (next : Table) : Prop where
  outcome : table.evaluate v =
    ⟨.ok row.value, next, table.readingRecords t ++ [.evaluated v row.value]⟩
  value : row.value = (t.holds v.holds).toUInt8
  isRow : IsRow text restricted.key row
  grounded : Grounded text next
  tree : next.tree = some t
  verdict : next.verdict = table.verdict
  rows : next.rows = storeRow restricted.key row table.rows

/-- What holds of the table after one operation and is kept by the next holds after both. -/
theorem Outcome.table_andThen {holds : Table → Prop} {first : Outcome α}
    {second : α → Table → Outcome β} (h : holds first.table)
    (kept : ∀ a, first.result = .ok a → holds (second a first.table).table) :
    holds (first.andThen second).table := by
  rw [andThen]
  split
  · exact h
  · next a succeeded => exact kept a succeeded

namespace Grounded

theorem ofText (text : String) : Grounded text (.ofText text) where
  text_eq := rfl
  scan_eq := rfl
  tree_eq _ h := nomatch h
  rows := ⟨.nil, nofun⟩

theorem scanned (h : Grounded text table) : Grounded text table.scanned :=
  { h with scan_eq := h.scan_eq }

theorem withTree {t : Tree} (h : Grounded text table) (read : Tree.read text = .ok t) :
    Grounded text { table with tree := some t } :=
  { h with
    scan_eq := h.scan_eq
    tree_eq := by
      rintro t' ⟨⟩
      exact read }

theorem store {key : List UInt8} {row : Row} (h : Grounded text table)
    (isRow : IsRow text key row) : Grounded text (table.store key row) :=
  { h with
    scan_eq := h.scan_eq
    rows := h.rows.store isRow }

/-! ### Reading the text -/

theorem readTree_of_error {fault : Fault} (h : Grounded text table)
    (unread : Tree.read text = .error fault) : table.readTree = .answer table (.error fault) := by
  rw [Table.readTree, h.text_eq, unread]
  cases ht : table.tree with
  | none => rfl
  | some t =>
      rw [h.tree_eq t ht] at unread
      cases unread

theorem readTree_of_ok {t : Tree} (h : Grounded text table) (read : Tree.read text = .ok t) :
    table.readTree = ⟨.ok t, { table with tree := some t }, table.readingRecords t⟩ := by
  cases ht : table.tree with
  | none =>
      simp only [Table.readTree, readingRecords, ht, h.text_eq, read]
      rfl
  | some t' =>
      rw [h.tree_eq t' ht, Except.ok.injEq] at read
      subst read
      simp only [Table.readTree, readingRecords, ht, Option.isSome_some, if_true]
      rw [← ht]
      rfl

theorem readTree (h : Grounded text table) : Grounded text table.readTree.table := by
  cases read : Tree.read text with
  | error fault =>
      rw [h.readTree_of_error read]
      exact h
  | ok t =>
      rw [h.readTree_of_ok read]
      exact h.withTree read

/-! ### Evaluating -/

theorem evaluate_of_unassigned {v : Valuation} {fault : Fault} (h : Grounded text table)
    (unassigned : v.restrict (Scan.ofText text).letters = .error fault) :
    table.evaluate v = .answer table.scanned (.error fault) := by
  rw [Table.evaluate, h.scan_eq, unassigned]

theorem evaluate_of_error {v restricted : Valuation} {fault : Fault} (h : Grounded text table)
    (assigned : v.restrict (Scan.ofText text).letters = .ok restricted)
    (unread : Tree.read text = .error fault) :
    table.evaluate v = .answer table.scanned (.error fault) := by
  simp only [Table.evaluate, h.scan_eq, assigned, h.scanned.readTree_of_error unread]
  rfl

/-- If all letters are assigned and the text is a formula, evaluation stores a row. -/
theorem evaluate_of_ok {v restricted : Valuation} {t : Tree} (h : Grounded text table)
    (assigned : v.restrict (Scan.ofText text).letters = .ok restricted)
    (read : Tree.read text = .ok t) : ∃ row next, Evaluates text t table v restricted row next := by
  obtain ⟨all, rfl⟩ := Valuation.restrict_eq_ok_iff.1 assigned
  obtain ⟨evaluation, heval⟩ := Tree.exists_evaluation_of_read read all text.length
  have isRow := isRow_of_evaluate read all heval
  have grounded := (h.scanned.withTree read).store isRow
  refine ⟨_, _, ?_, (Tree.tells_of_evaluate heval).value_eq, isRow, grounded, rfl, rfl, rfl⟩
  simp only [Table.evaluate, h.scan_eq, assigned, h.scanned.readTree_of_ok read, Outcome.andThen,
    h.text_eq, heval]
  rfl

/-- Evaluation fails with nothing but the text scanned, or it stores a row. -/
theorem evaluate_cases (h : Grounded text table) (v : Valuation) :
    (∃ fault, table.evaluate v = .answer table.scanned (.error fault)) ∨
      ∃ t restricted row next, Evaluates text t table v restricted row next := by
  cases assigned : v.restrict (Scan.ofText text).letters with
  | error fault => exact .inl ⟨fault, h.evaluate_of_unassigned assigned⟩
  | ok restricted =>
      cases read : Tree.read text with
      | error fault => exact .inl ⟨fault, h.evaluate_of_error assigned read⟩
      | ok t => exact .inr ⟨t, restricted, h.evaluate_of_ok assigned read⟩

theorem evaluate (h : Grounded text table) (v : Valuation) :
    Grounded text (table.evaluate v).table := by
  obtain ⟨fault, failed⟩ | ⟨t, restricted, row, next, evaluates⟩ := h.evaluate_cases v
  · rw [failed]
    exact h.scanned
  · rw [evaluates.outcome]
    exact evaluates.grounded

/-- A row that is there stays where it is when its valuation is evaluated again. -/
theorem rows_evaluate_of_mem {v restricted : Valuation} (h : Grounded text table)
    (assigned : v.restrict (Scan.ofText text).letters = .ok restricted)
    (member : restricted.key ∈ table.rows.map Prod.fst) :
    (table.evaluate v).table.rows = table.rows := by
  cases read : Tree.read text with
  | error fault =>
      rw [h.evaluate_of_error assigned read]
      rfl
  | ok t =>
      obtain ⟨row, next, evaluates⟩ := h.evaluate_of_ok assigned read
      rw [evaluates.outcome]
      exact evaluates.rows.trans (h.rows.storeRow_eq_self evaluates.isRow member)

/-! ### Filling a table -/

/-- The rows of a text that is no formula are none. -/
theorem rows_eq_nil {fault : Fault} (h : Grounded text table)
    (unread : Tree.read text = .error fault) : table.rows = [] := by
  refine List.eq_nil_iff_forall_not_mem.2 fun entry member => ?_
  obtain ⟨v, t, evaluation, -, -, read, -⟩ := h.rows.isRow entry member
  rw [unread] at read
  cases read

theorem fill {letters : List Char} {count index : Nat} (h : Grounded text table) :
    Grounded text (table.fill letters count index).table := by
  induction count generalizing table index with
  | zero => exact h
  | succ count ih => exact Outcome.table_andThen (h.evaluate _) fun _ _ => ih (h.evaluate _)

theorem fill_of_error {fault : Fault} {count : Nat} (h : Grounded text table)
    (unread : Tree.read text = .error fault) (index : Nat) :
    table.fill (Scan.ofText text).letters.toList (count + 1) index =
      .answer table.scanned (.error fault) := by
  have assigned := Valuation.restrict_eq_self
    (Valuation.letters_numbered (Scan.ofText text).letters index)
  rw [Table.fill, h.evaluate_of_error assigned unread]
  rfl

/-- Filling a table stores the rows with all numbers that it goes through. -/
theorem fill_of_ok {t : Tree} {count index : Nat} (h : Grounded text table)
    (read : Tree.read text = .ok t) :
    ∃ next, table.fill (Scan.ofText text).letters.toList count index =
        ⟨.ok (), next, (if count = 0 then [] else table.readingRecords t) ++
          countingRecords t (Scan.ofText text).letters.toList count index⟩ ∧
      Grounded text next ∧ next.tree = (if count = 0 then table.tree else some t) ∧
      table.rows ⊆ next.rows ∧
      ∀ i < count, Valuation.digits (index + i) (letterCount text) ∈ next.rows.map Prod.fst := by
  induction count generalizing table index with
  | zero => exact ⟨table, rfl, h, rfl, List.Subset.refl _, nofun⟩
  | succ count ih =>
      have assigned := Valuation.restrict_eq_self
        (Valuation.letters_numbered (Scan.ofText text).letters index)
      obtain ⟨row, next, evaluates⟩ := h.evaluate_of_ok assigned read
      obtain ⟨last, fills, grounded, known, kept, all⟩ := @ih next (index + 1) evaluates.grounded
      -- The tree is there from the first evaluation on.
      have reported : next.readingRecords t = [] := by rw [readingRecords, evaluates.tree]; rfl
      rw [evaluates.tree, ite_self] at known
      rw [reported, ite_self, List.nil_append] at fills
      refine ⟨last, ?_, grounded, known, ?_, ?_⟩
      · rw [Table.fill, evaluates.outcome, countingRecords_succ, ← evaluates.value]
        simp only [Outcome.andThen, fills, Nat.succ_ne_zero, if_false, List.append_assoc,
          List.singleton_append]
      · refine List.Subset.trans ?_ kept
        rw [evaluates.rows]
        exact h.rows.subset_storeRow evaluates.isRow
      · intro i hi
        cases i with
        | zero =>
            refine List.map_subset Prod.fst kept ?_
            rw [Nat.add_zero, letterCount, ← Valuation.key_numbered, evaluates.rows]
            exact h.rows.key_mem_storeRow evaluates.isRow
        | succ i =>
            have later := all i (by omega)
            rwa [Nat.add_assoc, Nat.add_comm 1 i] at later

end Grounded

/-! ### Completing a table

Counts of rows are exact only for fewer than 64 letters.
-/

theorem rowCount_eq (small : letterCount text < 64) :
    (Scan.ofText text).rowCount = 2 ^ letterCount text :=
  (if_pos small).trans (Nat.one_shiftLeft _)

namespace Grounded

theorem isComplete_iff (h : Grounded text table) (small : letterCount text < 64) :
    table.isComplete = true ↔
      (table.rows.map Prod.fst).Perm (Valuation.keys (letterCount text)) := by
  rw [isComplete, h.scan_eq, rowCount_eq small, decide_eq_true_iff, h.rows.keys_perm_iff]

theorem isComplete_iff_forall (h : Grounded text table) (small : letterCount text < 64) :
    table.isComplete = true ↔ ∀ v : Valuation,
      v.letters = (Scan.ofText text).letters.toList → (table.rows.lookup v.key).isSome := by
  rw [h.isComplete_iff small]
  constructor
  · intro full v hletters
    rw [isSome_lookup_iff]
    exact full.symm.subset (Valuation.key_mem_keys hletters)
  · intro all
    refine h.rows.keys_perm_of_subset fun key member => ?_
    obtain ⟨v, hletters, rfl⟩ := Valuation.exists_of_mem_keys member
    exact isSome_lookup_iff.1 (all v hletters)

theorem complete (h : Grounded text table) : Grounded text table.complete.table := by
  rw [Table.complete]
  split
  · exact h.scanned
  · exact h.scanned.fill

theorem complete_of_error {fault : Fault} (h : Grounded text table)
    (small : letterCount text < 64) (unread : Tree.read text = .error fault) :
    ∃ records, table.complete = ⟨.error fault, table.scanned, records⟩ := by
  have none := h.rows_eq_nil unread
  have positive := Nat.two_pow_pos (letterCount text)
  have incomplete : table.isComplete = false := by
    rw [isComplete, none, h.scan_eq, rowCount_eq small, decide_eq_false_iff_not]
    exact Nat.ne_of_lt positive
  obtain ⟨count, hcount⟩ := Nat.exists_eq_succ_of_ne_zero (Nat.ne_of_gt positive)
  refine ⟨[.constructing (count + 1) table.text], ?_⟩
  simp only [Table.complete, incomplete, Bool.false_eq_true, if_false, h.scan_eq,
    rowCount_eq small, hcount, h.scanned.fill_of_error unread]
  rfl

/-- A formula's table can be completed, whatever rows it has. -/
theorem complete_of_ok {t : Tree} (h : Grounded text table) (small : letterCount text < 64)
    (read : Tree.read text = .ok t) :
    ∃ next, table.complete = ⟨.ok (), next, completionRecords text table t⟩ ∧
      Grounded text next ∧ next.tree = (if table.isComplete then table.tree else some t) ∧
      table.rows ⊆ next.rows ∧
      (next.rows.map Prod.fst).Perm (Valuation.keys (letterCount text)) := by
  cases hcomplete : table.isComplete with
  | true =>
      refine ⟨table.scanned, ?_, h.scanned, rfl, List.Subset.refl _, ?_⟩
      · rw [Table.complete, completionRecords, hcomplete]
        rfl
      · exact (h.isComplete_iff small).1 hcomplete
  | false =>
      obtain ⟨next, fills, grounded, known, kept, all⟩ :=
        @fill_of_ok _ _ t (2 ^ letterCount text) 0 h.scanned read
      have some : 2 ^ letterCount text ≠ 0 := Nat.ne_of_gt (Nat.two_pow_pos _)
      rw [if_neg some] at fills known
      refine ⟨next, ?_, grounded, known, kept, ?_⟩
      · simp only [Table.complete, completionRecords, hcomplete, Bool.false_eq_true, if_false,
          h.scan_eq, h.text_eq, rowCount_eq small, fills]
        rfl
      · refine grounded.rows.keys_perm_of_subset fun key member => ?_
        obtain ⟨i, hi, rfl⟩ := List.mem_map.1 member
        have there := all i (List.mem_range.1 hi)
        rwa [Nat.zero_add] at there

/-! ### Sessions -/

theorem classify (h : Grounded text table) : Grounded text table.classify.table :=
  { h with
    scan_eq := h.scan_eq
    rows := h.rows.perm (sorted_perm table.rows).symm }

theorem construct (h : Grounded text table) : Grounded text table.construct.table := by
  rw [Table.construct]
  split
  · exact h
  · exact Outcome.table_andThen h.complete fun _ _ => h.complete.classify

theorem render (h : Grounded text table) : Grounded text table.render.table :=
  Outcome.table_andThen h.construct fun _ _ => h.construct

/-- No request leaves a table ungrounded. -/
theorem perform (h : Grounded text table) (request : Request) :
    Grounded text (table.perform request).table := by
  cases request with
  | text | rows => exact h
  | dimensions | letters | columnCount | isComplete | get => exact h.scanned
  | tree => exact h.readTree
  | evaluate v => exact h.evaluate v
  | construct | isTautology | isContradiction | isContingency => exact h.construct
  | render => exact h.render

theorem afterSession (h : Grounded text table) (requests : List Request) :
    Grounded text (table.afterSession requests) := by
  induction requests generalizing table with
  | nil => exact h
  | cons request rest ih => exact ih (h.perform request)

end Grounded

end Sentential.Table
