import Sentential.Proofs.Grounded

/-!
# What a table knows stays true

A grounded table is `Sound` if its verdict, once it has one, is that of its rows, and these are
complete and in order. An operation leaves a table sound if it leaves it grounded, keeps the
verdict, and changes no row that a verdict is about; only finding the verdict takes more. So every
request keeps a table sound, and every session does.
-/

namespace Sentential.Table

variable {text : String} {table next : Table} {α β : Type}

/-- A table that is grounded in its text and has no verdict but that of all rows, in order. -/
structure Sound (text : String) (table : Table) : Prop extends Grounded text table where
  verdict_eq : ∀ verdict, table.verdict = some verdict →
    table.rows.map Prod.fst = Valuation.keys (letterCount text) ∧
      verdict = Verdict.ofValues (table.rows.map fun entry => entry.2.value)

/-- Two tables have the same rows and the same verdict. -/
def SameRows (table next : Table) : Prop :=
  next.rows = table.rows ∧ next.verdict = table.verdict

/-- An operation on a sound table leaves it sound and loses no row. If it fails, or if there was a
verdict, it leaves the rows as they are. -/
structure Advances (text : String) (table : Table) (outcome : Outcome α) : Prop where
  sound : Sound text outcome.table
  kept : table.rows ⊆ outcome.table.rows
  failed : ∀ fault, outcome.result = .error fault → outcome.table.rows = table.rows
  settled : table.verdict.isSome → SameRows table outcome.table

theorem Advances.map {outcome : Outcome α} (h : Advances text table outcome) (f : α → β) :
    Advances text table (outcome.map f) where
  sound := h.sound
  kept := h.kept
  failed fault failure := h.failed fault (map_eq_error_iff.1 failure)
  settled := h.settled

/-- The table of a formula has a verdict now, and what it has been found with. -/
structure Constructs (text : String) (t : Tree) (table : Table) (verdict : Verdict) (next : Table)
    (records : List Record) : Prop where
  outcome : table.construct = ⟨.ok verdict, next, records⟩
  sound : Sound text next
  kept : table.rows ⊆ next.rows
  verdict_eq : next.verdict = some verdict
  settled : table.verdict.isSome → next = table ∧ records = []
  unsettled : table.verdict = none →
    next.tree = (if table.isComplete then table.tree else some t) ∧
      records = completionRecords text table t ++ [.classified text verdict]

namespace Sound

theorem ofText (text : String) : Sound text (.ofText text) where
  toGrounded := .ofText text
  verdict_eq _ h := nomatch h

/-- A verdict stays right with the rows that it is about. -/
theorem of_grounded (h : Sound text table) (grounded : Grounded text next)
    (verdict : next.verdict = table.verdict)
    (settled : table.verdict.isSome → next.rows = table.rows) : Sound text next where
  toGrounded := grounded
  verdict_eq found hfound := by
    rw [verdict] at hfound
    rw [settled (by rw [hfound]; rfl)]
    exact h.verdict_eq found hfound

theorem advances_of_sameRows {outcome : Outcome α} (h : Sound text table)
    (grounded : Grounded text outcome.table) (same : SameRows table outcome.table) :
    Advances text table outcome where
  sound := h.of_grounded grounded same.2 fun _ => same.1
  kept := by
    rw [same.1]
    exact List.Subset.refl _
  failed _ _ := same.1
  settled _ := same

theorem advances_answer (h : Sound text table) (result : Except Fault α) :
    Advances text table (.answer table result) :=
  h.advances_of_sameRows h.toGrounded ⟨rfl, rfl⟩

theorem advances_answer_scanned (h : Sound text table) (result : Except Fault α) :
    Advances text table (.answer table.scanned result) :=
  h.advances_of_sameRows h.scanned ⟨rfl, rfl⟩

/-! ### Reading the text and evaluating -/

theorem advances_readTree (h : Sound text table) : Advances text table table.readTree := by
  cases read : Tree.read text with
  | error fault =>
      rw [h.readTree_of_error read]
      exact h.advances_answer _
  | ok t =>
      rw [h.readTree_of_ok read]
      exact h.advances_of_sameRows (h.withTree read) ⟨rfl, rfl⟩

theorem mem_keys_of_verdict {key : List UInt8} (h : Sound text table)
    (settled : table.verdict.isSome) (member : key ∈ Valuation.keys (letterCount text)) :
    key ∈ table.rows.map Prod.fst := by
  obtain ⟨verdict, hverdict⟩ := Option.isSome_iff_exists.1 settled
  rw [(h.verdict_eq verdict hverdict).1]
  exact member

theorem advances_evaluate (h : Sound text table) (v : Valuation) :
    Advances text table (table.evaluate v) := by
  obtain ⟨fault, failed⟩ | ⟨t, restricted, row, next, evaluates⟩ := h.evaluate_cases v
  · rw [failed]
    exact h.advances_answer_scanned _
  · -- With a verdict the row is there already.
    have settled (there : table.verdict.isSome) : next.rows = table.rows := by
      rw [evaluates.rows]
      refine h.rows.storeRow_eq_self evaluates.isRow ?_
      exact h.mem_keys_of_verdict there evaluates.isRow.key_mem
    rw [evaluates.outcome]
    refine ⟨h.of_grounded evaluates.grounded evaluates.verdict settled, ?_, nofun,
      fun there => ⟨settled there, evaluates.verdict⟩⟩
    show table.rows ⊆ next.rows
    rw [evaluates.rows]
    exact h.rows.subset_storeRow evaluates.isRow

/-! ### Constructing the table -/

theorem of_classify (h : Grounded text table)
    (full : (table.rows.map Prod.fst).Perm (Valuation.keys (letterCount text))) :
    Sound text table.classify.table where
  toGrounded := h.classify
  verdict_eq := by
    rintro verdict ⟨⟩
    exact ⟨keys_sorted full, rfl⟩

theorem construct_of_error {fault : Fault} (h : Sound text table) (small : letterCount text < 64)
    (unread : Tree.read text = .error fault) :
    ∃ records, table.construct = ⟨.error fault, table.scanned, records⟩ := by
  have unsettled : table.verdict = none := by
    refine Option.eq_none_iff_forall_not_mem.2 fun verdict settled => ?_
    have full := congrArg List.length (h.verdict_eq verdict settled).1
    rw [h.rows_eq_nil unread, List.map_nil, Valuation.length_keys] at full
    exact Nat.ne_of_lt (Nat.two_pow_pos _) full
  obtain ⟨records, completes⟩ := h.complete_of_error small unread
  refine ⟨records, ?_⟩
  rw [construct, unsettled]
  simp only [completes]
  rfl

/-- A formula's table gets a verdict, whatever rows it has, and keeps the one that it has. -/
theorem construct_of_ok {t : Tree} (h : Sound text table) (small : letterCount text < 64)
    (read : Tree.read text = .ok t) :
    ∃ verdict next records, Constructs text t table verdict next records := by
  cases hverdict : table.verdict with
  | some verdict =>
      refine ⟨verdict, table, [], ?_, h, List.Subset.refl _, hverdict, fun _ => ⟨rfl, rfl⟩, ?_⟩
      · rw [construct, hverdict]
        rfl
      · intro unsettled
        rw [hverdict] at unsettled
        cases unsettled
  | none =>
      obtain ⟨full, completes, grounded, known, kept, all⟩ := h.complete_of_ok small read
      refine ⟨_, full.classify.table, completionRecords text table t ++ full.classify.records, ?_,
        .of_classify grounded all, ?_, rfl, ?_, fun _ => ⟨known, ?_⟩⟩
      · rw [construct, hverdict]
        simp only [completes]
        rfl
      · exact List.Subset.trans kept (sorted_perm full.rows).symm.subset
      · intro settled
        rw [hverdict] at settled
        cases settled
      · rw [Table.classify, grounded.text_eq]

theorem advances_construct (h : Sound text table) (small : letterCount text < 64) :
    Advances text table table.construct := by
  cases read : Tree.read text with
  | error fault =>
      obtain ⟨records, constructs⟩ := h.construct_of_error small read
      rw [constructs]
      exact h.advances_of_sameRows h.scanned ⟨rfl, rfl⟩
  | ok t =>
      obtain ⟨verdict, next, records, constructs⟩ := h.construct_of_ok small read
      rw [constructs.outcome]
      refine ⟨constructs.sound, constructs.kept, nofun, fun settled => ?_⟩
      obtain ⟨rfl, -⟩ := constructs.settled settled
      exact ⟨rfl, rfl⟩

theorem advances_render (h : Sound text table) (small : letterCount text < 64) :
    Advances text table table.render := by
  have constructs := h.advances_construct small
  rw [Table.render, Outcome.andThen]
  split
  · next fault failure =>
    have failed := constructs.failed fault failure
    exact ⟨constructs.sound, constructs.kept, fun _ _ => failed, constructs.settled⟩
  · refine ⟨constructs.sound, constructs.kept, fun fault failure => ?_, constructs.settled⟩
    cases failure

/-! ### Sessions -/

/-- Every request keeps what a table knows true. -/
theorem advances_perform (h : Sound text table) (small : letterCount text < 64)
    (request : Request) : Advances text table (table.perform request) := by
  cases request with
  | text | rows => exact h.advances_answer _
  | dimensions | letters | columnCount | isComplete => exact h.advances_answer_scanned _
  | tree => exact h.advances_readTree.map _
  | evaluate v => exact (h.advances_evaluate v).map _
  | get v => exact Advances.map (h.advances_answer_scanned _) _
  | construct | isTautology | isContradiction | isContingency =>
      exact (h.advances_construct small).map _
  | render => exact (h.advances_render small).map _

theorem afterSession (h : Sound text table) (small : letterCount text < 64)
    (requests : List Request) : Sound text (table.afterSession requests) := by
  induction requests generalizing table with
  | nil => exact h
  | cons request rest ih => exact ih (h.advances_perform small request).sound

/-- With a verdict, the rows and their order no longer change. -/
theorem rows_afterSession (h : Sound text table) (small : letterCount text < 64)
    (settled : table.verdict.isSome) (requests : List Request) :
    (table.afterSession requests).rows = table.rows := by
  induction requests generalizing table with
  | nil => rfl
  | cons request rest ih =>
      have advances := h.advances_perform small request
      obtain ⟨sameRows, sameVerdict⟩ := advances.settled settled
      have later := ih advances.sound (sameVerdict ▸ settled)
      exact later.trans sameRows

end Sound

/-- What can be relied on in every state of a table: what its rows are, what requests do to them,
and what completeness means. -/
structure Consistent (text : String) (table : Table) : Prop where
  /-- Every key is a list of as many bits as there are letters. -/
  keys : ∀ entry ∈ table.rows, entry.1.length = letterCount text ∧ ∀ bit ∈ entry.1, bit ≤ 1
  /-- No key is stored twice. -/
  unique : (table.rows.map Prod.fst).Nodup
  length_le : table.rows.length ≤ 2 ^ letterCount text
  /-- Every row is what evaluation gives for the letters of the text with the bits of its key. -/
  isRow : ∀ entry ∈ table.rows, IsRow text entry.1 entry.2
  /-- No request removes a row or changes one. -/
  kept : ∀ request key row, table.rows.lookup key = some row →
    (table.perform request).table.rows.lookup key = some row
  /-- A request that fails leaves the rows and their order unchanged. -/
  failed : ∀ request fault, (table.perform request).result = .error fault →
    (table.perform request).table.rows = table.rows
  /-- Evaluating a valuation again neither moves nor repeats its row. -/
  again : ∀ v restricted, v.restrict (Scan.ofText text).letters = .ok restricted →
    (table.rows.lookup restricted.key).isSome →
    (table.perform (.evaluate v)).table.rows = table.rows
  /-- A table is complete if every assignment of the letters of the text has a row. -/
  complete : (table.perform .isComplete).result = .ok (.flag true) ↔
    ∀ v : Valuation, v.letters = (Scan.ofText text).letters.toList →
      (table.rows.lookup v.key).isSome

/-- Every state that a session with a table can reach is consistent. -/
theorem consistent_afterSession (text : String) (small : letterCount text < 64)
    (requests : List Request) : Consistent text ((ofText text).afterSession requests) := by
  have h := (Sound.ofText text).afterSession small requests
  generalize (ofText text).afterSession requests = table at h
  refine ⟨?_, h.rows.unique, h.rows.length_le, h.rows.isRow, ?_, ?_, ?_, ?_⟩
  · intro entry member
    exact Valuation.mem_keys.1 (h.rows.isRow entry member).key_mem
  · intro request key row stored
    have advances := h.advances_perform small request
    rw [lookup_eq_some_iff h.rows.unique] at stored
    exact (lookup_eq_some_iff advances.sound.rows.unique).2 (advances.kept stored)
  · intro request fault failure
    exact (h.advances_perform small request).failed fault failure
  · intro v restricted assigned stored
    exact h.rows_evaluate_of_mem assigned (isSome_lookup_iff.1 stored)
  · rw [← h.isComplete_iff_forall small]
    show Except.ok (Reply.flag table.isComplete) = .ok (.flag true) ↔ table.isComplete = true
    rw [Except.ok.injEq, Reply.flag.injEq]

/-- A session with requests that fail, a valuation with a letter too many, and the whole table. -/
theorem consistent_implication :
    letterCount "p > q" < 64 ∧
    Consistent "p > q" ((ofText "p > q").afterSession
      [.evaluate .empty, .evaluate (Valuation.numbered ['p', 'q', 'r'] 5), .isComplete, .construct,
        .evaluate (Valuation.numbered ['p', 'q'] 1)]) :=
  ⟨by decide, consistent_afterSession "p > q" (by decide) _⟩

end Sentential.Table
