import Sentential.Proofs.Requests

/-!
# A table works lazily and once

What a table has found out it does not find out again. The records of a session show this: besides
evaluations nothing is reported twice. Before each request the table owes at most so many records of
a kind as it has fields of this kind to fill, and a request pays for what it reports.

The verdict is found when it is first asked for, after the missing rows if there are any, and asking
for it again reports nothing.
-/

namespace Sentential

namespace Record

/-- The kinds of steps that are reported. -/
inductive Kind
  | read
  | evaluated
  | constructing
  | classified
  | passed
  | settled
  deriving DecidableEq, Repr

/-- The kind of step that a record reports. -/
def kind : Record → Kind
  | .read _ _ => .read
  | .evaluated _ _ => .evaluated
  | .constructing _ _ => .constructing
  | .classified _ _ => .classified
  | .passed _ _ => .passed
  | .settled _ _ => .settled

/-- How many of some records are of a kind. -/
def countKind (kind : Kind) (records : List Record) : Nat :=
  records.countP fun record => record.kind = kind

@[simp] theorem countKind_nil (kind : Kind) : countKind kind [] = 0 := rfl

@[simp] theorem countKind_cons (kind : Kind) (record : Record) (records : List Record) :
    countKind kind (record :: records) =
      countKind kind records + if record.kind = kind then 1 else 0 := by
  simp [countKind, List.countP_cons]

@[simp] theorem countKind_append (kind : Kind) (first second : List Record) :
    countKind kind (first ++ second) = countKind kind first + countKind kind second :=
  List.countP_append

end Record

namespace Table

open Record (Kind countKind)

variable {text : String} {table : Table} {t : Tree} {kind : Kind}

/-- The records that a session with the table of a text writes. -/
def sessionRecords (text : String) (requests : List Request) : List Record :=
  ((ofText text).session requests).flatMap Outcome.records

/-! ### What a table still owes -/

/-- How many records of a kind other than evaluations a table can still write: one of reading its
text unless it has a tree, and one each of filling it and of its verdict unless it has one. -/
def owed (kind : Kind) (table : Table) : Nat :=
  match kind with
  | .read => if table.tree.isSome then 0 else 1
  | .constructing | .classified => if table.verdict.isSome then 0 else 1
  | .evaluated | .passed | .settled => 0

theorem owed_le_one (kind : Kind) (table : Table) : owed kind table ≤ 1 := by
  cases kind with
  | read | constructing | classified =>
      rw [owed]
      split <;> decide
  | evaluated | passed | settled => exact Nat.zero_le _

theorem countKind_readingRecords (kind : Kind) (table : Table) (t : Tree) :
    countKind kind (table.readingRecords t) = if kind = .read then owed .read table else 0 := by
  rw [readingRecords, owed]
  cases table.tree.isSome <;> cases kind <;> rfl

theorem countKind_countingRecords (other : kind ≠ .evaluated) (t : Tree) (letters : List Char)
    (count index : Nat) : countKind kind (countingRecords t letters count index) = 0 := by
  rw [countKind, List.countP_eq_zero, countingRecords]
  intro record member
  obtain ⟨i, -, rfl⟩ := List.mem_map.1 member
  simp [Record.kind, other.symm]

/-- A request pays for what it reports with what the table owes. -/
theorem Performs.countKind_records_le {request : Request} {outcome : Outcome Reply}
    (h : Performs text t table request outcome) (other : kind ≠ .evaluated) :
    countKind kind outcome.records + owed kind outcome.table ≤ owed kind table := by
  cases h with
  | idle _ _ rows tree records =>
      rw [records]
      cases kind <;> simp [owed, rows.2, tree]
  | read =>
      rw [countKind_readingRecords]
      cases kind <;> simp [owed]
  | evaluated _ evaluates =>
      rw [Record.countKind_append, countKind_readingRecords]
      cases kind <;> simp [owed, evaluates.verdict, evaluates.tree, Record.kind] at other ⊢
  | settled => simp
  | constructed _ unsettled _ settled tree =>
      rw [Record.countKind_append, completionRecords]
      cases complete : table.isComplete with
      | true =>
          rw [complete] at tree
          cases kind <;> simp [owed, unsettled, settled, tree, Record.kind]
      | false =>
          rw [complete] at tree
          cases kind <;> simp [owed, unsettled, settled, tree, Record.kind,
            countKind_readingRecords, countKind_countingRecords] at other ⊢

/-- A session reports no more than the table owes. -/
theorem Sound.countKind_session_le (h : Sound text table) (small : letterCount text < 64)
    (read : Tree.read text = .ok t) (other : kind ≠ .evaluated) (requests : List Request) :
    countKind kind ((table.session requests).flatMap Outcome.records) ≤ owed kind table := by
  induction requests generalizing table with
  | nil => exact Nat.zero_le _
  | cons request rest ih =>
      have paid := (h.performs small read request).countKind_records_le other
      have later := ih (h.advances_perform small request).sound
      rw [session, List.flatMap_cons, Record.countKind_append]
      omega

/-! ### Single requests -/

/-- An evaluation that succeeds is reported, and nothing but having read the text before it. -/
theorem Performs.records_of_evaluate {v : Valuation} {outcome : Outcome Reply}
    (h : Performs text t table (.evaluate v) outcome) (ok : outcome.result.isOk) :
    ∃ x, outcome.result = .ok (.value x) ∧
      outcome.records = table.readingRecords t ++ [.evaluated v x] := by
  cases h with
  | idle _ failed =>
      obtain ⟨fault, failure⟩ := failed v rfl
      rw [failure] at ok
      cases ok
  | evaluated => exact ⟨_, rfl, rfl⟩
  | settled constructs | constructed constructs => cases constructs

/-- Finding the verdict for the first time is reported with it. -/
theorem Performs.records_of_unsettled {request : Request} {outcome : Outcome Reply}
    (h : Performs text t table request outcome) (constructs : request.constructs = true)
    (unsettled : table.verdict = none) :
    outcome.result.isOk ∧ ∃ verdict, outcome.table.verdict = some verdict ∧
      outcome.records = completionRecords text table t ++ [.classified text verdict] := by
  cases h with
  | idle other =>
      rw [constructs] at other
      cases other
  | read | evaluated => cases constructs
  | settled _ settled =>
      rw [unsettled] at settled
      cases settled
  | constructed _ _ _ settled => exact ⟨rfl, _, settled, rfl⟩

theorem Performs.records_of_settled {request : Request} {outcome : Outcome Reply}
    (h : Performs text t table request outcome) (constructs : request.constructs = true)
    (settled : table.verdict.isSome) : outcome.records = [] := by
  cases h with
  | idle other =>
      rw [constructs] at other
      cases other
  | read | evaluated => cases constructs
  | settled => rfl
  | constructed _ unsettled =>
      rw [unsettled] at settled
      cases settled

/-! ### Sessions -/

/-- What the records show of the work that the table of a formula does in a session and at the
request after it. -/
structure Lazy (text : String) (t : Tree) (requests : List Request) (table : Table) : Prop where
  /-- Texts are read, tables filled and verdicts found at most once. -/
  once : ∀ kind : Kind, kind ≠ .evaluated → countKind kind (sessionRecords text requests) ≤ 1
  evaluate : ∀ v, (table.perform (.evaluate v)).result.isOk → ∃ x,
    (table.perform (.evaluate v)).result = .ok (.value x) ∧
      (table.perform (.evaluate v)).records = table.readingRecords t ++ [.evaluated v x]
  /-- The first request that needs the verdict evaluates all numbered valuations in order, unless
  all rows are there. -/
  first : (∀ earlier : Request, earlier.constructs = true → ¬ Succeeded text requests earlier) →
    ∀ request : Request, request.constructs = true →
      (table.perform request).result.isOk ∧ ∃ verdict,
        (table.perform request).table.verdict = some verdict ∧
        (table.perform request).records =
          completionRecords text table t ++ [.classified text verdict]
  later : (∃ earlier : Request, earlier.constructs = true ∧ Succeeded text requests earlier) →
    ∀ request : Request, request.constructs = true → (table.perform request).records = []

/-- The table of a formula does nothing before it has to and nothing twice, in whatever order the
requests come. -/
theorem lazy_afterSession (small : letterCount text < 64) (read : Tree.read text = .ok t)
    (requests : List Request) : Lazy text t requests ((ofText text).afterSession requests) := by
  have h := (Sound.ofText text).afterSession small requests
  have settled_iff := isSome_verdict_iff small read requests
  refine ⟨?_, ?_, ?_, ?_⟩
  · intro kind other
    have owed := (Sound.ofText text).countKind_session_le small read other requests
    exact Nat.le_trans owed (owed_le_one kind _)
  · intro v ok
    exact (h.performs small read _).records_of_evaluate ok
  · intro new request constructs
    refine (h.performs small read request).records_of_unsettled constructs ?_
    rw [← Option.not_isSome_iff_eq_none, settled_iff]
    rintro ⟨earlier, constructs, succeeded⟩
    exact new earlier constructs succeeded
  · intro earlier request constructs
    exact (h.performs small read request).records_of_settled constructs (settled_iff.2 earlier)

/-- Before the verdict is asked for, one of the two rows is there and the text has been read, so
both rows are evaluated and the text is not read again; after that nothing is left to do. -/
theorem lazy_afterSession_negation :
    ∃ t verdict, letterCount "~p" < 64 ∧ Tree.read "~p" = .ok t ∧
      Lazy "~p" t [.evaluate (Valuation.numbered ['p'] 1)]
        ((ofText "~p").afterSession [.evaluate (Valuation.numbered ['p'] 1)]) ∧
      (((ofText "~p").afterSession [.evaluate (Valuation.numbered ['p'] 1)]).perform
        .isTautology).records =
        [.constructing 2 "~p", .evaluated (Valuation.numbered ['p'] 0) 1,
          .evaluated (Valuation.numbered ['p'] 1) 0, .classified "~p" verdict] := by
  obtain ⟨t, read⟩ : ∃ t, Tree.read "~p" = .ok t := ⟨_, rfl⟩
  have small : letterCount "~p" < 64 := by decide
  have works := lazy_afterSession small read [.evaluate (Valuation.numbered ['p'] 1)]
  have new : ∀ earlier : Request, earlier.constructs = true →
      ¬ Succeeded "~p" [.evaluate (Valuation.numbered ['p'] 1)] earlier := by
    intro earlier constructs succeeded
    rw [← List.nil_append [Request.evaluate _], succeeded_concat_iff] at succeeded
    obtain before | ⟨rfl, -⟩ := succeeded
    · exact not_succeeded_nil earlier before
    · cases constructs
  obtain ⟨-, verdict, -, records⟩ := works.first new .isTautology rfl
  refine ⟨t, verdict, small, read, works, records.trans ?_⟩
  cases read
  rfl

end Table

end Sentential
