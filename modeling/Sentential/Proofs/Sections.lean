import Sentential.Command.Report
import Sentential.Proofs.Answers

/-!
# The sections of a run

The parts of a run hand one table on. A part is `Steady` if it goes on alike from every sound table
of the formula, and leaves a sound one. All parts of a run are, so a run is the same as its sections
would be from fresh tables: no section shows in a later one.
-/

namespace Sentential

namespace Table.Outcome

variable {α β : Type}

@[simp] theorem result_andThen_answer (first : Outcome α) (answer : α → Except Fault β) :
    (first.andThen fun a next => .answer next (answer a)).result = first.result.bind answer := by
  rw [andThen]
  cases first.result <;> rfl

@[simp] theorem table_andThen_answer (first : Outcome α) (answer : α → Except Fault β) :
    (first.andThen fun a next => .answer next (answer a)).table = first.table := by
  rw [andThen]
  cases first.result <;> rfl

end Table.Outcome

theorem Table.Sound.exists_verdict {text : String} {table : Table} {t : Tree}
    (h : Sound text table) (small : letterCount text < 64) (read : Tree.read text = .ok t) :
    ∃ verdict, table.construct.result = .ok verdict := by
  obtain ⟨verdict, next, records, constructs, -⟩ := h.construct_of_ok small read
  exact ⟨verdict, congrArg Outcome.result constructs⟩

namespace Command

open Table (Sound letterCount)

variable {text : String} {table other : Table} {part : Part} {parts : List Part}

/-! ### Steady parts -/

/-- Where a rule is applied it fits. -/
theorem NormalForm.apply_eq (form : NormalForm) (t : Tree) :
    form.apply t =
      .ok (if form.toFixedPoint then t.normalize form.eliminate else t.pass form.eliminate) := by
  rw [apply]
  split
  · rw [t.checkedRewritings_eq]
    rfl
  · rw [t.checkedPass_eq]
    rfl

theorem result_rewritingPart (form : NormalForm) (table : Table) :
    (rewritingPart form table).result =
      table.readTree.result.bind fun tree => (form.apply tree).map (rewritingText tree) :=
  Table.Outcome.result_andThen_answer _ _

/-- A part goes on alike from every sound table of a text, and leaves a sound table. -/
structure Steady (text : String) (part : Part) : Prop where
  sound : ∀ table, Sound text table → Sound text (part table).table
  result : ∀ table other, Sound text table → Sound text other →
    (part table).result = (part other).result

namespace Steady

theorem readPart (text : String) : Steady text readPart where
  sound _ h := h.advances_readTree.sound
  result _ _ h h' := by
    refine congrArg (Except.map _) ?_
    rw [h.result_readTree, h'.result_readTree]

theorem valuePart (text : String) (v : Valuation) : Steady text (valuePart v) where
  sound _ h := (h.advances_evaluate v).sound
  result _ _ h h' := by
    refine congrArg (Except.map _) ?_
    rw [h.result_evaluate, h'.result_evaluate]

theorem tablePart (small : letterCount text < 64) : Steady text tablePart where
  sound _ h := (h.advances_render small).sound
  result _ _ h h' := congrArg (Except.map _) (h.result_render_eq h' small)

theorem verdictPart (small : letterCount text < 64) : Steady text verdictPart where
  sound _ h := (h.advances_construct small).sound
  result _ _ h h' := congrArg (Except.map _) (h.construct_eq h' small).1

theorem rewritingPart (text : String) (form : NormalForm) : Steady text (rewritingPart form) where
  sound table h := by
    rw [Command.rewritingPart, Table.Outcome.table_andThen_answer]
    exact h.advances_readTree.sound
  result table other h h' := by
    rw [result_rewritingPart, result_rewritingPart, h.result_readTree, h'.result_readTree]

end Steady

/-! ### Parts in a row -/

/-- One report after the other, if the first one is no failure. -/
def Report.followedBy (first second : Report) : Report :=
  if first.failure.isSome then first else ⟨first.printed ++ second.printed, second.failure⟩

namespace Report

variable {first second : Report}

theorem followedBy_of_failure {fault : Fault} (h : first.failure = some fault) :
    first.followedBy second = first := by
  rw [followedBy, h]
  rfl

theorem followedBy_of_success (h : first.failure = none) :
    first.followedBy second = ⟨first.printed ++ second.printed, second.failure⟩ := by
  rw [followedBy, h]
  rfl

/-- Reports in a row are no failure if none of them is. -/
theorem failure_followedBy_eq_none_iff :
    (first.followedBy second).failure = none ↔ first.failure = none ∧ second.failure = none := by
  cases h : first.failure with
  | none => simp [followedBy_of_success h]
  | some fault => simp [followedBy_of_failure h, h]

end Report

/-- Steady parts print the same from every sound table. -/
theorem runParts_eq (steady : ∀ part ∈ parts, Steady text part) (h : Sound text table)
    (h' : Sound text other) : runParts table parts = runParts other parts := by
  induction parts generalizing table other with
  | nil => rfl
  | cons part rest ih =>
      obtain ⟨first, later⟩ := List.forall_mem_cons.1 steady
      rw [runParts, runParts, first.result table other h h',
        ih later (first.sound table h) (first.sound other h')]

/-- What comes after steady parts is as from a fresh table. -/
theorem runParts_append {parts' : List Part} (steady : ∀ part ∈ parts, Steady text part)
    (steady' : ∀ part ∈ parts', Steady text part) (h : Sound text table) :
    runParts table (parts ++ parts') =
      (runParts table parts).followedBy (runParts (.ofText text) parts') := by
  induction parts generalizing table with
  | nil =>
      have fresh : runParts table parts' = runParts (.ofText text) parts' :=
        runParts_eq steady' h (.ofText text)
      rw [List.nil_append, fresh, runParts, Report.followedBy_of_success rfl,
        String.empty_append]
  | cons part rest ih =>
      obtain ⟨first, later⟩ := List.forall_mem_cons.1 steady
      -- the part leaves a sound table, from which the rest goes on as from a fresh one
      have rest_eq := ih later (first.sound table h)
      rw [List.cons_append, runParts, runParts]
      cases (part table).result with
      | error fault => rfl
      | ok printed =>
          simp only [rest_eq, Report.followedBy]
          split
          · rfl
          · simp only [String.append_assoc]

/-- Parts that all have something to print make a report without failure. -/
theorem failure_runParts (steady : ∀ part ∈ parts, Steady text part)
    (succeeds : ∀ part ∈ parts, ∀ table, Sound text table → (part table).result.isOk)
    (h : Sound text table) : (runParts table parts).failure = none := by
  induction parts generalizing table with
  | nil => rfl
  | cons part rest ih =>
      obtain ⟨first, later⟩ := List.forall_mem_cons.1 steady
      obtain ⟨now, soon⟩ := List.forall_mem_cons.1 succeeds
      rw [runParts]
      cases result : (part table).result with
      | error fault =>
          have printed := now table h
          rw [result] at printed
          cases printed
      | ok printed => exact ih later soon (first.sound table h)

/-! ### The sections -/

namespace Configuration

variable {configuration : Configuration}

/-- The configuration that asks for the value only. -/
def onlyValue (configuration : Configuration) : Configuration :=
  { configuration with truthTable := false, normalForm := none }

/-- The configuration that asks for the truth table only. -/
def onlyTable (configuration : Configuration) : Configuration :=
  { configuration with valuation := none, normalForm := none }

/-- The configuration that asks for the rewritten formula only. -/
def onlyRewriting (configuration : Configuration) : Configuration :=
  { configuration with valuation := none, truthTable := false }

/-- The part for the value, if it is asked for. -/
def valueParts (configuration : Configuration) : List Part :=
  (configuration.valuation.map valuePart).toList

/-- The parts for the truth table, if it is asked for. -/
def tableParts (configuration : Configuration) : List Part :=
  if configuration.truthTable then [tablePart, verdictPart] else []

/-- The part for the rewritten formula, if it is asked for. -/
def rewritingParts (configuration : Configuration) : List Part :=
  (configuration.normalForm.map rewritingPart).toList

theorem parts_eq (configuration : Configuration) :
    configuration.parts = readPart ::
      (configuration.valueParts ++ (configuration.tableParts ++ configuration.rewritingParts)) := by
  rw [← List.append_assoc]
  rfl

theorem steady_valueParts : ∀ part ∈ configuration.valueParts, Steady text part := by
  intro part member
  obtain ⟨v, -, rfl⟩ := Option.map_eq_some_iff.1 (Option.mem_toList.1 member)
  exact .valuePart text v

theorem steady_tableParts (small : letterCount text < 64) :
    ∀ part ∈ configuration.tableParts, Steady text part := by
  rw [tableParts]
  split
  · simp [Steady.tablePart small, Steady.verdictPart small]
  · nofun

theorem steady_rewritingParts : ∀ part ∈ configuration.rewritingParts, Steady text part := by
  intro part member
  obtain ⟨form, -, rfl⟩ := Option.map_eq_some_iff.1 (Option.mem_toList.1 member)
  exact .rewritingPart text form

/-! ### Runs section by section -/

theorem runParts_readPart_of_error {fault : Fault} (unread : Tree.read text = .error fault) :
    runParts (.ofText text) (readPart :: parts) = ⟨"", some fault⟩ := by
  rw [runParts, readPart, (Sound.ofText text).readTree_of_error unread]
  rfl

theorem runParts_readPart_of_ok {t : Tree} (read : Tree.read text = .ok t)
    (steady : ∀ part ∈ parts, Steady text part) :
    runParts (.ofText text) (readPart :: parts) = runParts (.ofText text) parts := by
  have kept := (Steady.readPart text).sound _ (.ofText text)
  have rest := runParts_eq steady kept (.ofText text)
  have printed : (readPart (.ofText text)).result = .ok "" := by
    rw [readPart, Table.Outcome.map, (Sound.ofText text).result_readTree, read]
    rfl
  rw [runParts, printed, rest]
  simp only [String.empty_append]

theorem run_of_unreadable {fault : Fault} (unread : Tree.read configuration.text = .error fault) :
    configuration.run = ⟨"", some fault⟩ := by
  rw [run, parts_eq, runParts_readPart_of_error unread]

section Readable

variable {t : Tree} (read : Tree.read configuration.text = .ok t)
include read

theorem run_onlyValue :
    configuration.onlyValue.run =
      runParts (.ofText configuration.text) configuration.valueParts := by
  have parts : configuration.onlyValue.parts = readPart :: configuration.valueParts :=
    (parts_eq _).trans (congrArg _ (List.append_nil _))
  rw [run, parts]
  exact runParts_readPart_of_ok read steady_valueParts

theorem run_onlyTable (small : letterCount configuration.text < 64) :
    configuration.onlyTable.run =
      runParts (.ofText configuration.text) configuration.tableParts := by
  have parts : configuration.onlyTable.parts = readPart :: configuration.tableParts :=
    (parts_eq _).trans (congrArg _ (List.append_nil _))
  rw [run, parts]
  exact runParts_readPart_of_ok read (steady_tableParts small)

theorem run_onlyRewriting :
    configuration.onlyRewriting.run =
      runParts (.ofText configuration.text) configuration.rewritingParts := by
  have parts : configuration.onlyRewriting.parts = readPart :: configuration.rewritingParts :=
    parts_eq _
  rw [run, parts]
  exact runParts_readPart_of_ok read steady_rewritingParts

end Readable

/-- A run is the runs of its sections in a row, each from a fresh table. -/
theorem run_eq_followedBy (small : letterCount configuration.text < 64) :
    configuration.run = configuration.onlyValue.run.followedBy
      (configuration.onlyTable.run.followedBy configuration.onlyRewriting.run) := by
  cases read : Tree.read configuration.text with
  | error fault =>
      have fails : configuration.onlyValue.run = ⟨"", some fault⟩ := run_of_unreadable read
      rw [run_of_unreadable read, fails]
      rfl
  | ok t =>
      have sound := Sound.ofText configuration.text
      have tables : ∀ part ∈ configuration.tableParts, Steady configuration.text part :=
        steady_tableParts small
      have steady : ∀ part ∈ configuration.tableParts ++ configuration.rewritingParts,
          Steady configuration.text part :=
        List.forall_mem_append.2 ⟨tables, steady_rewritingParts⟩
      have all : ∀ part ∈ configuration.valueParts ++
          (configuration.tableParts ++ configuration.rewritingParts),
          Steady configuration.text part :=
        List.forall_mem_append.2 ⟨steady_valueParts, steady⟩
      rw [run_onlyValue read, run_onlyTable read small, run_onlyRewriting read,
        ← runParts_append tables steady_rewritingParts sound,
        ← runParts_append steady_valueParts steady sound, run, parts_eq,
        runParts_readPart_of_ok read all]

/-! ### Which sections can fail -/

section Readable

variable {t : Tree} (read : Tree.read configuration.text = .ok t)
include read

/-- The truth table of a formula and its verdict are always there to be printed. -/
theorem failure_onlyTable (small : letterCount configuration.text < 64) :
    configuration.onlyTable.run.failure = none := by
  rw [run_onlyTable read small]
  refine failure_runParts (steady_tableParts small) ?_ (.ofText _)
  rw [tableParts]
  split
  · intro part member table h
    obtain ⟨verdict, result⟩ := h.exists_verdict small read
    rcases List.mem_pair.1 member with rfl | rfl
    · rw [tablePart, Table.Outcome.map, Table.result_render, result]
      rfl
    · rw [verdictPart, Table.Outcome.map, result]
      rfl
  · intro part member
    exact absurd member List.not_mem_nil

/-- Rewriting never fails. -/
theorem failure_onlyRewriting : configuration.onlyRewriting.run.failure = none := by
  rw [run_onlyRewriting read]
  refine failure_runParts steady_rewritingParts ?_ (.ofText _)
  intro part member table h
  obtain ⟨form, -, rfl⟩ := Option.map_eq_some_iff.1 (Option.mem_toList.1 member)
  rw [result_rewritingPart, h.result_readTree, read]
  show ((form.apply t).map (rewritingText t)).isOk
  rw [form.apply_eq t]
  rfl

/-- The value is there to be printed if all letters are assigned. -/
theorem failure_onlyValue
    (assigned : ∀ v, configuration.valuation = some v →
      ∃ restricted, v.restrict (Scan.ofText configuration.text).letters = .ok restricted) :
    configuration.onlyValue.run.failure = none := by
  rw [run_onlyValue read]
  refine failure_runParts steady_valueParts ?_ (.ofText _)
  intro part member table h
  obtain ⟨v, valuation, rfl⟩ := Option.map_eq_some_iff.1 (Option.mem_toList.1 member)
  obtain ⟨restricted, restricts⟩ := assigned v valuation
  obtain ⟨row, next, evaluates⟩ := h.evaluate_of_ok restricts read
  rw [valuePart, Table.Outcome.map, evaluates.outcome]
  rfl

theorem run_onlyValue_of_unassigned {v : Valuation} {fault : Fault}
    (valuation : configuration.valuation = some v)
    (unassigned : v.restrict (Scan.ofText configuration.text).letters = .error fault) :
    configuration.onlyValue.run = ⟨"", some fault⟩ := by
  rw [run_onlyValue read, valueParts, valuation]
  show runParts _ [valuePart v] = _
  rw [runParts, valuePart, (Sound.ofText _).evaluate_of_unassigned unassigned]
  rfl

theorem failure_run (small : letterCount configuration.text < 64)
    (assigned : ∀ v, configuration.valuation = some v →
      ∃ restricted, v.restrict (Scan.ofText configuration.text).letters = .ok restricted) :
    configuration.run.failure = none := by
  rw [run_eq_followedBy small, Report.failure_followedBy_eq_none_iff,
    Report.failure_followedBy_eq_none_iff]
  exact ⟨failure_onlyValue read assigned, failure_onlyTable read small,
    failure_onlyRewriting read⟩

end Readable

/-- A run without failure prints its sections one after the other, each as if it were alone. A
section that is not asked for prints nothing. -/
theorem printed_run (configuration : Configuration) (small : letterCount configuration.text < 64)
    (succeeds : configuration.run.failure = none) :
    configuration.run.printed = configuration.onlyValue.run.printed ++
      configuration.onlyTable.run.printed ++ configuration.onlyRewriting.run.printed ∧
    (configuration.onlyValue.run.failure = none ∧ configuration.onlyTable.run.failure = none ∧
      configuration.onlyRewriting.run.failure = none) ∧
    (configuration.valuation = none → configuration.onlyValue.run.printed = "") ∧
    (configuration.truthTable = false → configuration.onlyTable.run.printed = "") ∧
    (configuration.normalForm = none → configuration.onlyRewriting.run.printed = "") := by
  cases read : Tree.read configuration.text with
  | error fault =>
      rw [run_of_unreadable read] at succeeds
      cases succeeds
  | ok t =>
      rw [run_eq_followedBy small] at succeeds ⊢
      obtain ⟨value, others⟩ := Report.failure_followedBy_eq_none_iff.1 succeeds
      obtain ⟨table, rewriting⟩ := Report.failure_followedBy_eq_none_iff.1 others
      refine ⟨?_, ⟨value, table, rewriting⟩, ?_, ?_, ?_⟩
      · rw [Report.followedBy_of_success value, Report.followedBy_of_success table,
          String.append_assoc]
      · intro unasked
        rw [run_onlyValue read, valueParts, unasked]
        rfl
      · intro unasked
        rw [run_onlyTable read small, tableParts, unasked]
        rfl
      · intro unasked
        rw [run_onlyRewriting read, rewritingParts, unasked]
        rfl

/-- All three sections, the first of which stores a row that is not the first one of the table. -/
theorem printed_run_implication :
    let configuration : Configuration :=
      ⟨"p > q", some (Valuation.numbered ['p', 'q'] 1), true, some ⟨true, true⟩⟩
    letterCount configuration.text < 64 ∧ configuration.run.failure = none ∧
    configuration.run.printed = "F(p=0, q=1) = 1\n" ++
      configuration.onlyTable.run.printed ++ configuration.onlyRewriting.run.printed := by
  intro configuration
  have small : letterCount configuration.text < 64 := by decide
  have read : Tree.read configuration.text = .ok (.formula (.composite
      (.proposition none ⟨.letter 'p', 0⟩) ⟨.connective .implication, 2⟩
      (.proposition none ⟨.letter 'q', 4⟩))) := by decide
  have succeeds : configuration.run.failure = none := by
    refine failure_run read small fun v given => ?_
    cases given
    exact ⟨_, Valuation.restrict_eq_self (by decide)⟩
  have value : configuration.onlyValue.run.printed = "F(p=0, q=1) = 1\n" := by decide
  refine ⟨small, succeeds, ?_⟩
  rw [(printed_run configuration small succeeds).1, value]

end Configuration

end Command

end Sentential
