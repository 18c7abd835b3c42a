import Mathlib.Data.List.Induction
import Sentential.Proofs.History

/-!
# What requests do

A request to the table of a formula does one of five things: it stores nothing, reads the text, adds
the row of a valuation, gives the verdict that is there, or finds it. `Performs` says so with the
records that are written on the way, and what sessions do follows from it.

What a table has at the end of a session has come from some request. If a fact holds after a request
exactly if it held before or the request has succeeded in making it hold, then it holds after a
session exactly if some request of the session has succeeded in this.
-/

namespace Sentential.Table

variable {text : String} {table : Table} {t : Tree} {requests : List Request} {key : List UInt8}

/-- Whether a request asks for the verdict, be it on the way to its own answer. -/
def Request.constructs : Request → Bool
  | .construct | .isTautology | .isContradiction | .isContingency | .render => true
  | _ => false

/-! ### One request -/

/-- What a request to the table of a formula does, and what it reports. -/
inductive Performs (text : String) (t : Tree) (table : Table) : Request → Outcome Reply → Prop
  /-- Nothing is stored that the table is asked for: a request for less, or for the value under a
  valuation that lacks a letter. -/
  | idle {request : Request} {outcome : Outcome Reply} (other : request.constructs = false)
      (failed : ∀ v, request = .evaluate v → ∃ fault, outcome.result = .error fault)
      (rows : SameRows table outcome.table) (tree : outcome.table.tree = table.tree)
      (records : outcome.records = []) : Performs text t table request outcome
  | read : Performs text t table .tree
      ⟨.ok (.tree t), { table with tree := some t }, table.readingRecords t⟩
  | evaluated {v restricted : Valuation} {row : Row} {next : Table}
      (assigned : v.restrict (Scan.ofText text).letters = .ok restricted)
      (evaluates : Evaluates text t table v restricted row next) :
      Performs text t table (.evaluate v)
        ⟨.ok (.value row.value), next, table.readingRecords t ++ [.evaluated v row.value]⟩
  | settled {request : Request} {reply : Reply} (constructs : request.constructs = true)
      (settled : table.verdict.isSome) : Performs text t table request ⟨.ok reply, table, []⟩
  | constructed {request : Request} {reply : Reply} {verdict : Verdict} {next : Table}
      (constructs : request.constructs = true) (unsettled : table.verdict = none)
      (sound : Sound text next) (settled : next.verdict = some verdict)
      (tree : next.tree = if table.isComplete then table.tree else some t) :
      Performs text t table request
        ⟨.ok reply, next, completionRecords text table t ++ [.classified text verdict]⟩

/-- Whatever needs the verdict gets it, reports what finding it reports, and leaves the table that
finding it leaves. -/
theorem exists_reply_of_construct {request : Request} {verdict : Verdict} {next : Table}
    {records : List Record} (constructs : request.constructs = true)
    (found : table.construct = ⟨.ok verdict, next, records⟩) :
    ∃ reply, table.perform request = ⟨.ok reply, next, records⟩ := by
  cases request with
  | construct | isTautology | isContradiction | isContingency =>
      rw [perform, found]
      exact ⟨_, rfl⟩
  | render =>
      rw [perform, render, found, Outcome.andThen]
      simp only [Outcome.answer, Outcome.map, List.append_nil]
      exact ⟨_, rfl⟩
  | _ => cases constructs

theorem Sound.performs_of_constructs (h : Sound text table) (small : letterCount text < 64)
    (read : Tree.read text = .ok t) {request : Request} (constructs : request.constructs = true) :
    Performs text t table request (table.perform request) := by
  obtain ⟨verdict, next, records, found⟩ := h.construct_of_ok small read
  obtain ⟨reply, performs⟩ := exists_reply_of_construct constructs found.outcome
  rw [performs]
  cases unsettled : table.verdict with
  | some verdict' =>
      have there : table.verdict.isSome := by rw [unsettled]; rfl
      obtain ⟨rfl, rfl⟩ := found.settled there
      exact .settled constructs there
  | none =>
      obtain ⟨tree, rfl⟩ := found.unsettled unsettled
      exact .constructed constructs unsettled found.sound found.verdict_eq tree

theorem Sound.performs (h : Sound text table) (small : letterCount text < 64)
    (read : Tree.read text = .ok t) (request : Request) :
    Performs text t table request (table.perform request) := by
  cases request with
  | text | rows | dimensions | letters | columnCount | isComplete | get v =>
      exact .idle rfl nofun ⟨rfl, rfl⟩ rfl rfl
  | tree =>
      rw [Table.perform, h.readTree_of_ok read]
      exact .read
  | evaluate v =>
      cases assigned : v.restrict (Scan.ofText text).letters with
      | error fault =>
          rw [Table.perform, h.evaluate_of_unassigned assigned]
          exact .idle rfl (fun _ _ => ⟨fault, rfl⟩) ⟨rfl, rfl⟩ rfl rfl
      | ok restricted =>
          obtain ⟨row, next, evaluates⟩ := h.evaluate_of_ok assigned read
          rw [Table.perform, evaluates.outcome]
          exact .evaluated assigned evaluates
  | construct | isTautology | isContradiction | isContingency | render =>
      exact h.performs_of_constructs small read rfl

/-! ### Requests of a session -/

/-- A request has been put to the table of a text in the course of a session, and has succeeded. -/
def Succeeded (text : String) (requests : List Request) (request : Request) : Prop :=
  ∃ before, before ++ [request] <+: requests ∧
    (((ofText text).afterSession before).perform request).result.isOk

theorem afterSession_concat (table : Table) (requests : List Request) (last : Request) :
    table.afterSession (requests ++ [last]) =
      ((table.afterSession requests).perform last).table := by
  rw [afterSession, List.foldl_append]
  rfl

theorem not_succeeded_nil (request : Request) : ¬ Succeeded text [] request := by
  rintro ⟨before, start, -⟩
  simpa using start.length_le

theorem succeeded_concat_iff {last request : Request} :
    Succeeded text (requests ++ [last]) request ↔ Succeeded text requests request ∨
      request = last ∧ (((ofText text).afterSession requests).perform last).result.isOk := by
  simp only [Succeeded, List.prefix_concat_iff]
  constructor
  · rintro ⟨before, whole | earlier, ok⟩
    · obtain ⟨rfl, same⟩ := List.append_inj' whole rfl
      cases same
      exact .inr ⟨rfl, ok⟩
    · exact .inl ⟨before, earlier, ok⟩
  · rintro (⟨before, earlier, ok⟩ | ⟨rfl, ok⟩)
    · exact ⟨before, .inr earlier, ok⟩
    · exact ⟨requests, .inl rfl, ok⟩

/-- A fact that only requests of some sort make hold, and that goes on to hold, holds after a
session exactly if one of them has succeeded. -/
theorem afterSession_iff (small : letterCount text < 64) (holds : Table → Prop)
    {makes : Request → Prop} (start : ¬ holds (ofText text))
    (step : ∀ table request, Sound text table → (holds (table.perform request).table ↔
      holds table ∨ makes request ∧ (table.perform request).result.isOk))
    (requests : List Request) : holds ((ofText text).afterSession requests) ↔
      ∃ request, makes request ∧ Succeeded text requests request := by
  induction requests using List.reverseRecOn with
  | nil =>
      constructor
      · exact fun now => absurd now start
      · rintro ⟨request, -, succeeded⟩
        exact absurd succeeded (not_succeeded_nil request)
  | append_singleton requests last ih =>
      have sound := (Sound.ofText text).afterSession small requests
      rw [afterSession_concat, step _ last sound, ih]
      simp only [succeeded_concat_iff]
      constructor
      · rintro (⟨request, made, earlier⟩ | ⟨made, ok⟩)
        · exact ⟨request, made, .inl earlier⟩
        · exact ⟨last, made, .inr ⟨rfl, ok⟩⟩
      · rintro ⟨request, made, earlier | ⟨rfl, ok⟩⟩
        · exact .inl ⟨request, made, earlier⟩
        · exact .inr ⟨made, ok⟩

/-! ### Verdicts and rows -/

/-- A table has a verdict if it has been asked for it. -/
theorem isSome_verdict_iff (small : letterCount text < 64) (read : Tree.read text = .ok t)
    (requests : List Request) : ((ofText text).afterSession requests).verdict.isSome ↔
      ∃ request, request.constructs = true ∧ Succeeded text requests request := by
  refine afterSession_iff small (fun table => table.verdict.isSome) nofun ?_ requests
  intro table request h
  have performs := h.performs small read request
  generalize table.perform request = outcome at performs
  cases performs with
  | idle other failed rows tree records => simp [rows.2, other]
  | read => simp [Request.constructs]
  | evaluated assigned evaluates => simp [evaluates.verdict, Request.constructs]
  | settled constructs settled => simp [settled]
  | constructed constructs unsettled sound settled tree =>
      simp [settled, constructs, Except.isOk, Except.toBool]

/-- Whether a request can be the origin of the row with some key. -/
def Request.Supplies (text : String) (key : List UInt8) (request : Request) : Prop :=
  request.constructs = true ∨ ∃ v restricted, request = .evaluate v ∧
    v.restrict (Scan.ofText text).letters = .ok restricted ∧ restricted.key = key

theorem mem_keys_storeRow_iff {stored : List UInt8} {row : Row} {rows : List (List UInt8 × Row)} :
    key ∈ (storeRow stored row rows).map Prod.fst ↔ key = stored ∨ key ∈ rows.map Prod.fst := by
  rw [← isSome_lookup_iff, lookup_storeRow, ← isSome_lookup_iff]
  split
  · next same => simp [same]
  · next other => simp [other]

/-- A table has a row if it has been asked for it or for the verdict. -/
theorem mem_keys_afterSession_iff (small : letterCount text < 64) (read : Tree.read text = .ok t)
    (member : key ∈ Valuation.keys (letterCount text)) (requests : List Request) :
    key ∈ ((ofText text).afterSession requests).rows.map Prod.fst ↔
      ∃ request : Request, request.Supplies text key ∧ Succeeded text requests request := by
  refine afterSession_iff small (fun table => key ∈ table.rows.map Prod.fst) nofun ?_ requests
  intro table request h
  have performs := h.performs small read request
  generalize table.perform request = outcome at performs
  cases performs with
  | idle other failed rows tree records =>
      rw [rows.1]
      refine ⟨.inl, fun now => now.elim id ?_⟩
      rintro ⟨constructs | ⟨v, restricted, evaluation, -⟩, ok⟩
      · rw [other] at constructs
        cases constructs
      · obtain ⟨fault, failure⟩ := failed v evaluation
        rw [failure] at ok
        cases ok
  | read => simp [Request.Supplies, Request.constructs]
  | @evaluated v restricted row next assigned evaluates =>
      rw [evaluates.rows, mem_keys_storeRow_iff, or_comm]
      refine or_congr_right ⟨?_, ?_⟩
      · rintro rfl
        exact ⟨.inr ⟨v, restricted, rfl, assigned, rfl⟩, rfl⟩
      · rintro ⟨constructs | ⟨w, restricted', same, assigned', rfl⟩, -⟩
        · cases constructs
        · cases same
          rw [assigned, Except.ok.injEq] at assigned'
          rw [assigned']
  | settled constructs settled => simp [h.mem_keys_of_verdict settled member]
  | constructed constructs unsettled sound settled tree =>
      have there := sound.mem_keys_of_verdict (by rw [settled]; rfl) member
      exact ⟨fun _ => .inr ⟨.inl constructs, rfl⟩, fun _ => there⟩

end Sentential.Table
