import Sentential.Proofs.History
import Sentential.Proofs.Meaning

/-!
# Answers do not show the history of a table

What a table answers follows from its text, unless it is asked which rows it has. A sound table
reads its text as it is, evaluates a valuation as its tree does, and comes to have the row of every
numbered valuation, in the order of their numbers, however it got its first rows. So two sessions
with tables of one text cannot be told apart by their verdicts and values, nor by the text of the
table.
-/

namespace Sentential

/-- Whether a request asks which rows are there. -/
def Table.Request.concernsRows : Table.Request → Bool
  | .isComplete | .get _ | .rows => true
  | _ => false

namespace Table

variable {text : String} {table other : Table} {t : Tree}

/-! ### The rows of a full table -/

namespace RowsOf

variable {rows rows' : List (List UInt8 × Row)}

/-- A text has one list of rows with given keys. -/
theorem eq_of_keys_eq (h : RowsOf text rows) (h' : RowsOf text rows')
    (keys : rows.map Prod.fst = rows'.map Prod.fst) : rows = rows' := by
  have length_eq : rows.length = rows'.length := by
    simpa using congrArg List.length keys
  refine List.ext_getElem length_eq fun i inside inside' => ?_
  have key_eq : rows[i].1 = rows'[i].1 := by
    have same := List.getElem_of_eq keys (by rwa [List.length_map])
    rwa [List.getElem_map, List.getElem_map] at same
  have isRow := h.isRow _ (List.getElem_mem inside)
  have isRow' := h'.isRow _ (List.getElem_mem inside')
  exact Prod.ext key_eq (isRow.unique (key_eq ▸ isRow'))

end RowsOf

/-- The rows that evaluations of the numbered valuations make. -/
def numberedRows (text : String) (evaluations : Nat → Evaluation) : List (List UInt8 × Row) :=
  (List.range (2 ^ letterCount text)).map fun i =>
    (Valuation.digits i (letterCount text), ⟨(evaluations i).value, (evaluations i).entries⟩)

/-- The evaluation of the valuation with a number, for the letters of a text. -/
def evaluateNumbered (text : String) (t : Tree) (i : Nat) : Except Fault Evaluation :=
  t.evaluate (Valuation.numbered (Scan.ofText text).letters.toList i) text.length

theorem exists_evaluateNumbered (read : Tree.read text = .ok t) (i : Nat) :
    ∃ evaluation, evaluateNumbered text t i = .ok evaluation := by
  refine Tree.exists_evaluation_of_read read (fun c member => ?_) _
  rw [Valuation.isSome_get?_iff, Valuation.letters_numbered]
  exact member

theorem keys_numberedRows (text : String) (evaluations : Nat → Evaluation) :
    (numberedRows text evaluations).map Prod.fst = Valuation.keys (letterCount text) := by
  rw [numberedRows, List.map_map]
  rfl

theorem rowsOf_numberedRows {evaluations : Nat → Evaluation} (read : Tree.read text = .ok t)
    (evaluates : ∀ i, evaluateNumbered text t i = .ok (evaluations i)) :
    RowsOf text (numberedRows text evaluations) where
  unique := by
    rw [keys_numberedRows]
    exact Valuation.nodup_keys _
  isRow entry member := by
    obtain ⟨i, -, rfl⟩ := List.mem_map.1 member
    exact ⟨_, t, evaluations i, Valuation.letters_numbered _ i, Valuation.key_numbered _ i, read,
      evaluates i, rfl⟩

theorem length_rowText {v : Valuation} {width : Nat} {evaluation : Evaluation}
    (h : t.evaluate v width = .ok evaluation) :
    (Evaluation.rowText evaluation.entries).length = width := by
  rw [Tree.evaluate] at h
  split at h
  · cases h
  · cases h
    rw [Evaluation.rowText, String.length_ofList, List.length_map, Evaluation.length_layOut]

/-! ### The text of a table -/

/-- A table written out: the text and under it the rows. -/
def written (table : Table) : String :=
  "\n".intercalate (table.text :: table.rows.map fun entry => entry.2.text)

theorem intercalate_lines (first : String) (rest : List String) :
    "\n".intercalate (first :: rest) =
      first ++ String.join (rest.map fun line => "\n" ++ line) := by
  induction rest generalizing first with
  | nil => simp
  | cons line rest ih =>
      rw [String.intercalate_cons_cons, ih, List.map_cons, String.join_cons]
      simp only [String.append_assoc]

theorem result_render (table : Table) :
    table.render.result = table.construct.result.map fun _ => table.construct.table.written := by
  rw [render, Outcome.andThen]
  cases table.construct.result <;> rfl

namespace Grounded

theorem result_readTree (h : Grounded text table) : table.readTree.result = Tree.read text := by
  cases read : Tree.read text with
  | error fault =>
      rw [h.readTree_of_error read]
      rfl
  | ok t =>
      rw [h.readTree_of_ok read]

/-- Evaluation asks for the letters of the text first, for its tree next, and for the value of the
tree last. -/
theorem result_evaluate (h : Grounded text table) (v : Valuation) :
    (table.evaluate v).result =
      (v.restrict (Scan.ofText text).letters).bind fun _ =>
        (Tree.read text).bind fun t => t.valueUnder v := by
  cases assigned : v.restrict (Scan.ofText text).letters with
  | error fault =>
      rw [h.evaluate_of_unassigned assigned]
      rfl
  | ok restricted =>
      cases read : Tree.read text with
      | error fault =>
          rw [h.evaluate_of_error assigned read]
          rfl
      | ok t =>
          simp only [Table.evaluate, h.scan_eq, assigned, h.scanned.readTree_of_ok read,
            Outcome.andThen, h.text_eq, Except.bind, ← t.map_value_evaluate v text.length]
          cases t.evaluate v text.length <;> rfl

end Grounded

namespace Sound

/-- Two tables of a text with verdicts have the same rows. -/
theorem rows_eq (h : Sound text table) (h' : Sound text other) (settled : table.verdict.isSome)
    (settled' : other.verdict.isSome) : table.rows = other.rows := by
  obtain ⟨verdict, hverdict⟩ := Option.isSome_iff_exists.1 settled
  obtain ⟨verdict', hverdict'⟩ := Option.isSome_iff_exists.1 settled'
  refine h.rows.eq_of_keys_eq h'.rows ?_
  rw [(h.verdict_eq verdict hverdict).1, (h'.verdict_eq verdict' hverdict').1]

/-- A table with a verdict has the rows of all numbered valuations. -/
theorem rows_eq_numberedRows {evaluations : Nat → Evaluation} (h : Sound text table)
    (settled : table.verdict.isSome) (read : Tree.read text = .ok t)
    (evaluates : ∀ i, evaluateNumbered text t i = .ok (evaluations i)) :
    table.rows = numberedRows text evaluations := by
  obtain ⟨verdict, hverdict⟩ := Option.isSome_iff_exists.1 settled
  refine h.rows.eq_of_keys_eq (rowsOf_numberedRows read evaluates) ?_
  rw [(h.verdict_eq verdict hverdict).1, keys_numberedRows]

/-! ### What operations answer -/

/-- Both tables have a verdict afterwards if the text is a formula, and the same rows under it. -/
theorem construct_eq (h : Sound text table) (h' : Sound text other)
    (small : letterCount text < 64) :
    table.construct.result = other.construct.result ∧
      (table.construct.result.isOk → table.construct.table.rows = other.construct.table.rows) := by
  cases read : Tree.read text with
  | error fault =>
      obtain ⟨records, constructs⟩ := h.construct_of_error small read
      obtain ⟨records', constructs'⟩ := h'.construct_of_error small read
      rw [constructs, constructs']
      exact ⟨rfl, nofun⟩
  | ok t =>
      obtain ⟨verdict, next, records, constructs, sound, -, settled, -⟩ :=
        h.construct_of_ok small read
      obtain ⟨verdict', next', records', constructs', sound', -, settled', -⟩ :=
        h'.construct_of_ok small read
      have rows : next.rows = next'.rows :=
        sound.rows_eq sound' (by rw [settled]; rfl) (by rw [settled']; rfl)
      rw [constructs, constructs', (sound.verdict_eq verdict settled).2,
        (sound'.verdict_eq verdict' settled').2, rows]
      exact ⟨rfl, fun _ => rfl⟩

theorem result_render_eq (h : Sound text table) (h' : Sound text other)
    (small : letterCount text < 64) : table.render.result = other.render.result := by
  obtain ⟨sameResult, sameRows⟩ := h.construct_eq h' small
  have sameText : table.construct.table.text = other.construct.table.text := by
    rw [(h.advances_construct small).sound.text_eq, (h'.advances_construct small).sound.text_eq]
  rw [result_render, result_render, ← sameResult]
  cases result : table.construct.result with
  | error fault => rfl
  | ok verdict =>
      have sameWritten : table.construct.table.written = other.construct.table.written := by
        rw [written, written, sameText, sameRows (by rw [result]; rfl)]
      rw [sameWritten]

/-- Two sound tables of a text answer every request alike that does not ask which rows there are. -/
theorem result_perform_eq (h : Sound text table) (h' : Sound text other)
    (small : letterCount text < 64) {request : Request} (timeless : request.concernsRows = false) :
    (table.perform request).result = (other.perform request).result := by
  cases request with
  | text =>
      show Except.ok (Reply.text table.text) = .ok (.text other.text)
      rw [h.text_eq, h'.text_eq]
  | tree =>
      refine congrArg (Except.map Reply.tree) ?_
      rw [h.result_readTree, h'.result_readTree]
  | dimensions =>
      show Except.ok (Reply.dimensions table.currentScan.rowCount table.currentScan.columnCount) =
        .ok (.dimensions other.currentScan.rowCount other.currentScan.columnCount)
      rw [h.scan_eq, h'.scan_eq]
  | letters =>
      show Except.ok (Reply.letters table.currentScan.letters) =
        .ok (.letters other.currentScan.letters)
      rw [h.scan_eq, h'.scan_eq]
  | columnCount =>
      show Except.ok (Reply.count table.currentScan.columnCount) =
        .ok (.count other.currentScan.columnCount)
      rw [h.scan_eq, h'.scan_eq]
  | evaluate v =>
      refine congrArg (Except.map Reply.value) ?_
      rw [h.result_evaluate, h'.result_evaluate]
  | construct | isTautology | isContradiction | isContingency =>
      exact congrArg (Except.map _) (h.construct_eq h' small).1
  | render => exact congrArg (Except.map Reply.text) (h.result_render_eq h' small)
  | isComplete | get | rows => cases timeless

/-- The text of a formula's table: under the formula its rows, in the order of their numbers. -/
theorem result_render_of_ok {evaluations : Nat → Evaluation} (h : Sound text table)
    (small : letterCount text < 64) (read : Tree.read text = .ok t)
    (evaluates : ∀ i, evaluateNumbered text t i = .ok (evaluations i)) :
    table.render.result = .ok (text ++ String.join ((List.range (2 ^ letterCount text)).map
      fun i => "\n" ++ Evaluation.rowText (evaluations i).entries)) := by
  obtain ⟨verdict, next, records, constructs, sound, -, settled, -⟩ := h.construct_of_ok small read
  have rows := sound.rows_eq_numberedRows (by rw [settled]; rfl) read evaluates
  rw [result_render, constructs]
  show Except.ok next.written = _
  rw [written, sound.text_eq, rows, intercalate_lines, numberedRows, List.map_map, List.map_map]
  rfl

end Sound

/-- Whatever has been asked of two tables of a text, they answer alike from then on, unless they are
asked which rows they have. The table of a formula is written as the formula with a line under it
for every numbered valuation, each as long as the formula. -/
theorem answers_afterSession (text : String) (small : letterCount text < 64)
    (requests requests' : List Request) :
    (∀ request : Request, request.concernsRows = false →
      (((ofText text).afterSession requests).perform request).result =
        (((ofText text).afterSession requests').perform request).result) ∧
    ∀ t, Tree.read text = .ok t → ∃ evaluations : Nat → Evaluation,
      (∀ i < 2 ^ letterCount text, evaluateNumbered text t i = .ok (evaluations i) ∧
        (Evaluation.rowText (evaluations i).entries).length = text.length) ∧
      (((ofText text).afterSession requests).perform .render).result =
        .ok (.text (text ++ String.join ((List.range (2 ^ letterCount text)).map
          fun i => "\n" ++ Evaluation.rowText (evaluations i).entries))) := by
  have sound (requests : List Request) : Sound text ((ofText text).afterSession requests) :=
    (Sound.ofText text).afterSession small requests
  refine ⟨fun request timeless => ?_, fun t read => ?_⟩
  · exact (sound requests).result_perform_eq (sound requests') small timeless
  choose evaluations evaluates using exists_evaluateNumbered read
  refine ⟨evaluations, fun i _ => ⟨evaluates i, length_rowText (evaluates i)⟩, ?_⟩
  exact congrArg (Except.map Reply.text) ((sound requests).result_render_of_ok small read evaluates)

/-- One table got the last row first and has failed at a request; the other one had its verdict. -/
theorem answers_negation :
    letterCount "~p" < 64 ∧
    (((ofText "~p").afterSession
        [.evaluate (Valuation.numbered ['p'] 1), .evaluate .empty]).perform .render).result =
      .ok (.text "~p\n10\n01") ∧
    (((ofText "~p").afterSession [.isTautology]).perform .render).result =
      .ok (.text "~p\n10\n01") := by
  have small : letterCount "~p" < 64 := by decide
  have read : Tree.read "~p" =
      .ok (.formula (.proposition (some ⟨.negation, 0⟩) ⟨.letter 'p', 1⟩)) := rfl
  obtain ⟨alike, rendering⟩ := answers_afterSession "~p" small
    [.evaluate (Valuation.numbered ['p'] 1), .evaluate .empty] [.isTautology]
  obtain ⟨evaluations, rows, rendered⟩ := rendering _ read
  have first : ⟨1, [some 1, some 0], [1, 1]⟩ = evaluations 0 :=
    Except.ok.inj (rows 0 (by decide)).1
  have second : ⟨0, [some 0, some 1], [0, 0]⟩ = evaluations 1 :=
    Except.ok.inj (rows 1 (by decide)).1
  rw [show List.range (2 ^ letterCount "~p") = [0, 1] by decide, List.map_cons, List.map_cons,
    List.map_nil, ← first, ← second] at rendered
  exact ⟨small, rendered, (alike .render rfl).symm.trans rendered⟩

end Table

end Sentential
