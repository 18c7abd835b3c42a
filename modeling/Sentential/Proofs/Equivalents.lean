import Sentential.Proofs.History
import Sentential.Proofs.Language
import Sentential.Proofs.Operands
import Sentential.Proofs.Rereading

/-!
# Equivalent formulas have tables alike

Two formulas are equivalent when they have the same letters and the same meaning. Their tables then
have the same keys and the same values, whatever has been asked of them before; only the entries
under the signs differ with the texts. Rewriting keeps the letters of a tree in their order and its
meaning, and the rewritten tree can be written out, so it is equivalent to the original.
-/

namespace Sentential

open Table

/-- Two texts are formulas with the same letters and the same meaning. -/
structure Equivalent (text text' : String) : Prop where
  letters_eq : (Scan.ofText text).letters = (Scan.ofText text').letters
  trees : ∃ t t', Tree.read text = .ok t ∧ Tree.read text' = .ok t' ∧
    ∀ v, t.valueUnder v = t'.valueUnder v

namespace Table

/-- The keys and values of the rows, in the order of the rows. -/
def keyValues (table : Table) : List (List UInt8 × UInt8) :=
  table.rows.map fun entry => (entry.1, entry.2.value)

/-- Two tables give the same answers when they are asked for their letters, the number of rows, the
value under a valuation or the verdict. Once they are constructed they have the same keys and values
in the same order; their columns and entries may differ. -/
structure Alike (table other : Table) : Prop where
  letters : (table.perform .letters).result = (other.perform .letters).result
  rowCount : ∃ rows columns columns',
    (table.perform .dimensions).result = .ok (.dimensions rows columns) ∧
      (other.perform .dimensions).result = .ok (.dimensions rows columns')
  evaluate : ∀ v, (table.perform (.evaluate v)).result = (other.perform (.evaluate v)).result
  unassigned : ∀ v fault, (table.perform (.evaluate v)).result = .error fault →
    ∃ c, fault = .unassigned c
  verdict : ∃ verdict, (table.perform .construct).result = .ok (.verdict verdict) ∧
    (other.perform .construct).result = .ok (.verdict verdict)
  keyValues : (table.perform .construct).table.keyValues =
    (other.perform .construct).table.keyValues

end Table

/-- The only fault of evaluating a formula is a letter without a value. -/
theorem Table.Grounded.exists_unassigned {text : String} {table : Table} {t : Tree} {v : Valuation}
    {fault : Fault} (h : Grounded text table) (read : Tree.read text = .ok t)
    (failed : (table.evaluate v).result = .error fault) : ∃ c, fault = .unassigned c := by
  cases assigned : v.restrict (Scan.ofText text).letters with
  | error fault' =>
      rw [h.evaluate_of_unassigned assigned] at failed
      cases failed
      obtain ⟨c, -, same⟩ := Valuation.exists_isLeast_of_restrict assigned
      exact ⟨c, same⟩
  | ok restricted =>
      obtain ⟨row, next, evaluates⟩ := h.evaluate_of_ok assigned read
      rw [evaluates.outcome] at failed
      cases failed

namespace Equivalent

variable {text text' : String} {key : List UInt8} {row row' : Row}
variable {table table' : Table}

theorem letterCount_eq (h : Equivalent text text') : letterCount text = letterCount text' := by
  rw [letterCount, letterCount, h.letters_eq]

/-- Rows of the two texts under the same key have the same value. -/
theorem value_eq (h : Equivalent text text') (isRow : IsRow text key row)
    (isRow' : IsRow text' key row') : row.value = row'.value := by
  obtain ⟨v, t, evaluation, hletters, hkey, read, heval, rfl⟩ := isRow
  obtain ⟨v', t', evaluation', hletters', hkey', read', heval', rfl⟩ := isRow'
  obtain rfl : v = v' := by
    refine Valuation.eq_of_key_eq ?_ (hkey.trans hkey'.symm)
    rw [hletters, hletters', h.letters_eq]
  obtain ⟨first, second, hfirst, hsecond, meaning⟩ := h.trees
  rw [read, Except.ok.injEq] at hfirst
  rw [read', Except.ok.injEq] at hsecond
  subst hfirst hsecond
  have same : (t.evaluate v text.length).map Evaluation.value =
      (t'.evaluate v text'.length).map Evaluation.value := by
    rw [Tree.map_value_evaluate, Tree.map_value_evaluate, meaning]
  rw [heval, heval'] at same
  exact Except.ok.inj same

theorem keyValues_eq (h : Equivalent text text') (sound : Sound text table)
    (sound' : Sound text' table') (keys : table.rows.map Prod.fst = table'.rows.map Prod.fst) :
    table.keyValues = table'.keyValues := by
  have length_eq : table.rows.length = table'.rows.length := by
    simpa using congrArg List.length keys
  refine List.ext_getElem (by simpa [keyValues] using length_eq) fun i inside inside' => ?_
  rw [keyValues, List.length_map] at inside inside'
  have key_eq : table.rows[i].1 = table'.rows[i].1 := by
    have same := List.getElem_of_eq keys (by rwa [List.length_map])
    rwa [List.getElem_map, List.getElem_map] at same
  have isRow := sound.rows.isRow _ (List.getElem_mem inside)
  have isRow' := sound'.rows.isRow _ (List.getElem_mem inside')
  simp only [keyValues, List.getElem_map, key_eq, h.value_eq isRow (key_eq ▸ isRow')]

theorem result_evaluate_eq (h : Equivalent text text') (sound : Sound text table)
    (sound' : Sound text' table') (v : Valuation) :
    (table.evaluate v).result = (table'.evaluate v).result := by
  obtain ⟨t, t', read, read', -⟩ := h.trees
  cases assigned : v.restrict (Scan.ofText text).letters with
  | error fault =>
      have assigned' := h.letters_eq ▸ assigned
      rw [sound.evaluate_of_unassigned assigned, sound'.evaluate_of_unassigned assigned']
      rfl
  | ok restricted =>
      have assigned' := h.letters_eq ▸ assigned
      obtain ⟨row, next, evaluates⟩ := sound.evaluate_of_ok assigned read
      obtain ⟨row', next', evaluates'⟩ := sound'.evaluate_of_ok assigned' read'
      rw [evaluates.outcome, evaluates'.outcome, h.value_eq evaluates.isRow evaluates'.isRow]

/-- Both tables come to have all keys in the order of counting, so they differ in entries only. -/
theorem construct_eq (h : Equivalent text text') (small : letterCount text < 64)
    (sound : Sound text table) (sound' : Sound text' table') :
    ∃ verdict next next' records records', table.construct = ⟨.ok verdict, next, records⟩ ∧
      table'.construct = ⟨.ok verdict, next', records'⟩ ∧
      next.keyValues = next'.keyValues := by
  obtain ⟨t, t', read, read', -⟩ := h.trees
  obtain ⟨verdict, next, records, constructs, soundNext, -, settled, -⟩ :=
    sound.construct_of_ok small read
  obtain ⟨verdict', next', records', constructs', soundNext', -, settled', -⟩ :=
    sound'.construct_of_ok (h.letterCount_eq ▸ small) read'
  obtain ⟨full, rfl⟩ := soundNext.verdict_eq verdict settled
  obtain ⟨full', rfl⟩ := soundNext'.verdict_eq verdict' settled'
  have same : next.keyValues = next'.keyValues := by
    refine h.keyValues_eq soundNext soundNext' (full.trans ?_)
    rw [h.letterCount_eq, full']
  have verdicts := congrArg (fun entries => Verdict.ofValues (entries.map Prod.snd)) same
  simp only [keyValues, List.map_map] at verdicts
  exact ⟨_, next, next', records, records', constructs, constructs'.trans (verdicts ▸ rfl), same⟩

/-- Tables of equivalent formulas are alike, whatever they know already. -/
theorem alike (h : Equivalent text text') (small : letterCount text < 64)
    (sound : Sound text table) (sound' : Sound text' table') : Alike table table' := by
  obtain ⟨t, t', read, -, -⟩ := h.trees
  obtain ⟨verdict, next, next', records, records', constructs, constructs', same⟩ :=
    h.construct_eq small sound sound'
  exact {
    letters := by
      show Except.ok (Reply.letters _) = Except.ok (Reply.letters _)
      rw [sound.scan_eq, sound'.scan_eq, h.letters_eq]
    rowCount := by
      refine ⟨table.currentScan.rowCount, table.currentScan.columnCount,
        table'.currentScan.columnCount, rfl, ?_⟩
      rw [sound.scan_eq, Scan.rowCount, h.letters_eq, ← sound'.scan_eq]
      rfl
    evaluate := by
      intro v
      exact congrArg (Except.map Reply.value) (h.result_evaluate_eq sound sound' v)
    unassigned := by
      intro v fault failed
      exact sound.exists_unassigned read (map_eq_error_iff.1 failed)
    verdict := by
      refine ⟨verdict, ?_, ?_⟩
      · show table.construct.result.map Reply.verdict = _
        rw [constructs]
        rfl
      · show table'.construct.result.map Reply.verdict = _
        rw [constructs']
        rfl
    keyValues := by
      show table.construct.table.keyValues = table'.construct.table.keyValues
      rw [constructs, constructs', same] }

end Equivalent

namespace Tree

variable {t : Tree}

/-! ### Letters of rewritten trees -/

theorem letters_iterate_pass (eliminate : Bool) (count : Nat) (t : Tree) :
    ((pass eliminate)^[count] t).letters = t.letters := by
  rw [← map_symbol_letterTokens, (Preserves.iterate_pass eliminate count t).letterTokens_eq,
    map_symbol_letterTokens]

theorem letters_shape (t : Tree) : t.shape.letters = t.letters := by
  induction t with
  | proposition => rfl
  | negated mark operand ih => exact ih
  | bare child ih => exact ih
  | composite left operator right ihl ihr => rw [shape, letters, ihl, ihr, letters]
  | formula child ih => exact ih

theorem Similar.letters_eq {a b : Tree} (h : Similar a b) : a.letters = b.letters :=
  h.congr letters_shape

/-! ### Rewritten formulas -/

/-- A canonical tree with the letters and the meaning of the tree of a text is written as an
equivalent of the text. -/
theorem equivalent_text {text : String} {result : Tree} (read : Tree.read text = .ok t)
    (canonical : result.Canonical) (letters : result.letters = t.letters)
    (meaning : ∀ v, result.valueUnder v = t.valueUnder v) : Equivalent text result.text := by
  obtain ⟨back, readBack, similar⟩ := canonical.read_text
  constructor
  · rw [Scan.ofText, Scan.ofText, ← letters_of_read read, ← letters_of_read readBack,
      similar.letters_eq, letters]
  · refine ⟨t, back, read, readBack, fun v => ?_⟩
    rw [similar.valueUnder_eq (connected_of_read readBack) v, meaning v]

theorem equivalent_text_iterate_pass {text : String} (read : Tree.read text = .ok t)
    (eliminate : Bool) (count : Nat) : Equivalent text ((pass eliminate)^[count] t).text := by
  refine equivalent_text read ((canonical_of_read read).iterate_pass eliminate count)
    (letters_iterate_pass eliminate count t) fun v => ?_
  exact valueUnder_iterate_pass eliminate v count t

/-- The table of a rewritten formula is like that of the original, after any number of passes and at
their fixed point, whatever has been asked of the two tables before. -/
theorem alike_rewritten {text : String} (small : letterCount text < 64)
    (read : Tree.read text = .ok t) (eliminate : Bool) (requests requests' : List Request) :
    (∀ count, Alike ((ofText text).afterSession requests)
      ((ofText ((pass eliminate)^[count] t).text).afterSession requests')) ∧
    Alike ((ofText text).afterSession requests)
      ((ofText (t.normalize eliminate).text).afterSession requests') := by
  have counted (count : Nat) : Alike ((ofText text).afterSession requests)
      ((ofText ((pass eliminate)^[count] t).text).afterSession requests') := by
    have equivalent := equivalent_text_iterate_pass read eliminate count
    have small' := equivalent.letterCount_eq ▸ small
    apply equivalent.alike small
    · exact (Sound.ofText text).afterSession small requests
    · exact (Sound.ofText _).afterSession small' requests'
  refine ⟨counted, ?_⟩
  rw [normalize_eq_iterate_pass]
  exact counted _

/-- The first table has a row already, and a request that failed. -/
theorem alike_rewritten_nested :
    letterCount "~(p > (q)) | r" < 64 ∧ ∃ t, Tree.read "~(p > (q)) | r" = .ok t ∧
      ((pass true)^[2] t).text = "(p & ~q) | r" ∧
      Alike ((ofText "~(p > (q)) | r").afterSession
          [.evaluate (Valuation.numbered ['p', 'q', 'r'] 4), .evaluate .empty])
        (ofText "(p & ~q) | r") ∧
      Alike (ofText "~(p > (q)) | r") (ofText (t.normalize true).text) := by
  have small : letterCount "~(p > (q)) | r" < 64 := by decide
  obtain ⟨t, read⟩ : ∃ t, Tree.read "~(p > (q)) | r" = .ok t := ⟨_, rfl⟩
  have twice : ((pass true)^[2] t).text = "(p & ~q) | r" := by
    cases read
    rfl
  have counted := (alike_rewritten small read true
    [.evaluate (Valuation.numbered ['p', 'q', 'r'] 4), .evaluate .empty] []).1 2
  rw [twice] at counted
  exact ⟨small, t, read, twice, counted, (alike_rewritten small read true [] []).2⟩

end Tree

end Sentential
