import Sentential.Proofs.Columns
import Sentential.Proofs.Grounded
import Sentential.Proofs.Rereading

/-!
# A scan agrees with the tree

A table knows its text from two sides. The scan goes through the characters and finds the letters
and the number of columns; the tree is read by the grammar and gives the rows. For a formula both
say the same: the letters of the scan are those that evaluation looks up, and a row is filled in
under as many characters as the scan has counted.

Unlike verdicts this does not need a bound on the number of letters: that sessions leave a table
grounded is enough.
-/

namespace Sentential

/-! ### What evaluation looks up -/

/-- Evaluation looks up a letter if it can fail for want of its value. -/
def Tree.LooksUp (t : Tree) (c : Char) : Prop :=
  ∃ v width, t.evaluate v width = .error (.unassigned c)

namespace Tree

variable {t : Tree} {v : Valuation}

theorem Connected.isOk_evaluate_iff (connected : t.Connected) (v : Valuation) (width : Nat) :
    (t.evaluate v width).isOk ↔ ∀ c ∈ t.letters, (v.get? c).isSome := by
  rw [← connected.firstFault_eq_none_iff]
  exact Tree.isOk_evaluate_iff

theorem Connected.exists_unassigned_of_evaluate {width : Nat} {fault : Fault}
    (connected : t.Connected) (failed : t.evaluate v width = .error fault) :
    ∃ c ∈ t.letters, v.get? c = none ∧ fault = .unassigned c := by
  apply connected.exists_unassigned
  rw [← map_value_evaluate t v width, failed]
  rfl

/-- The letters that evaluation looks up are the letters of the tree: a valuation of all other
letters leaves it at the one that is missing. -/
theorem Connected.looksUp_iff (connected : t.Connected) {c : Char} :
    t.LooksUp c ↔ c ∈ t.letters := by
  constructor
  · rintro ⟨v, width, failed⟩
    obtain ⟨d, member, -, same⟩ := connected.exists_unassigned_of_evaluate failed
    cases same
    exact member
  · intro member
    let others := Letters.ofList (t.letters.filter (· ≠ c))
    let v := Valuation.numbered others.toList 0
    have assigned (d : Char) : (v.get? d).isSome ↔ d ∈ t.letters ∧ d ≠ c := by
      rw [Valuation.isSome_get?_iff, Valuation.letters_numbered]
      simp [others]
    have missing : ¬ (t.evaluate v 0).isOk := by
      rw [connected.isOk_evaluate_iff]
      intro all
      exact ((assigned c).1 (all c member)).2 rfl
    cases evaluated : t.evaluate v 0 with
    | ok evaluation =>
        rw [evaluated] at missing
        exact absurd rfl missing
    | error fault =>
        obtain ⟨d, hd, unassigned, rfl⟩ := connected.exists_unassigned_of_evaluate evaluated
        have same : d = c := by
          by_contra other
          have found := (assigned d).2 ⟨hd, other⟩
          rw [unassigned] at found
          cases found
        exact ⟨v, 0, same ▸ evaluated⟩

end Tree

namespace Table

/-- What a table of a text finds by scanning it agrees with the tree that the text is read as. -/
structure Agrees (text : String) (t : Tree) (table : Table) : Prop where
  letters : (table.perform .letters).result = .ok (.letters (Scan.ofText text).letters)
  /-- The letters are those that evaluation looks up. -/
  mem_letters : ∀ c, c ∈ (Scan.ofText text).letters.toList ↔ t.LooksUp c
  /-- Every evaluation needs all of them and nothing else. -/
  isOk_evaluate : ∀ v width, (t.evaluate v width).isOk ↔
    ∀ c ∈ (Scan.ofText text).letters.toList, (v.get? c).isSome
  columnCount : (table.perform .columnCount).result = .ok (.count t.tokens.length)
  /-- In every row as many columns are filled in as there are tokens. -/
  filled : ∀ entry ∈ table.rows, entry.2.entries.countP Option.isSome = t.tokens.length
  /-- A valuation that can be limited to the letters evaluates the tree as the limited one does. -/
  restricted : ∀ v restricted, v.restrict (Scan.ofText text).letters = .ok restricted →
    ∃ evaluation, t.evaluate v text.length = .ok evaluation ∧
      t.evaluate restricted text.length = .ok evaluation

/-- The scan of a formula agrees with its tree, whatever has been asked of the table. -/
theorem agrees_afterSession {text : String} {t : Tree} (read : Tree.read text = .ok t)
    (requests : List Request) : Agrees text t ((ofText text).afterSession requests) := by
  have h := (Grounded.ofText text).afterSession requests
  generalize (ofText text).afterSession requests = table at h
  have connected := Tree.connected_of_read read
  have sameLetters (c : Char) : c ∈ (Scan.ofText text).letters.toList ↔ c ∈ t.letters :=
    (Tree.mem_letters_of_read read).symm
  refine ⟨?_, ?_, ?_, ?_, ?_, ?_⟩
  · exact congrArg (fun scan : Scan => Except.ok (Reply.letters scan.letters)) h.scan_eq
  · intro c
    rw [connected.looksUp_iff, sameLetters]
  · intro v width
    simp only [connected.isOk_evaluate_iff, sameLetters]
  · show Except.ok (Reply.count table.currentScan.columnCount) = .ok (.count t.tokens.length)
    rw [h.scan_eq, Tree.tokens_of_read read, Token.length_ofChars]
    rfl
  · intro entry member
    obtain ⟨v, t', evaluation, -, -, read', evaluated, row⟩ := h.rows.isRow entry member
    rw [read, Except.ok.injEq] at read'
    subst read'
    rw [row]
    exact Tree.countP_isSome_entries read evaluated
  · intro v restricted assigned
    obtain ⟨all, rfl⟩ := Valuation.restrict_eq_ok_iff.1 assigned
    obtain ⟨evaluation, evaluated⟩ := Tree.exists_evaluation_of_read read all text.length
    refine ⟨evaluation, evaluated, ?_⟩
    rw [← evaluated]
    refine Tree.evaluate_congr (fun c member => ?_) _
    rw [Valuation.get?_only, if_pos ((sameLetters c).2 member)]

/-- A text with a letter that takes two bytes, blanks and parentheses, whose table has got a row
from a valuation with a letter too many. -/
theorem agrees_afterSession_blanks :
    let t : Tree := .formula (.negated ⟨.negation, 0⟩ (.composite
      (.proposition none ⟨.letter 'é', 2⟩) ⟨.connective .implication, 4⟩
      (.proposition (some ⟨.negation, 6⟩) ⟨.letter 'q', 7⟩)))
    Tree.read "~(é > ~q)" = .ok t ∧
    Agrees "~(é > ~q)" t ((ofText "~(é > ~q)").afterSession
      [.evaluate (Valuation.numbered ['a', 'q', 'é'] 3), .isTautology]) ∧
    t.tokens.length = 5 := by
  intro t
  have read : Tree.read "~(é > ~q)" = .ok t := by decide
  exact ⟨read, agrees_afterSession read _, rfl⟩

end Table

end Sentential
