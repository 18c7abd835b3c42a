import Sentential.Proofs.History
import Sentential.Proofs.Meaning

/-!
# Verdicts are right

The verdict is read off the rows of a full table. These are the rows of the text under all keys, so
what they say holds under all valuations that assign the letters of the formula, and only they
matter.
-/

namespace Sentential

/-- A valuation assigns all letters of a tree. -/
def Valuation.Assigns (v : Valuation) (t : Tree) : Prop :=
  ∀ c ∈ t.letters, (v.get? c).isSome

/-- The tree has the same value under all valuations that assign its letters. -/
def Tree.Always (t : Tree) (value : UInt8) : Prop :=
  ∀ v : Valuation, v.Assigns t → ∀ width, (t.evaluate v width).map Evaluation.value = .ok value

namespace Table

variable {text : String} {table : Table} {t : Tree}

/-- All rows of a full table have a value exactly if the formula always has it. -/
theorem Grounded.all_rows_iff (h : Grounded text table) (read : Tree.read text = .ok t)
    (full : table.rows.map Prod.fst = Valuation.keys (letterCount text)) (value : UInt8) :
    (∀ entry ∈ table.rows, entry.2.value = value) ↔ t.Always value := by
  have mem_letters (c : Char) : c ∈ t.letters ↔ c ∈ (Scan.ofText text).letters.toList :=
    Tree.mem_letters_of_read read
  constructor
  · intro all v assigns width
    have assigned (c : Char) (member : c ∈ (Scan.ofText text).letters.toList) :
        (v.get? c).isSome := assigns c ((mem_letters c).2 member)
    obtain ⟨evaluation, heval⟩ := Tree.exists_evaluation (Tree.connected_of_read read) assigns
      text.length
    have isRow := isRow_of_evaluate read assigned heval
    have there := h.rows.mem_of_key_mem isRow (full ▸ isRow.key_mem)
    rw [Tree.map_value_evaluate, ← Tree.map_value_evaluate t v text.length, heval]
    exact congrArg Except.ok (all _ there)
  · intro always entry member
    obtain ⟨v, t', evaluation, hletters, -, read', heval, hrow⟩ := h.rows.isRow entry member
    rw [read, Except.ok.injEq] at read'
    subst read'
    have assigns : v.Assigns t := by
      intro c hc
      rw [Valuation.isSome_get?_iff, hletters]
      exact (mem_letters c).1 hc
    have value_eq := always v assigns text.length
    rw [heval] at value_eq
    rw [hrow]
    exact Except.ok.inj value_eq

theorem tautology_ofValues {rows : List (List UInt8 × Row)} :
    (Verdict.ofValues (rows.map fun entry => entry.2.value)).tautology = true ↔
      ∀ entry ∈ rows, entry.2.value = 1 := by
  simp [Verdict.ofValues]

theorem contradiction_ofValues {rows : List (List UInt8 × Row)} :
    (Verdict.ofValues (rows.map fun entry => entry.2.value)).contradiction = true ↔
      ∀ entry ∈ rows, entry.2.value = 0 := by
  simp [Verdict.ofValues]

theorem contingency_iff {verdict : Verdict} : verdict.contingency = true ↔
    ¬verdict.tautology = true ∧ ¬verdict.contradiction = true := by
  simp [Verdict.contingency]

/-- What a table is like once it has a verdict: it has the rows of all numbered valuations, in their
order and for good, and the verdict is that on the formula. -/
structure Settled (text : String) (t : Tree) (verdict : Verdict) (table : Table) : Prop where
  length_eq : table.rows.length = 2 ^ letterCount text
  order : ∀ (i : Nat) (h : i < table.rows.length), table.rows[i].1 =
    (Valuation.numbered (Scan.ofText text).letters.toList i).key
  lasting : ∀ requests, (table.afterSession requests).rows = table.rows
  tautology : verdict.tautology = true ↔ t.Always 1
  contradiction : verdict.contradiction = true ↔ t.Always 0
  contingency : verdict.contingency = true ↔ ¬t.Always 1 ∧ ¬t.Always 0
  exclusive : ¬(t.Always 1 ∧ t.Always 0)

theorem Sound.settled (h : Sound text table) (small : letterCount text < 64)
    (read : Tree.read text = .ok t) {verdict : Verdict} (hverdict : table.verdict = some verdict) :
    Settled text t verdict table := by
  obtain ⟨full, rfl⟩ := h.verdict_eq verdict hverdict
  have length_eq : table.rows.length = 2 ^ letterCount text := by
    simpa using congrArg List.length full
  have tautology := tautology_ofValues.trans (h.all_rows_iff read full 1)
  have contradiction := contradiction_ofValues.trans (h.all_rows_iff read full 0)
  refine ⟨length_eq, ?_, ?_, tautology, contradiction, ?_, ?_⟩
  · intro i hi
    have same := List.getElem_of_eq full (by rwa [List.length_map])
    rwa [List.getElem_map, Valuation.getElem_keys, letterCount, ← Valuation.key_numbered] at same
  · exact h.rows_afterSession small (by rw [hverdict]; rfl)
  · rw [contingency_iff, tautology, contradiction]
  · rintro ⟨always, never⟩
    rw [← h.all_rows_iff read full] at always never
    obtain ⟨entry, member⟩ := List.exists_mem_of_length_pos
      (length_eq ▸ Nat.two_pow_pos (letterCount text))
    exact absurd ((always entry member).symm.trans (never entry member)) (by decide)

/-- Whatever has been asked of a table before, it gets a verdict exactly if its text is a formula,
and then it is settled. -/
theorem construct_afterSession (text : String) (small : letterCount text < 64)
    (requests : List Request) :
    ((∃ verdict, ((ofText text).afterSession requests).construct.result = .ok verdict) ↔
      ∃ t, Tree.read text = .ok t) ∧
    ∀ t verdict, Tree.read text = .ok t →
      ((ofText text).afterSession requests).construct.result = .ok verdict →
      Settled text t verdict ((ofText text).afterSession requests).construct.table := by
  have h := (Sound.ofText text).afterSession small requests
  generalize (ofText text).afterSession requests = table at h
  refine ⟨⟨?_, ?_⟩, ?_⟩
  · rintro ⟨verdict, result⟩
    cases read : Tree.read text with
    | ok t => exact ⟨t, rfl⟩
    | error fault =>
        obtain ⟨records, constructs⟩ := h.construct_of_error small read
        rw [constructs] at result
        cases result
  · rintro ⟨t, read⟩
    obtain ⟨verdict, next, records, constructs, -⟩ := h.construct_of_ok small read
    exact ⟨verdict, by rw [constructs]⟩
  · intro t verdict read result
    obtain ⟨verdict', next, records, constructs, sound, -, hverdict, -⟩ :=
      h.construct_of_ok small read
    rw [constructs] at result ⊢
    cases result
    exact sound.settled small read hverdict

/-- The whole table after two of its rows, in the wrong order, and a request that fails. -/
theorem construct_implication :
    letterCount "p > q" < 64 ∧ ∃ t verdict, Tree.read "p > q" = .ok t ∧
      Settled "p > q" t verdict ((ofText "p > q").afterSession
        [.evaluate (Valuation.numbered ['p', 'q'] 2), .evaluate .empty,
          .evaluate (Valuation.numbered ['p', 'q', 'r'] 1)]).construct.table := by
  obtain ⟨verdict, result⟩ := (construct_afterSession "p > q" (by decide) _).1.2 ⟨_, rfl⟩
  exact ⟨by decide, _, verdict, rfl,
    (construct_afterSession "p > q" (by decide) _).2 _ _ rfl result⟩

end Table

end Sentential
