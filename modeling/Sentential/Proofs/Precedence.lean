import Sentential.Proofs.Answers
import Sentential.Proofs.Requests

/-!
# Which fault a table reports

Two things can be wrong when a table is asked for a value: the valuation lacks a letter of the text,
or the text is no formula. The letters are looked at first. Stored values are looked up without the
text being read, so there only the letters matter, and all other requests that can fail read the
text.

A value is stored if it has been asked for, under this valuation or another one with the same values
for the letters of the text, or if the verdict has. No request that has failed leaves anything that
changes this, in whatever order they come.
-/

namespace Sentential.Table

variable {text : String} {table : Table} {t : Tree} {requests : List Request} {v : Valuation}

/-- The letters of a text that a valuation does not assign. -/
def Unassigned (text : String) (v : Valuation) : Set Char :=
  {c | c ∈ text.toList ∧ isAlphabetic c = true ∧ v.get? c = none}

/-- The value under a valuation has been found in the course of a session: for a valuation that
agrees with it on the letters of the text, or on the way to the verdict. -/
def Found (text : String) (requests : List Request) (v : Valuation) : Prop :=
  (∃ w, Succeeded text requests (.evaluate w) ∧
    ∀ c ∈ text.toList, isAlphabetic c = true → w.get? c = v.get? c) ∨
  ∃ request, request.constructs = true ∧ Succeeded text requests request

/-! ### Letters without a value -/

theorem unassigned_eq (text : String) (v : Valuation) :
    Unassigned text v = {c | c ∈ (Scan.ofText text).letters.toList ∧ v.get? c = none} := by
  simp only [Unassigned, Scan.mem_letters_ofText, and_assoc]

theorem unassigned_eq_empty_iff :
    Unassigned text v = ∅ ↔ ∀ c ∈ (Scan.ofText text).letters.toList, (v.get? c).isSome := by
  simp [unassigned_eq, Set.eq_empty_iff_forall_notMem, Option.isSome_iff_ne_none]

theorem restrict_of_unassigned_eq_empty (assigns : Unassigned text v = ∅) :
    v.restrict (Scan.ofText text).letters = .ok (v.only (Scan.ofText text).letters) :=
  Valuation.restrict_eq_ok_iff.2 ⟨unassigned_eq_empty_iff.1 assigns, rfl⟩

theorem restrict_eq_error_iff {fault : Fault} :
    v.restrict (Scan.ofText text).letters = .error fault ↔
      ∃ c, IsLeast (Unassigned text v) c ∧ fault = .unassigned c := by
  rw [unassigned_eq]
  exact Valuation.restrict_eq_error_iff

theorem exists_isLeast_unassigned (some : (Unassigned text v).Nonempty) :
    ∃ c, IsLeast (Unassigned text v) c := by
  cases restricts : v.restrict (Scan.ofText text).letters with
  | error fault =>
      obtain ⟨c, least, -⟩ := restrict_eq_error_iff.1 restricts
      exact ⟨c, least⟩
  | ok restricted =>
      have none := unassigned_eq_empty_iff.2 (Valuation.restrict_eq_ok_iff.1 restricts).1
      rw [none] at some
      exact absurd some Set.not_nonempty_empty

/-! ### Stored values -/

/-- A value can be looked up if it has been found. -/
theorem key_mem_afterSession_iff (small : letterCount text < 64) (read : Tree.read text = .ok t)
    (assigns : Unassigned text v = ∅) (requests : List Request) :
    (v.only (Scan.ofText text).letters).key ∈
        ((ofText text).afterSession requests).rows.map Prod.fst ↔ Found text requests v := by
  have assigned := unassigned_eq_empty_iff.1 assigns
  rw [mem_keys_afterSession_iff small read
    (Valuation.key_mem_keys (Valuation.letters_only assigned))]
  constructor
  · rintro ⟨request, constructs | ⟨w, restricted, rfl, restricts, sameKey⟩, succeeded⟩
    · exact .inr ⟨request, constructs, succeeded⟩
    · obtain ⟨assigned', rfl⟩ := Valuation.restrict_eq_ok_iff.1 restricts
      refine .inl ⟨w, succeeded, fun c member alphabetic => ?_⟩
      exact (Valuation.key_only_eq_iff assigned' assigned).1 sameKey c
        (Scan.mem_letters_ofText.2 ⟨member, alphabetic⟩)
  · rintro (⟨w, succeeded, agree⟩ | ⟨request, constructs, succeeded⟩)
    · have agree' : ∀ c ∈ (Scan.ofText text).letters.toList, w.get? c = v.get? c := by
        intro c member
        obtain ⟨inside, alphabetic⟩ := Scan.mem_letters_ofText.1 member
        exact agree c inside alphabetic
      have assigned' : ∀ c ∈ (Scan.ofText text).letters.toList, (w.get? c).isSome := by
        intro c member
        rw [agree' c member]
        exact assigned c member
      refine ⟨.evaluate w, .inr ⟨w, w.only (Scan.ofText text).letters, rfl, ?_, ?_⟩, succeeded⟩
      · exact Valuation.restrict_eq_ok_iff.2 ⟨assigned', rfl⟩
      · exact (Valuation.key_only_eq_iff assigned' assigned).2 agree'
    · exact ⟨request, .inl constructs, succeeded⟩

theorem exists_valueUnder (read : Tree.read text = .ok t) (assigns : Unassigned text v = ∅) :
    ∃ x, t.valueUnder v = .ok x := by
  obtain ⟨evaluation, evaluated⟩ :=
    Tree.exists_evaluation_of_read read (unassigned_eq_empty_iff.1 assigns) 0
  refine ⟨evaluation.value, ?_⟩
  rw [← Tree.map_value_evaluate t v 0, evaluated]
  rfl

namespace Grounded

theorem result_get (h : Grounded text table) (v : Valuation) :
    (table.get v).result = (v.restrict (Scan.ofText text).letters).map fun restricted =>
      (table.rows.lookup restricted.key).map Row.value := by
  rw [Table.get, h.scan_eq]
  cases v.restrict (Scan.ofText text).letters <;> rfl

/-- The row stored for a valuation has the value of the formula. -/
theorem valueUnder_of_lookup (h : Grounded text table) (read : Tree.read text = .ok t)
    (assigns : Unassigned text v = ∅) {row : Row}
    (found : table.rows.lookup (v.only (Scan.ofText text).letters).key = some row) :
    t.valueUnder v = .ok row.value := by
  have assigned := unassigned_eq_empty_iff.1 assigns
  obtain ⟨evaluation, evaluated⟩ := Tree.exists_evaluation_of_read read assigned text.length
  have member := (lookup_eq_some_iff h.rows.unique).1 found
  obtain rfl := (h.rows.isRow _ member).unique (isRow_of_evaluate read assigned evaluated)
  rw [← Tree.map_value_evaluate t v text.length, evaluated]
  rfl

theorem evaluate_eq_error_iff (h : Grounded text table) {fault : Fault} :
    (table.evaluate v).result = .error fault ↔
      (∃ c, IsLeast (Unassigned text v) c ∧ fault = .unassigned c) ∨
      Unassigned text v = ∅ ∧ Tree.read text = .error fault := by
  rw [h.result_evaluate, ← restrict_eq_error_iff]
  cases restricts : v.restrict (Scan.ofText text).letters with
  | error other =>
      have lacks : Unassigned text v ≠ ∅ := by
        intro assigns
        rw [restrict_of_unassigned_eq_empty assigns] at restricts
        cases restricts
      simp [Except.bind, lacks]
  | ok restricted =>
      have assigns := unassigned_eq_empty_iff.2 (Valuation.restrict_eq_ok_iff.1 restricts).1
      cases read : Tree.read text with
      | error other => simp [Except.bind, assigns]
      | ok t =>
          obtain ⟨x, value⟩ := exists_valueUnder read assigns
          simp [Except.bind, value]

theorem get_eq_error_iff (h : Grounded text table) {fault : Fault} :
    (table.get v).result = .error fault ↔
      ∃ c, IsLeast (Unassigned text v) c ∧ fault = .unassigned c := by
  rw [h.result_get, map_eq_error_iff, restrict_eq_error_iff]

end Grounded

/-- The text is read for its tree and for the verdict, and nothing else can go wrong there. -/
theorem Sound.perform_eq_error_iff (h : Sound text table) (small : letterCount text < 64)
    {request : Request} (reads : request = .tree ∨ request.constructs = true) {fault : Fault} :
    (table.perform request).result = .error fault ↔ Tree.read text = .error fault := by
  obtain rfl | constructs := reads
  · rw [← h.result_readTree]
    exact map_eq_error_iff
  · cases read : Tree.read text with
    | error other =>
        obtain ⟨records, failed⟩ := h.construct_of_error small read
        have same : (table.perform request).result = .error other := by
          cases request with
          | construct | isTautology | isContradiction | isContingency =>
              rw [Table.perform, failed]
              rfl
          | render =>
              refine (congrArg (Except.map Reply.text) (result_render table)).trans ?_
              rw [failed]
              rfl
          | _ => cases constructs
        rw [same, Except.error.injEq, Except.error.injEq]
    | ok t =>
        obtain ⟨verdict, next, records, found⟩ := h.construct_of_ok small read
        obtain ⟨reply, performs⟩ := exists_reply_of_construct constructs found.outcome
        rw [performs]
        simp

/-- Which answers a table gives for a valuation after some requests, and which faults it reports. -/
structure Precedence (text : String) (requests : List Request) (v : Valuation) (table : Table) :
    Prop where
  exists_isLeast : (Unassigned text v).Nonempty → ∃ c, IsLeast (Unassigned text v) c
  evaluate_error : ∀ fault, (table.perform (.evaluate v)).result = .error fault ↔
    (∃ c, IsLeast (Unassigned text v) c ∧ fault = .unassigned c) ∨
    Unassigned text v = ∅ ∧ Tree.read text = .error fault
  evaluate_ok : ∀ t, Unassigned text v = ∅ → Tree.read text = .ok t →
    ∃ x, t.valueUnder v = .ok x ∧ (table.perform (.evaluate v)).result = .ok (.value x)
  get_error : ∀ fault, (table.perform (.get v)).result = .error fault ↔
    ∃ c, IsLeast (Unassigned text v) c ∧ fault = .unassigned c
  get_unreadable : ∀ fault, Unassigned text v = ∅ → Tree.read text = .error fault →
    (table.perform (.get v)).result = .ok (.stored none)
  get_ok : ∀ t, Unassigned text v = ∅ → Tree.read text = .ok t →
    ∃ stored, (table.perform (.get v)).result = .ok (.stored stored) ∧
      (stored.isSome ↔ Found text requests v) ∧ ∀ x, stored = some x → t.valueUnder v = .ok x
  /-- The tree, the verdict and the table as text are there unless the text is no formula. -/
  read_error : ∀ request : Request, request = .tree ∨ request.constructs = true →
    ∀ fault, (table.perform request).result = .error fault ↔ Tree.read text = .error fault

/-- Letters without a value are reported first and the fault of the text second, whatever has been
asked of the table before. What it has stored is what has been found before. -/
theorem precedence_afterSession (text : String) (small : letterCount text < 64)
    (requests : List Request) (v : Valuation) :
    Precedence text requests v ((ofText text).afterSession requests) := by
  have h := (Sound.ofText text).afterSession small requests
  have stored (assigns : Unassigned text v = ∅) :
      (((ofText text).afterSession requests).perform (.get v)).result = .ok (.stored
        ((((ofText text).afterSession requests).rows.lookup
          (v.only (Scan.ofText text).letters).key).map Row.value)) := by
    refine (congrArg (Except.map Reply.stored) (h.result_get v)).trans ?_
    rw [restrict_of_unassigned_eq_empty assigns]
    rfl
  constructor
  case exists_isLeast => exact exists_isLeast_unassigned
  case evaluate_error =>
    intro fault
    exact map_eq_error_iff.trans h.evaluate_eq_error_iff
  case evaluate_ok =>
    intro t assigns read
    obtain ⟨x, value⟩ := exists_valueUnder read assigns
    refine ⟨x, value, (congrArg (Except.map Reply.value) (h.result_evaluate v)).trans ?_⟩
    simp [restrict_of_unassigned_eq_empty assigns, read, value, Except.bind, Except.map]
  case get_error =>
    intro fault
    exact map_eq_error_iff.trans h.get_eq_error_iff
  case get_unreadable =>
    intro fault assigns unread
    rw [stored assigns, h.rows_eq_nil unread]
    rfl
  case get_ok =>
    intro t assigns read
    refine ⟨_, stored assigns, ?_, ?_⟩
    · rw [Option.isSome_map, isSome_lookup_iff]
      exact key_mem_afterSession_iff small read assigns requests
    · intro x value
      obtain ⟨row, found, rfl⟩ := Option.map_eq_some_iff.1 value
      exact h.valueUnder_of_lookup read assigns found
  case read_error =>
    intro request reads fault
    exact h.perform_eq_error_iff small reads

/-- In a text that is no formula letters are looked up all the same, and failing to find a verdict
leaves nothing to look up. -/
theorem precedence_afterSession_unreadable :
    let requests : List Request := [.construct, .tree, .evaluate (Valuation.numbered ['p', 'q'] 1)]
    letterCount "p & (q" < 64 ∧
    Precedence "p & (q" requests (Valuation.numbered ['p', 'q'] 1)
      ((ofText "p & (q").afterSession requests) ∧
    (((ofText "p & (q").afterSession requests).perform
      (.get (Valuation.numbered ['p', 'q'] 1))).result = .ok (.stored none) := by
  intro requests
  have small : letterCount "p & (q" < 64 := by decide
  have answers := precedence_afterSession "p & (q" small requests (Valuation.numbered ['p', 'q'] 1)
  have assigns : Unassigned "p & (q" (Valuation.numbered ['p', 'q'] 1) = ∅ :=
    unassigned_eq_empty_iff.2 (List.all_eq_true.1 (by decide))
  exact ⟨small, answers, answers.get_unreadable _ assigns rfl⟩

end Sentential.Table
