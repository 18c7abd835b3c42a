import Mathlib.Data.List.Induction
import Sentential.Evaluation.Checked
import Sentential.Truth
import Sentential.Valuation.Numbering

/-!
# Evaluation computes classical truth

Evaluation walks through a tree in post-order. At every node it either meets a fault or finds the
classical truth value of the subtree there, so its whole trace is told by the subtrees: `trace_eq`
says so by one induction over the tree, and the rest is read off it. Only the entries depend on the
number of columns, and over more columns they only go on.
-/

namespace Sentential

/-! ### Truth values as bytes -/

theorem toUInt8_le_one (b : Bool) : b.toUInt8 ≤ 1 := by
  cases b <;> decide

theorem toUInt8_inj {a b : Bool} : a.toUInt8 = b.toUInt8 ↔ a = b := by
  cases a <;> cases b <;> decide

theorem complement_toUInt8 (b : Bool) : complement b.toUInt8 = (!b).toUInt8 := by
  cases b <;> rfl

/-- On truth values the connectives compute their truth functions. -/
theorem Connective.apply_toUInt8 (k : Connective) (a b : Bool) :
    k.apply a.toUInt8 b.toUInt8 = (k.holds a b).toUInt8 := by
  cases k <;> cases a <;> cases b <;> rfl

theorem Valuation.eq_toUInt8_holds {v : Valuation} {letter : Char} {value : UInt8}
    (h : v.get? letter = some value) : value = (v.holds letter).toUInt8 := by
  rcases eq_zero_or_one (get?_le_one h) with rfl | rfl <;> simp [holds, h] <;> rfl

namespace Tree

variable {v : Valuation} {t : Tree}

/-! ### The first fault -/

@[simp] theorem firstFault_letter (v : Valuation) (negation : Option Token) (letter : Token) :
    (proposition negation letter).firstFault v = rootFault v (proposition negation letter) := by
  simp only [firstFault, subtrees, List.findSome?_singleton]

@[simp] theorem firstFault_negated (v : Valuation) (mark : Token) (t : Tree) :
    (negated mark t).firstFault v = t.firstFault v := by
  simp [firstFault, subtrees, rootFault]

@[simp] theorem firstFault_bare (v : Valuation) (t : Tree) :
    (bare t).firstFault v = t.firstFault v := by
  simp [firstFault, subtrees, rootFault]

@[simp] theorem firstFault_formula (v : Valuation) (t : Tree) :
    (formula t).firstFault v = t.firstFault v := by
  simp [firstFault, subtrees, rootFault]

/-- The operator comes after both operands. -/
@[simp] theorem firstFault_composite (v : Valuation) (left : Tree) (operator : Token)
    (right : Tree) :
    (composite left operator right).firstFault v =
      (left.firstFault v).or ((right.firstFault v).or
        (rootFault v (composite left operator right))) := by
  simp [firstFault, subtrees, List.findSome?_append]

theorem isSome_rootFault_iff {s : Tree} :
    (s.rootFault v).isSome ↔
      (∃ negation letter, s = proposition negation letter ∧ v.get? letter.symbol = none) ∨
      ∃ left operator right, s = composite left operator right ∧
        operator.connective? = none := by
  cases s with
  | proposition negation letter => cases found : v.get? letter.symbol <;> simp [rootFault, found]
  | composite left operator right => cases found : operator.connective? <;> simp [rootFault, found]
  | negated | bare | formula => simp [rootFault]

/-- There is a first fault if some letter has no value or some operator is no connective. -/
theorem exists_firstFault_iff :
    (∃ fault, t.firstFault v = some fault) ↔
      (∃ negation letter, proposition negation letter ∈ t.subtrees ∧
        v.get? letter.symbol = none) ∨
      ∃ left operator right, composite left operator right ∈ t.subtrees ∧
        operator.connective? = none := by
  rw [← Option.isSome_iff_exists, firstFault, List.findSome?_isSome_iff]
  simp only [isSome_rootFault_iff]
  constructor
  · rintro ⟨s, member, ⟨negation, letter, rfl, missing⟩ | ⟨left, operator, right, rfl, unknown⟩⟩
    · exact .inl ⟨negation, letter, member, missing⟩
    · exact .inr ⟨left, operator, right, member, unknown⟩
  · rintro (⟨negation, letter, member, missing⟩ | ⟨left, operator, right, member, unknown⟩)
    · exact ⟨_, member, .inl ⟨negation, letter, rfl, missing⟩⟩
    · exact ⟨_, member, .inr ⟨left, operator, right, rfl, unknown⟩⟩

/-! ### The trace -/

/-- The trace that classical truth gives a tree: every token is marked with the truth value of the
tree that it heads. -/
def truthTrace (assignment : Char → Bool) (t : Tree) : Trace where
  value := (t.holds assignment).toUInt8
  marks := t.heads.map fun head => (head.1.position, (head.2.holds assignment).toUInt8)
  annotations := t.subtrees.map fun s => (s.holds assignment).toUInt8

theorem truthTrace_negated (assignment : Char → Bool) (mark : Token) (t : Tree) :
    (negated mark t).truthTrace assignment = (t.truthTrace assignment).negate mark := by
  simp [truthTrace, Trace.negate, subtrees, holds, complement_toUInt8]

theorem truthTrace_bare (assignment : Char → Bool) (t : Tree) :
    (bare t).truthTrace assignment = (t.truthTrace assignment).forward := by
  simp [truthTrace, Trace.forward, subtrees, holds]

theorem truthTrace_formula (assignment : Char → Bool) (t : Tree) :
    (formula t).truthTrace assignment = (t.truthTrace assignment).forward := by
  simp [truthTrace, Trace.forward, subtrees, holds]

theorem truthTrace_composite (assignment : Char → Bool) {operator : Token} {k : Connective}
    (hk : operator.connective? = some k) (left right : Tree) :
    (composite left operator right).truthTrace assignment =
      .join operator k (left.truthTrace assignment) (right.truthTrace assignment) := by
  simp [truthTrace, Trace.join, subtrees, holds, hk, Connective.apply_toUInt8]

/-- The column of every token is marked once. -/
theorem map_fst_marks_perm (assignment : Char → Bool) (t : Tree) :
    ((t.truthTrace assignment).marks.map Prod.fst).Perm (t.tokens.map Token.position) := by
  simpa [truthTrace, Function.comp_def] using t.map_fst_heads_perm.map Token.position

/-- Evaluation stops at the first fault, or its trace is told by classical truth. -/
theorem trace_eq (v : Valuation) (t : Tree) :
    t.trace v =
      match t.firstFault v with
      | some fault => .error fault
      | none => .ok (t.truthTrace v.holds) := by
  induction t with
  | proposition negation letter =>
      cases found : v.get? letter.symbol with
      | none => simp [trace, Valuation.get, found, rootFault]
      | some value =>
          have bit := Valuation.eq_toUInt8_holds found
          cases negation <;>
            simp [trace, Valuation.get, found, rootFault, truthTrace, subtrees, rootHeads,
              holds, Trace.ofLetter, Trace.ofNegatedLetter, bit, complement_toUInt8]
  | negated mark operand ih =>
      rw [trace, ih, firstFault_negated, truthTrace_negated]
      cases operand.firstFault v <;> rfl
  | bare child ih =>
      rw [trace, ih, firstFault_bare, truthTrace_bare]
      cases child.firstFault v <;> rfl
  | composite left operator right ihl ihr =>
      rw [trace, ihl, ihr, firstFault_composite]
      -- The operator is looked at only if nothing is wrong with either operand.
      cases left.firstFault v with
      | some fault => rfl
      | none =>
          cases right.firstFault v with
          | some fault => rfl
          | none =>
              cases hk : operator.connective? with
              | none => simp [rootFault, hk]
              | some k => simp [rootFault, hk, truthTrace_composite v.holds hk]
  | formula child ih =>
      rw [trace, ih, firstFault_formula, truthTrace_formula]
      cases child.firstFault v <;> rfl

theorem trace_eq_error_iff {fault : Fault} :
    t.trace v = .error fault ↔ t.firstFault v = some fault := by
  rw [trace_eq]
  cases t.firstFault v <;> simp

theorem evaluate_eq_error_iff {width : Nat} {fault : Fault} :
    t.evaluate v width = .error fault ↔ t.firstFault v = some fault := by
  rw [← trace_eq_error_iff, evaluate]
  cases t.trace v <;> simp

theorem evaluate_eq_ok_iff {width : Nat} {evaluation : Evaluation} :
    t.evaluate v width = .ok evaluation ↔
      t.firstFault v = none ∧ evaluation =
        ⟨(t.truthTrace v.holds).value, Evaluation.layOut width (t.truthTrace v.holds).marks,
          (t.truthTrace v.holds).annotations⟩ := by
  rw [evaluate, trace_eq]
  cases t.firstFault v <;> simp [eq_comm]

theorem isOk_evaluate_iff {width : Nat} :
    (t.evaluate v width).isOk ↔ t.firstFault v = none := by
  rw [evaluate, trace_eq]
  cases t.firstFault v <;> simp [Except.isOk, Except.toBool]

/-! ### Numbers that occur -/

theorem value_le_one_of_trace {trace : Trace} (h : t.trace v = .ok trace) : trace.value ≤ 1 := by
  rw [trace_eq] at h
  split at h
  · cases h
  · cases h
    exact toUInt8_le_one _

/-- Checked arithmetic answers on every tree, and it gives the value that evaluation gives. -/
theorem checkedValue_eq (v : Valuation) (t : Tree) :
    t.checkedValue v = some ((t.trace v).map Trace.value) := by
  induction t with
  | proposition negation letter =>
      cases assigned : v.get letter.symbol with
      | error fault => cases negation <;> simp [checkedValue, trace, assigned, Except.map]
      | ok value =>
          have bit := Valuation.get?_le_one (Valuation.get_eq_ok_iff.1 assigned)
          cases negation <;>
            simp [checkedValue, trace, assigned, Except.map, checkedComplement_of_le_one bit,
              Trace.ofLetter, Trace.ofNegatedLetter]
  | negated mark operand ih =>
      rw [checkedValue, ih, trace]
      cases traced : operand.trace v with
      | error fault => rfl
      | ok inner =>
          have bit := value_le_one_of_trace traced
          simp [Except.map, checkedComplement_of_le_one bit, Trace.negate]
  | bare child ih | formula child ih =>
      rw [checkedValue, ih, trace]
      cases child.trace v <;> rfl
  | composite left operator right ihl ihr =>
      rw [checkedValue, ihl, ihr, trace]
      cases first : left.trace v with
      | error fault => rfl
      | ok a =>
          cases second : right.trace v with
          | error fault => rfl
          | ok b =>
              have applied (k : Connective) :
                  k.checkedApply a.value b.value = some (k.apply a.value b.value) :=
                k.checkedApply_of_le_one (value_le_one_of_trace first)
                  (value_le_one_of_trace second)
              cases hk : operator.connective? <;> simp [Except.map, applied, Trace.join]

end Tree

/-! ### Entries over more or fewer columns -/

namespace Evaluation

/-- The entry of a column is the last mark made in it. -/
theorem getElem?_layOut (width : Nat) (marks : List (Nat × UInt8)) (i : Nat) :
    (layOut width marks)[i]? = if i < width then some (marks.reverse.lookup i) else none := by
  induction marks using List.reverseRecOn with
  | nil => rw [layOut_nil, List.getElem?_replicate, List.reverse_nil, List.lookup_nil]
  | append_singleton marks mark ih =>
      rw [List.reverse_append, List.reverse_singleton, List.singleton_append, List.lookup_cons]
      rw [layOut, List.foldl_append, ← layOut, List.foldl_cons, List.foldl_nil, List.getElem?_set,
        length_layOut, ih]
      by_cases same : mark.1 = i
      · simp [same]
      · have other : (i == mark.1) = false := beq_eq_false_iff_ne.2 (Ne.symm same)
        simp only [if_neg same, other]

theorem layOut_prefix {width wider : Nat} (h : width ≤ wider) (marks : List (Nat × UInt8)) :
    layOut width marks <+: layOut wider marks := by
  rw [List.prefix_iff_getElem?]
  intro i inside
  rw [length_layOut] at inside
  rw [getElem?_layOut, if_pos (by omega), ← List.getElem?_eq_getElem, getElem?_layOut,
    if_pos inside]

/-- What an entry shows is a mark. -/
theorem exists_mark_of_mem_layOut {width : Nat} {marks : List (Nat × UInt8)} {x : UInt8}
    (h : some x ∈ layOut width marks) : ∃ column, (column, x) ∈ marks := by
  obtain ⟨i, found⟩ := List.mem_iff_getElem?.1 h
  rw [getElem?_layOut] at found
  split at found
  · obtain ⟨front, back, split, -⟩ := List.lookup_eq_some_iff.1 (Option.some.inj found)
    have member : (i, x) ∈ marks.reverse := by simp [split]
    exact ⟨i, List.mem_reverse.1 member⟩
  · cases found

/-- An evaluation over `width` columns tells the classical truth values of a tree and all its
subtrees, in bits. -/
structure Tells (evaluation : Evaluation) (t : Tree) (v : Valuation) (width : Nat) : Prop where
  value_eq : evaluation.value = (t.holds v.holds).toUInt8
  annotations_eq : evaluation.annotations = t.subtrees.map fun s => (s.holds v.holds).toUInt8
  getLast?_annotations : evaluation.annotations.getLast? = some evaluation.value
  annotations_le_one : ∀ x ∈ evaluation.annotations, x ≤ 1
  entries_le_one : ∀ x, some x ∈ evaluation.entries → x ≤ 1
  length_entries : evaluation.entries.length = width

/-- Two answers are the same but for entries, and the entries of the one begin those of the
other. -/
def Begins : Except Fault Evaluation → Except Fault Evaluation → Prop
  | .error fault, .error fault' => fault = fault'
  | .ok evaluation, .ok evaluation' =>
    evaluation.value = evaluation'.value ∧ evaluation.annotations = evaluation'.annotations ∧
      evaluation.entries <+: evaluation'.entries
  | .error _, .ok _ => False
  | .ok _, .error _ => False

end Evaluation

namespace Tree

variable {v : Valuation} {t : Tree}

theorem tells_of_evaluate {width : Nat} {evaluation : Evaluation}
    (h : t.evaluate v width = .ok evaluation) : evaluation.Tells t v width := by
  obtain ⟨-, rfl⟩ := evaluate_eq_ok_iff.1 h
  refine ⟨rfl, rfl, ?_, ?_, ?_, Evaluation.length_layOut _ _⟩
  · simp [truthTrace]
  · intro x member
    obtain ⟨s, -, rfl⟩ := List.mem_map.1 member
    exact toUInt8_le_one _
  · intro x member
    obtain ⟨column, marked⟩ := Evaluation.exists_mark_of_mem_layOut member
    obtain ⟨head, -, mark⟩ := List.mem_map.1 marked
    cases mark
    exact toUInt8_le_one _

theorem begins_evaluate {width wider : Nat} (h : width ≤ wider) :
    Evaluation.Begins (t.evaluate v width) (t.evaluate v wider) := by
  rw [evaluate, evaluate]
  cases t.trace v with
  | error fault => rfl
  | ok trace => exact ⟨rfl, rfl, Evaluation.layOut_prefix h trace.marks⟩

/-- Evaluation fails exactly at letters without a value and at operators that are no connectives,
with the fault of the first such node in post-order. Otherwise it tells the classical truth values
of all subtrees, and no complement on the way lies below 0. Columns make a difference to nothing but
the number of entries. -/
theorem evaluate_tells_truth (t : Tree) (v : Valuation) (width : Nat) :
    ((∃ fault, t.evaluate v width = .error fault) ↔
      (∃ negation letter, proposition negation letter ∈ t.subtrees ∧
        v.get? letter.symbol = none) ∨
      ∃ left operator right, composite left operator right ∈ t.subtrees ∧
        operator.connective? = none) ∧
    (∀ fault, t.evaluate v width = .error fault ↔ t.firstFault v = some fault) ∧
    (∀ evaluation, t.evaluate v width = .ok evaluation → evaluation.Tells t v width) ∧
    t.checkedValue v = some ((t.evaluate v width).map Evaluation.value) ∧
    ∀ wider, width ≤ wider → Evaluation.Begins (t.evaluate v width) (t.evaluate v wider) := by
  refine ⟨?_, ?_, ?_, ?_, ?_⟩
  · simp only [evaluate_eq_error_iff]
    exact exists_firstFault_iff
  · intro fault
    exact evaluate_eq_error_iff
  · intro evaluation evaluated
    exact tells_of_evaluate evaluated
  · rw [checkedValue_eq, evaluate]
    cases t.trace v <;> rfl
  · intro wider more
    exact begins_evaluate more

/-- The operator in the middle is a negation sign, and `r` has no value: the operator comes first in
post-order. With the operator put right and `r` given a value, the tree is a disjunction. -/
theorem evaluate_tells_truth_unknownConnective :
    let letter (c : Char) (column : Nat) : Tree := .proposition none ⟨.letter c, column⟩
    let tree (sign : Token.Kind) : Tree :=
      .composite (.composite (letter 'p' 0) ⟨sign, 2⟩ (letter 'q' 4)) ⟨.connective .disjunction, 6⟩
        (.bare (letter 'r' 8))
    (tree .negation).evaluate (.numbered ['p', 'q'] 2) 9 =
      .error (.unknownConnective ⟨.negation, 2⟩) ∧
    ∃ evaluation, (tree (.connective .implication)).evaluate (.numbered ['p', 'q', 'r'] 5) 9 =
      .ok evaluation ∧
      evaluation.Tells (tree (.connective .implication)) (.numbered ['p', 'q', 'r'] 5) 9 ∧
      evaluation.annotations = [1, 0, 0, 1, 1, 1] := by
  refine ⟨(evaluate_tells_truth _ _ 9).2.1 _ |>.2 (by decide), _, rfl, ?_, rfl⟩
  exact (evaluate_tells_truth _ _ 9).2.2.1 _ rfl

end Tree

end Sentential
