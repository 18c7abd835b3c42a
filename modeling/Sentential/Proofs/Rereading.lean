import Sentential.Proofs.Meaning
import Sentential.Proofs.RoundTrip

/-!
# Rereading keeps the meaning of a tree

The text of a tree that fits the grammar is read as the reread tree, which has the same letters and
connectives under the same negations: evaluation passes through roots and parentheses, and a mark
negates its letter as a node would. So the two trees have the same meaning, and where this is a
fault, it is a letter without a value.
-/

namespace Sentential.Tree

variable {t : Tree}

/-! ### Meaning and places -/

theorem joinValues_unplaced {operator : Token} (connects : operator.connective?.isSome)
    (left right : Except Fault UInt8) :
    joinValues operator.unplaced left right = joinValues operator left right := by
  obtain ⟨k, hk⟩ := Option.isSome_iff_exists.1 connects
  cases left with
  | error => rfl
  | ok a =>
      cases right with
      | error => rfl
      | ok b => simp only [joinValues, Token.unplaced_connective?, hk]

@[simp] theorem connected_shape (t : Tree) : t.shape.Connected ↔ t.Connected := by
  induction t with
  | proposition => rfl
  | negated mark operand ih => exact ih
  | bare child ih => exact ih
  | composite left operator right ihl ihr =>
      simp only [shape, Connected, Token.unplaced_connective?, ihl, ihr]
  | formula child ih => exact ih

/-- A fault would name an operator with its place, but only one that is no connective. -/
theorem Connected.valueUnder_shape (h : t.Connected) (v : Valuation) :
    t.shape.valueUnder v = t.valueUnder v := by
  induction t with
  | proposition negation letter =>
      cases negation with
      | none => simp only [shape, Option.map_none, valueUnder_letter, Token.unplaced_symbol]
      | some mark =>
          simp only [shape, Option.map_some, valueUnder_negatedLetter, Token.unplaced_symbol]
  | negated mark operand ih => rw [shape, valueUnder_negated, ih h, valueUnder_negated]
  | bare child ih => rw [shape, valueUnder_bare, ih h, valueUnder_bare]
  | composite left operator right ihl ihr =>
      rw [shape, valueUnder_composite, ihl h.1, ihr h.2.2, joinValues_unplaced h.2.1,
        valueUnder_composite]
  | formula child ih => rw [shape, valueUnder_formula, ih h, valueUnder_formula]

theorem Similar.valueUnder_eq {a b : Tree} (h : Similar a b) (connected : a.Connected)
    (v : Valuation) : a.valueUnder v = b.valueUnder v := by
  have connected' : b.Connected := by rwa [← connected_shape, ← h, connected_shape]
  rw [← connected.valueUnder_shape, h, connected'.valueUnder_shape]

/-- The only fault of a tree with connectives for operators is a letter without a value. -/
theorem Connected.exists_unassigned {v : Valuation} {fault : Fault} (h : t.Connected)
    (failed : t.valueUnder v = .error fault) :
    ∃ c ∈ t.letters, v.get? c = none ∧ fault = .unassigned c := by
  rw [valueUnder, map_eq_error_iff, trace_eq_error_iff, h.firstFault_eq] at failed
  obtain ⟨c, first, rfl⟩ := Option.map_eq_some_iff.1 failed
  exact ⟨c, List.mem_of_find?_eq_some first, by simpa using List.find?_some first, rfl⟩

theorem Fitting.connected (h : t.Fitting) : t.Connected := by
  induction t with
  | proposition => trivial
  | negated mark operand ih => exact ih h.2
  | bare child ih => exact ih h
  | composite left operator right ihl ihr => exact ⟨ihl h.1, h.2.1, ihr h.2.2⟩
  | formula child ih => exact ih h

/-! ### Meaning of the reread tree -/

theorem valueUnder_marked (v : Valuation) (position : Nat) (t : Tree) :
    (t.marked position).valueUnder v = (t.valueUnder v).map complement := by
  cases t with
  | proposition negation letter =>
      cases negation with
      | none => rw [marked, valueUnder_negatedLetter, valueUnder_letter]
      | some mark => exact valueUnder_negated v _ _
  | negated | bare | composite | formula => exact valueUnder_negated v _ _

theorem valueUnder_grouped (v : Valuation) (t : Tree) :
    (Reader.grouped t).valueUnder v = t.valueUnder v := by
  cases t with
  | proposition negation letter => exact valueUnder_bare v _
  | negated | bare | composite | formula => rfl

theorem valueUnder_reread (v : Valuation) (t : Tree) : t.reread.valueUnder v = t.valueUnder v := by
  induction t with
  | proposition negation letter =>
      cases negation with
      | none => rfl
      | some mark =>
          rw [reread, valueUnder_marked, valueUnder_letter, valueUnder_negatedLetter]
  | negated mark operand ih => rw [reread, valueUnder_marked, ih, valueUnder_negated]
  | bare child ih => rw [reread, valueUnder_grouped, ih, valueUnder_bare]
  | composite left operator right ihl ihr =>
      rw [reread, valueUnder_composite, ihl, ihr, valueUnder_composite]
  | formula child ih => rw [reread, ih, valueUnder_formula]

/-- Every tree whose tokens fit can be written out and read again, whatever nodes stand over one
another. The tree that is read is written with the same characters and has the same value under
every valuation, or the same letter without a value. -/
theorem read_text_of_fitting (fits : t.Fitting) :
    ∃ back, read t.text = .ok back ∧
      back.tokens.map Token.symbol = t.tokens.map Token.symbol ∧
      ∀ v width width',
        (back.evaluate v width).map Evaluation.value = (t.evaluate v width').map Evaluation.value ∧
        ∀ fault, t.evaluate v width' = .error fault →
          ∃ c ∈ t.letters, v.get? c = none ∧ fault = .unassigned c := by
  obtain ⟨back, readBack, similar⟩ := fits.read_text
  refine ⟨back, readBack, ?_, ?_⟩
  · exact similar.map_symbol_tokens.trans fits.map_symbol_tokens
  · intro v width width'
    constructor
    · have same := similar.valueUnder_eq (connected_of_read readBack) v
      rw [map_value_evaluate, map_value_evaluate, same, valueUnder_formula, valueUnder_reread]
    · intro fault failed
      refine fits.connected.exists_unassigned ?_
      rw [← map_value_evaluate t v width', failed]
      rfl

/-- A root over a root and roots inside, a negation node over a letter without a mark, and
parentheses of their own around a composite and around parentheses. -/
theorem read_text_of_fitting_nested :
    let p : Tree := .proposition none ⟨.letter 'p', 7⟩
    let q : Tree := .proposition none ⟨.letter 'q', 7⟩
    let inner : Tree := .composite (.formula q) ⟨.connective .conjunction, 2⟩ (.bare (.bare p))
    let outer : Tree :=
      .composite (.negated ⟨.negation, 0⟩ p) ⟨.connective .implication, 1⟩ (.bare inner)
    let t : Tree := .formula (.formula (.negated ⟨.negation, 3⟩ (.formula outer)))
    t.Fitting ∧ ∃ back, read "~(~p > (q & ((p))))" = .ok back ∧
      back.tokens.map Token.symbol = ['~', '~', 'p', '>', 'q', '&', 'p'] ∧
      ∀ v, (back.evaluate v 0).map Evaluation.value = (t.evaluate v 0).map Evaluation.value := by
  intro p q inner outer t
  have fits : t.Fitting := by decide
  obtain ⟨back, readBack, symbols, same⟩ := read_text_of_fitting fits
  exact ⟨fits, back, readBack, symbols, fun v => (same v 0 0).1⟩

end Sentential.Tree
