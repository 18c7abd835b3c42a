import Sentential.Proofs.Grammar
import Sentential.Proofs.Truth
import Sentential.Table.Findings

/-!
# The letters of a formula

A tree is evaluated by looking up its letters and nothing else. The tree of a text has exactly the
letters of the text, in their order, and its operators are connectives, so a valuation evaluates it
if it assigns the letters of the text.
-/

namespace Sentential

namespace Tree

/-- The letters of a tree from left to right. -/
def letters : Tree → List Char
  | proposition _ letter => [letter.symbol]
  | negated _ operand => operand.letters
  | bare child => child.letters
  | composite left _ right => left.letters ++ right.letters
  | formula child => child.letters

/-- The operators of all composites are connectives. -/
def Connected : Tree → Prop
  | proposition _ _ => True
  | negated _ operand => operand.Connected
  | bare child => child.Connected
  | composite left operator right =>
    left.Connected ∧ operator.connective?.isSome ∧ right.Connected
  | formula child => child.Connected

variable {t : Tree} {v w : Valuation}

/-- Valuations that agree on the letters of a tree give it the same trace. -/
theorem trace_congr (agree : ∀ c ∈ t.letters, v.get? c = w.get? c) : t.trace v = t.trace w := by
  induction t with
  | proposition negation letter =>
      have same : v.get letter.symbol = w.get letter.symbol := by
        rw [Valuation.get, Valuation.get, agree _ List.mem_cons_self]
      rw [trace, trace, same]
  | negated mark operand ih => rw [trace, trace, ih agree]
  | bare child ih => rw [trace, trace, ih agree]
  | composite left operator right ihl ihr =>
      rw [trace, trace, ihl fun c member => agree c (List.mem_append_left _ member),
        ihr fun c member => agree c (List.mem_append_right _ member)]
  | formula child ih => rw [trace, trace, ih agree]

theorem evaluate_congr (agree : ∀ c ∈ t.letters, v.get? c = w.get? c) (width : Nat) :
    t.evaluate v width = t.evaluate w width := by
  rw [evaluate, evaluate, trace_congr agree]

/-- With connectives for operators the first fault is the leftmost letter without a value. -/
theorem Connected.firstFault_eq (h : t.Connected) (v : Valuation) :
    t.firstFault v = (t.letters.find? fun c => (v.get? c).isNone).map Fault.unassigned := by
  induction t with
  | proposition negation letter =>
      cases found : v.get? letter.symbol <;> simp [rootFault, letters, found]
  | negated mark operand ih => rw [firstFault_negated, ih h, letters]
  | bare child ih => rw [firstFault_bare, ih h, letters]
  | composite left operator right ihl ihr =>
      obtain ⟨k, hk⟩ := Option.isSome_iff_exists.1 h.2.1
      rw [firstFault_composite, ihl h.1, ihr h.2.2, letters, List.find?_append]
      simp [rootFault, hk, Option.map_or]
  | formula child ih => rw [firstFault_formula, ih h, letters]

theorem Connected.firstFault_eq_none_iff (h : t.Connected) :
    t.firstFault v = none ↔ ∀ c ∈ t.letters, (v.get? c).isSome := by
  rw [h.firstFault_eq, Option.map_eq_none_iff, List.find?_eq_none]
  simp [Option.isSome_iff_ne_none]

theorem exists_evaluation (connected : t.Connected)
    (assigned : ∀ c ∈ t.letters, (v.get? c).isSome) (width : Nat) :
    ∃ evaluation, t.evaluate v width = .ok evaluation :=
  ⟨_, evaluate_eq_ok_iff.2 ⟨connected.firstFault_eq_none_iff.2 assigned, rfl⟩⟩

end Tree

/-- The letters among some signs. -/
def Sign.letters (signs : List (Sign × Nat)) : List Char :=
  signs.filterMap fun entry =>
    match entry.1 with
    | .letter c => some c
    | _ => none

theorem Spells.letters_eq {column : Nat} {text : List Char} {signs : List (Sign × Nat)}
    (h : Spells column text signs) : Sign.letters signs = text.filter isAlphabetic := by
  induction h with
  | nil => rfl
  | blank hb _ ih => rw [ih, List.filter_cons, isAlphabetic_eq_false_of_isBlank hb, if_neg nofun]
  | @sign column sign c text signs written _ ih =>
      rw [List.filter_cons, ← ih]
      cases sign with
      | letter d =>
          obtain ⟨rfl, alphabetic⟩ := written
          rw [if_pos alphabetic]
          rfl
      | connective k =>
          have hc : c = k.symbol := written
          subst hc
          cases k <;> rfl
      | negation | opening | closing => cases written; rfl

@[simp] theorem Reader.letters_grouped (t : Tree) : (grouped t).letters = t.letters := by
  cases t <;> rfl

namespace Derivation

variable {phrase : Phrase}

theorem letters_tree (d : Derivation phrase) : d.tree.letters = Sign.letters d.signs := by
  induction d with
  | joined left k column right ihl ihr =>
      rw [tree, Tree.letters, signs, Sign.letters, List.filterMap_append, ihl, ihr]
      rfl
  | single operand ih => exact ih
  | plain inner ih => exact ih
  | negatedGroup mark inner ih => exact ih
  | negatedOperand mark inner ih => exact ih
  | grouped inner ih => exact ih
  | enclosed first inner last ih =>
      rw [tree_enclosed, Reader.letters_grouped, ih, signs, Sign.letters, Sign.letters,
        List.filterMap_cons, List.filterMap_append]
      simp
  | letter c column => rfl
  | markedLetter mark c column => rfl

theorem connected_tree (d : Derivation phrase) : d.tree.Connected := by
  induction d with
  | joined left k column right ihl ihr => exact ⟨ihl, rfl, ihr⟩
  | enclosed first inner last ih =>
      rw [tree_enclosed]
      generalize inner.tree = t at ih
      cases t <;> exact ih
  | letter | markedLetter => trivial
  | single _ ih | plain _ ih | grouped _ ih => exact ih
  | negatedGroup _ _ ih | negatedOperand _ _ ih => exact ih

end Derivation

namespace Tree

variable {text : String} {t : Tree}

/-- The tree of a text has the letters of the text. -/
theorem letters_of_read (h : read text = .ok t) : t.letters = text.toList.filter isAlphabetic := by
  obtain ⟨d, spelled, -, rfl⟩ := exists_derivation_of_readChars (read_eq_ok_iff.1 h)
  rw [letters, d.letters_tree, spelled.letters_eq]

theorem mem_letters_of_read (h : read text = .ok t) {c : Char} :
    c ∈ t.letters ↔ c ∈ (Scan.ofText text).letters.toList := by
  rw [letters_of_read h, Scan.mem_letters_ofText, List.mem_filter]

theorem connected_of_read (h : read text = .ok t) : t.Connected := by
  obtain ⟨d, -, -, rfl⟩ := exists_derivation_of_readChars (read_eq_ok_iff.1 h)
  exact d.connected_tree

/-- A valuation of the letters of a text evaluates its tree. -/
theorem exists_evaluation_of_read (h : read text = .ok t) {v : Valuation}
    (assigned : ∀ c ∈ (Scan.ofText text).letters.toList, (v.get? c).isSome) (width : Nat) :
    ∃ evaluation, t.evaluate v width = .ok evaluation :=
  exists_evaluation (connected_of_read h)
    (fun c member => assigned c ((mem_letters_of_read h).1 member)) width

end Tree

end Sentential
