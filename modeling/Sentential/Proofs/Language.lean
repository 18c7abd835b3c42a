import Mathlib.Logic.Function.Iterate
import Sentential.Proofs.Meaning
import Sentential.Proofs.RoundTrip

/-!
# Rewriting stays inside the language

The rules take canonical trees to canonical trees. The negation of a regular tree is regular, since
it is put around composites only, and a pass leaves a node unmarked only if it was, so no negation
sign comes to stand before an unmarked letter. So what passes make of the tree of a text can be
written out and read back.
-/

namespace Sentential.Tree

variable {eliminate : Bool} {t : Tree}

theorem Regular.opposite (h : t.Regular) : t.opposite.Regular := by
  induction t with
  | proposition negation letter =>
      cases negation with
      | none => exact ⟨by simp, h.2⟩
      | some mark => exact ⟨nofun, h.2⟩
  | negated mark operand => exact h.2.2
  | bare child ih => exact ih h.2
  | composite left operator right => exact ⟨rfl, rfl, h⟩
  | formula child => exact h.elim

@[simp] theorem isUnmarked_pass (eliminate : Bool) (t : Tree) :
    (t.pass eliminate).isUnmarked = t.isUnmarked := by
  cases t with
  | proposition | bare | formula => rfl
  | negated mark operand =>
      obtain ⟨_, _, _, _, _, _, passed⟩ | ⟨-, passed⟩ := pass_negated_cases eliminate mark operand
      all_goals rw [passed]; rfl
  | composite left operator right =>
      obtain ⟨-, passed⟩ | ⟨-, passed⟩ := pass_composite_cases eliminate left operator right
      all_goals rw [passed]; rfl

theorem Regular.pass (h : t.Regular) (eliminate : Bool) : (t.pass eliminate).Regular := by
  induction t with
  | proposition => exact h
  | negated mark operand ih =>
      have inner := ih h.2.2
      obtain ⟨left, operator, right, dual, hp, -, passed⟩ | ⟨-, passed⟩ :=
        pass_negated_cases eliminate mark operand
      · rw [hp] at inner
        rw [passed]
        exact ⟨inner.1.opposite, rfl, inner.2.2.opposite⟩
      · rw [passed]
        exact ⟨h.1, (isUnmarked_pass eliminate operand).trans h.2.1, inner⟩
  | bare child ih =>
      obtain ⟨alone, regular⟩ := h
      cases child with
      | proposition => exact ⟨rfl, regular⟩
      | negated | bare | composite | formula => cases alone
  | composite left operator right ihl ihr =>
      obtain ⟨-, passed⟩ | ⟨-, passed⟩ := pass_composite_cases eliminate left operator right
      · rw [passed]
        exact ⟨(ihl h.1).opposite, rfl, ihr h.2.2⟩
      · rw [passed]
        exact ⟨ihl h.1, h.2.1, ihr h.2.2⟩
  | formula => exact h.elim

theorem Canonical.pass (h : t.Canonical) (eliminate : Bool) : (t.pass eliminate).Canonical := by
  cases t with
  | formula child => exact Regular.pass h eliminate
  | proposition | negated | bare | composite => exact h.elim

theorem Canonical.iterate_pass (h : t.Canonical) (eliminate : Bool) (count : Nat) :
    ((Tree.pass eliminate)^[count] t).Canonical := by
  induction count generalizing t with
  | zero => exact h
  | succ count ih => exact ih (h.pass eliminate)

theorem Canonical.normalize (h : t.Canonical) (eliminate : Bool) :
    (t.normalize eliminate).Canonical := by
  rw [normalize_eq_iterate_pass]
  exact h.iterate_pass eliminate _

/-- After any number of passes over the tree of a text, and at their fixed point, the text of the
tree is read as the tree itself, places apart. -/
theorem read_text_rewritten {text : String} (h : read text = .ok t) (eliminate : Bool) :
    (∀ count, ∃ back, read ((pass eliminate)^[count] t).text = .ok back ∧
      Similar back ((pass eliminate)^[count] t)) ∧
    ∃ back, read (t.normalize eliminate).text = .ok back ∧
      Similar back (t.normalize eliminate) := by
  have canonical := canonical_of_read h
  constructor
  · intro count
    exact (canonical.iterate_pass eliminate count).read_text
  · exact (canonical.normalize eliminate).read_text

/-- The first pass leaves a new redex, `~(~r | ~~~(s))`; the second one takes a sign from a letter
and one from a double negation. -/
theorem read_text_rewritten_nested :
    ∃ t, read "~(~(p = q) | ((r) > ~~~(s)))" = .ok t ∧
      ((pass true)^[2] t).text = "(p = q) & (r & ~~(s))" ∧
      (∃ back, read "(p = q) & (r & ~~(s))" = .ok back ∧ Similar back ((pass true)^[2] t)) ∧
      ∃ back, read (t.normalize true).text = .ok back ∧ Similar back (t.normalize true) := by
  obtain ⟨t, h⟩ : ∃ t, read "~(~(p = q) | ((r) > ~~~(s)))" = .ok t := ⟨_, rfl⟩
  obtain ⟨counted, settled⟩ := read_text_rewritten h true
  have twice : ((pass true)^[2] t).text = "(p = q) & (r & ~~(s))" := by
    cases h
    rfl
  exact ⟨t, h, twice, twice ▸ counted 2, settled⟩

end Sentential.Tree
