import Sentential.Rewriting.Redex

/-!
# Rewriting to a fixed point

Passes are repeated until one leaves the tree as it was, places apart. This ends because every pass
that changes a tree lowers the height of its highest redex.
-/

namespace Sentential

/-- A tree's way to its fixed point: the results of the passes that changed it, and the result of
the one that did not. -/
structure Rewritings where
  earlier : List Tree
  final : Tree
  deriving DecidableEq, Repr

/-- How many passes there were; the last one only finds that nothing changes. -/
def Rewritings.passCount (way : Rewritings) : Nat :=
  way.earlier.length + 1

namespace Tree

/-- The passes from a tree to its fixed point. -/
def rewritings (eliminate : Bool) (t : Tree) : Rewritings :=
  if Similar (t.pass eliminate) t then ⟨[], t.pass eliminate⟩
  else
    let rest := rewritings eliminate (t.pass eliminate)
    ⟨t.pass eliminate :: rest.earlier, rest.final⟩
termination_by t.redexHeight eliminate
decreasing_by exact redexHeight_pass_lt (by assumption)

/-- The fixed point that passes over a tree reach. -/
def normalize (eliminate : Bool) (t : Tree) : Tree :=
  (t.rewritings eliminate).final

theorem rewritings_of_similar {eliminate : Bool} {t : Tree}
    (h : Similar (t.pass eliminate) t) : t.rewritings eliminate = ⟨[], t.pass eliminate⟩ := by
  rw [rewritings, if_pos h]

theorem rewritings_of_not_similar {eliminate : Bool} {t : Tree}
    (h : ¬ Similar (t.pass eliminate) t) :
    t.rewritings eliminate =
      ⟨t.pass eliminate :: ((t.pass eliminate).rewritings eliminate).earlier,
        ((t.pass eliminate).rewritings eliminate).final⟩ := by
  rw [rewritings, if_neg h]

theorem normalize_of_similar {eliminate : Bool} {t : Tree}
    (h : Similar (t.pass eliminate) t) : t.normalize eliminate = t.pass eliminate := by
  rw [normalize, rewritings_of_similar h]

theorem normalize_of_not_similar {eliminate : Bool} {t : Tree}
    (h : ¬ Similar (t.pass eliminate) t) :
    t.normalize eliminate = (t.pass eliminate).normalize eliminate := by
  rw [normalize, rewritings_of_not_similar h, normalize]

end Tree

end Sentential
