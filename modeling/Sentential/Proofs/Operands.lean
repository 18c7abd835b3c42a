import Mathlib.Data.List.Forall2
import Sentential.Proofs.Meaning
import Sentential.Proofs.Tokens

/-!
# Rewriting leaves the operands in their places

The rules put negation signs and take them away, and they exchange operators. All letters and all
operators stay where they are, in the same order. A sign that is put takes the column of the token
behind it, so no column comes to be used that was not, and columns that went from left to right
still do.

`Preserves` says this of two trees. It is kept when nodes are put around the trees, so a pass has it
by induction over the tree; it is transitive, so any number of passes have it.
-/

namespace Sentential

/-- What rewriting can make of an operator, in its column: a conjunction and a disjunction turn into
each other, and an implication that is eliminated turns into either of them. -/
inductive Token.RewritesTo (eliminate : Bool) (operator : Token) : Token → Prop
  | unchanged : RewritesTo eliminate operator operator
  | swapped {k dual : Connective} (own : operator.kind = .connective k)
      (hd : k.dual? = some dual) :
      RewritesTo eliminate operator ⟨.connective dual, operator.position⟩
  | eliminated {k : Connective} (set : eliminate = true)
      (own : operator.kind = .connective .implication)
      (junction : k = .disjunction ∨ k = .conjunction) :
      RewritesTo eliminate operator ⟨.connective k, operator.position⟩

namespace Token.RewritesTo

variable {eliminate : Bool} {a b c : Token}

theorem position_eq (h : RewritesTo eliminate a b) : b.position = a.position := by
  cases h <;> rfl

theorem trans (hab : RewritesTo eliminate a b) (hbc : RewritesTo eliminate b c) :
    RewritesTo eliminate a c := by
  cases hab with
  | unchanged => exact hbc
  | @swapped k dual own hd =>
      cases hbc with
      | unchanged => exact .swapped own hd
      | swapped own' hd' =>
          -- The dual of the dual is the operator itself.
          cases own'
          rw [Connective.dual?_dual? hd, Option.some.injEq] at hd'
          subst hd'
          rw [← own]
          exact .unchanged
      | eliminated set own' junction =>
          cases own'
          cases k <;> cases hd
  | eliminated set own junction =>
      cases hbc with
      | unchanged => exact .eliminated set own junction
      | swapped own' hd =>
          cases own'
          refine .eliminated set own ?_
          obtain rfl | rfl := junction <;> cases hd
          · exact .inr rfl
          · exact .inl rfl
      | eliminated _ _ junction' => exact .eliminated set own junction'

/-- Operators are rewritten one by one, however often. -/
theorem forall₂_trans {as bs cs : List Token} (hab : List.Forall₂ (RewritesTo eliminate) as bs)
    (hbc : List.Forall₂ (RewritesTo eliminate) bs cs) :
    List.Forall₂ (RewritesTo eliminate) as cs := by
  induction hab generalizing cs with
  | nil => exact hbc
  | cons first _ ih =>
      cases hbc with
      | cons second rest => exact .cons (first.trans second) (ih rest)

end Token.RewritesTo

namespace Tree

/-- The tokens of the letters of a tree, from left to right. -/
def letterTokens : Tree → List Token
  | proposition _ letter => [letter]
  | negated _ operand => operand.letterTokens
  | bare child => child.letterTokens
  | composite left _ right => left.letterTokens ++ right.letterTokens
  | formula child => child.letterTokens

/-- The operators of the composites of a tree, from left to right. -/
def operators : Tree → List Token
  | proposition _ _ => []
  | negated _ operand => operand.operators
  | bare child => child.operators
  | composite left operator right => left.operators ++ operator :: right.operators
  | formula child => child.operators

theorem map_symbol_letterTokens (t : Tree) : t.letterTokens.map Token.symbol = t.letters := by
  induction t with
  | proposition negation letter => rfl
  | negated mark operand ih => exact ih
  | bare child ih | formula child ih => exact ih
  | composite left operator right ihl ihr =>
      rw [letterTokens, List.map_append, ihl, ihr, letters]

/-- The columns of the tokens of a tree, from left to right. -/
def columns (t : Tree) : List Nat :=
  t.tokens.map Token.position

/-- No token stands left of a token that it follows. -/
def Ordered (t : Tree) : Prop :=
  t.columns.Pairwise (· ≤ ·)

instance : DecidablePred Ordered :=
  fun t => inferInstanceAs (Decidable (t.columns.Pairwise (· ≤ ·)))

variable {eliminate : Bool} {t r left right : Tree} {mark letter operator : Token}

@[simp] theorem columns_letter : (proposition none letter).columns = [letter.position] := rfl

@[simp] theorem columns_negatedLetter :
    (proposition (some mark) letter).columns = [mark.position, letter.position] := rfl

@[simp] theorem columns_negated : (negated mark t).columns = mark.position :: t.columns := rfl

@[simp] theorem columns_bare : (bare t).columns = t.columns := rfl

@[simp] theorem columns_composite :
    (composite left operator right).columns =
      left.columns ++ operator.position :: right.columns := by
  simp [columns, tokens]

@[simp] theorem columns_formula : (formula t).columns = t.columns := rfl

/-! ### Columns from left to right -/

/-- The columns of a tree go from left to right, where operators stand `apart` from the tokens on
either side, and negation signs may share a column with what follows them. -/
def Spaced (apart : Nat → Nat → Prop) : Tree → Prop
  | proposition negation letter => ∀ mark, negation = some mark → mark.position ≤ letter.position
  | negated mark operand => (∀ i ∈ operand.columns, mark.position ≤ i) ∧ operand.Spaced apart
  | bare child => child.Spaced apart
  | composite left operator right =>
    (left.Spaced apart ∧ ∀ i ∈ left.columns, apart i operator.position) ∧
      right.Spaced apart ∧ ∀ i ∈ right.columns, apart operator.position i
  | formula child => child.Spaced apart

variable {apart : Nat → Nat → Prop}

theorem Spaced.ordered (le : ∀ i j, apart i j → i ≤ j) (h : t.Spaced apart) : t.Ordered := by
  unfold Ordered
  induction t with
  | proposition negation letter =>
      cases negation with
      | none => simp
      | some mark => simpa using h mark rfl
  | negated mark operand ih => exact List.pairwise_cons.2 ⟨h.1, ih h.2⟩
  | bare child ih | formula child ih => exact ih h
  | composite left operator right ihl ihr =>
      obtain ⟨⟨first, before⟩, second, behind⟩ := h
      rw [columns_composite, List.pairwise_append, List.pairwise_cons]
      refine ⟨ihl first, ⟨fun i member => le _ _ (behind i member), ihr second⟩, ?_⟩
      intro i hi j hj
      have low := le _ _ (before i hi)
      rcases List.mem_cons.1 hj with rfl | hj
      · exact low
      · exact Nat.le_trans low (le _ _ (behind j hj))

theorem spaced_of_pairwise (le : ∀ i j, apart i j → i ≤ j) (h : t.columns.Pairwise apart) :
    t.Spaced apart := by
  induction t with
  | proposition negation letter =>
      rintro mark rfl
      exact le _ _ (List.rel_of_pairwise_cons h List.mem_cons_self)
  | negated mark operand ih =>
      obtain ⟨first, rest⟩ := List.pairwise_cons.1 h
      exact ⟨fun i member => le _ _ (first i member), ih rest⟩
  | bare child ih | formula child ih => exact ih h
  | composite left operator right ihl ihr =>
      rw [columns_composite, List.pairwise_append, List.pairwise_cons] at h
      obtain ⟨first, ⟨behind, second⟩, across⟩ := h
      exact ⟨⟨ihl first, fun i member => across i member _ List.mem_cons_self⟩, ihr second, behind⟩

theorem leadingPosition_mem (t : Tree) : t.leadingPosition ∈ t.columns := by
  rw [leadingPosition, columns]
  split
  · next none => exact absurd none t.tokens_ne_nil
  · next first rest found => simp [found]

theorem Ordered.leadingPosition_le (h : t.Ordered) : ∀ i ∈ t.columns, t.leadingPosition ≤ i := by
  rw [Ordered, columns] at h
  rw [leadingPosition, columns]
  split
  · next none => exact absurd none t.tokens_ne_nil
  · next first rest found =>
    rw [found, List.map_cons] at h ⊢
    exact List.forall_mem_cons.2 ⟨Nat.le_refl _, (List.pairwise_cons.1 h).1⟩

/-- The last token of a tree is a letter. -/
theorem exists_last (t : Tree) :
    ∃ last front letters, t.columns = front ++ [last.position] ∧
      t.letterTokens = letters ++ [last] := by
  induction t with
  | proposition negation letter =>
      refine ⟨letter, (negation.map Token.position).toList, [], ?_, rfl⟩
      cases negation <;> rfl
  | negated mark operand ih =>
      obtain ⟨last, front, letters, hcolumns, hletters⟩ := ih
      refine ⟨last, mark.position :: front, letters, ?_, hletters⟩
      rw [columns_negated, hcolumns, List.cons_append]
  | bare child ih | formula child ih => exact ih
  | composite left operator right ihl ihr =>
      obtain ⟨last, front, letters, hcolumns, hletters⟩ := ihr
      refine ⟨last, left.columns ++ operator.position :: front, left.letterTokens ++ letters,
        ?_, ?_⟩
      · rw [columns_composite, hcolumns, List.append_assoc, List.cons_append]
      · rw [letterTokens, hletters, List.append_assoc]

theorem width_le_iff {n : Nat} : t.width ≤ n ↔ ∀ i ∈ t.columns, i < n := by
  suffices h : ∀ (tokens : List Token) (start : Nat),
      tokens.foldl (fun columns token => max columns (token.position + 1)) start ≤ n ↔
        start ≤ n ∧ ∀ token ∈ tokens, token.position < n by
    simpa [width, columns] using h t.tokens 0
  intro tokens
  induction tokens with
  | nil => simp
  | cons token rest ih =>
      intro start
      rw [List.foldl_cons, ih, List.forall_mem_cons, Nat.max_le, and_assoc]
      exact Iff.rfl

/-- The width of a tree whose columns go from left to right is told by its last letter. -/
theorem Ordered.width_eq (h : t.Ordered) {last : Token} {letters : List Token}
    (hletters : t.letterTokens = letters ++ [last]) : t.width = last.position + 1 := by
  obtain ⟨last', front, letters', hcolumns, hletters'⟩ := t.exists_last
  obtain rfl : last = last' := by
    have same := congrArg List.getLast? (hletters.symm.trans hletters')
    simpa using same
  rw [Ordered, hcolumns, List.pairwise_append] at h
  apply Nat.le_antisymm
  · rw [width_le_iff, hcolumns]
    intro i member
    rcases List.mem_append.1 member with before | here
    · exact Nat.lt_succ_of_le (h.2.2 i before _ List.mem_cons_self)
    · exact List.mem_singleton.1 here ▸ Nat.lt_succ_self _
  · refine width_le_iff.1 (Nat.le_refl t.width) _ ?_
    rw [hcolumns]
    exact List.mem_append_right _ List.mem_cons_self

/-! ### What rewriting preserves -/

/-- The operands of a tree are those of another one, with operators that rewriting can make of
the operators there. They stand in columns of the other tree, from left to right as there. -/
structure Preserves (eliminate : Bool) (t r : Tree) : Prop where
  letterTokens_eq : r.letterTokens = t.letterTokens
  operators : List.Forall₂ (Token.RewritesTo eliminate) t.operators r.operators
  columns_subset : r.columns ⊆ t.columns
  spaced : ∀ apart : Nat → Nat → Prop, (∀ i j, apart i j → i ≤ j) →
    t.Spaced apart → r.Spaced apart

namespace Preserves

variable {t' left' right' : Tree} {operator' : Token}

theorem refl (t : Tree) : Preserves eliminate t t where
  letterTokens_eq := rfl
  operators := List.forall₂_same.2 fun _ _ => .unchanged
  columns_subset := List.Subset.refl _
  spaced _ _ h := h

theorem trans (h : Preserves eliminate t t') (h' : Preserves eliminate t' r) :
    Preserves eliminate t r where
  letterTokens_eq := h'.letterTokens_eq.trans h.letterTokens_eq
  operators := Token.RewritesTo.forall₂_trans h.operators h'.operators
  columns_subset := List.Subset.trans h'.columns_subset h.columns_subset
  spaced apart le spaced := h'.spaced apart le (h.spaced apart le spaced)

/-! Nodes put around trees. -/

theorem bare (h : Preserves eliminate t t') : Preserves eliminate (.bare t) (.bare t') :=
  ⟨h.letterTokens_eq, h.operators, h.columns_subset, h.spaced⟩

theorem formula (h : Preserves eliminate t t') : Preserves eliminate (.formula t) (.formula t') :=
  ⟨h.letterTokens_eq, h.operators, h.columns_subset, h.spaced⟩

theorem negated (mark : Token) (h : Preserves eliminate t t') :
    Preserves eliminate (.negated mark t) (.negated mark t') where
  letterTokens_eq := h.letterTokens_eq
  operators := h.operators
  columns_subset := List.cons_subset_cons _ h.columns_subset
  spaced apart le := by
    rintro ⟨first, spaced⟩
    exact ⟨fun i member => first i (h.columns_subset member), h.spaced apart le spaced⟩

theorem composite (hl : Preserves eliminate left left')
    (ho : Token.RewritesTo eliminate operator operator') (hr : Preserves eliminate right right') :
    Preserves eliminate (.composite left operator right) (.composite left' operator' right') where
  letterTokens_eq := by
    rw [letterTokens, hl.letterTokens_eq, hr.letterTokens_eq, letterTokens]
  operators := List.rel_append hl.operators (.cons ho hr.operators)
  columns_subset := by
    rw [columns_composite, columns_composite, ho.position_eq]
    apply List.append_subset.2
    constructor
    · exact List.subset_append_of_subset_left _ hl.columns_subset
    · exact List.subset_append_of_subset_right _ (List.cons_subset_cons _ hr.columns_subset)
  spaced apart le := by
    rintro ⟨⟨first, before⟩, second, behind⟩
    rw [Spaced, ho.position_eq]
    refine ⟨⟨hl.spaced apart le first, ?_⟩, hr.spaced apart le second, ?_⟩
    · exact fun i member => before i (hl.columns_subset member)
    · exact fun i member => behind i (hr.columns_subset member)

/-! Signs taken away and put. -/

theorem unmarked (mark : Token) (t : Tree) : Preserves eliminate (.negated mark t) t where
  letterTokens_eq := rfl
  operators := (refl t).operators
  columns_subset := List.subset_cons_self _ _
  spaced _ _ h := h.2

theorem marked (t : Tree) :
    Preserves eliminate t (.negated ⟨.negation, t.leadingPosition⟩ t) where
  letterTokens_eq := rfl
  operators := (refl t).operators
  columns_subset := List.cons_subset.2 ⟨t.leadingPosition_mem, List.Subset.refl _⟩
  spaced _ le h := ⟨(h.ordered le).leadingPosition_le, h⟩

theorem opposite (t : Tree) : Preserves eliminate t t.opposite := by
  induction t with
  | proposition negation letter =>
      cases negation with
      | none =>
          refine ⟨rfl, .nil, ?_, fun _ _ _ => ?_⟩
          · simp [Tree.opposite]
          · rintro mark ⟨⟩
            exact Nat.le_refl _
      | some mark =>
          refine ⟨rfl, .nil, List.subset_cons_self _ _, fun _ _ _ => ?_⟩
          intro other own
          cases own
  | negated mark operand => exact unmarked mark operand
  | bare child ih => exact ⟨ih.letterTokens_eq, ih.operators, ih.columns_subset, ih.spaced⟩
  | composite left operator right => exact marked _
  | formula child => exact marked _

theorem pass (eliminate : Bool) (t : Tree) : Preserves eliminate t (t.pass eliminate) := by
  induction t with
  | proposition => exact refl _
  | negated mark operand ih =>
      obtain ⟨left, operator, right, dual, hp, hd, passed⟩ | ⟨-, passed⟩ :=
        pass_negated_cases eliminate mark operand
      · rw [hp] at ih
        rw [passed]
        obtain ⟨k, hk, hkd⟩ := exists_connective_of_dualOf? hd
        have swapped : Token.RewritesTo eliminate operator ⟨.connective dual, operator.position⟩ :=
          .swapped (Token.kind_of_connective? hk) hkd
        exact (unmarked mark operand).trans
          (ih.trans (composite (opposite left) swapped (opposite right)))
      · rw [passed]
        exact ih.negated mark
  | bare child ih => exact ih.bare
  | composite left operator right ihl ihr =>
      obtain ⟨implication, passed⟩ | ⟨-, passed⟩ :=
        pass_composite_cases eliminate left operator right
      · rw [passed]
        obtain ⟨set, own⟩ := Bool.and_eq_true_iff.1 implication
        have own := Token.kind_of_connective? (of_decide_eq_true own)
        exact composite (ihl.trans (opposite _)) (.eliminated set own (.inl rfl)) ihr
      · rw [passed]
        exact composite ihl .unchanged ihr
  | formula child ih => exact ih.formula

theorem iterate_pass (eliminate : Bool) (count : Nat) (t : Tree) :
    Preserves eliminate t ((Tree.pass eliminate)^[count] t) := by
  induction count generalizing t with
  | zero => exact refl t
  | succ count ih => exact (pass eliminate t).trans (ih (t.pass eliminate))

theorem ordered (h : Preserves eliminate t r) (ordered : t.Ordered) : r.Ordered := by
  have le (i j : Nat) (le : i ≤ j) : i ≤ j := le
  exact (h.spaced _ le (spaced_of_pairwise le ordered)).ordered le

theorem width_eq (h : Preserves eliminate t r) (ordered : t.Ordered) : r.width = t.width := by
  obtain ⟨last, front, letters, -, hletters⟩ := t.exists_last
  rw [ordered.width_eq hletters, (h.ordered ordered).width_eq (h.letterTokens_eq.trans hletters)]

end Preserves

/-! ### Any number of passes -/

/-- A tree has the operands of another one in their places: the same letters, one after the other,
and the same operators or what rewriting can make of them. If the columns of the other tree go from
left to right, so do its own, and they end in the same place. -/
structure KeepsOperands (eliminate : Bool) (t r : Tree) : Prop where
  letterTokens_eq : r.letterTokens = t.letterTokens
  operators : List.Forall₂ (Token.RewritesTo eliminate) t.operators r.operators
  ordered : t.Ordered → r.Ordered
  width_eq : t.Ordered → r.width = t.width

theorem Preserves.keepsOperands (h : Preserves eliminate t r) : KeepsOperands eliminate t r :=
  ⟨h.letterTokens_eq, h.operators, h.ordered, h.width_eq⟩

theorem ordered_of_read {text : String} (h : read text = .ok t) : t.Ordered :=
  (pairwise_position_of_read h).imp Nat.le_of_lt

/-- Any number of passes, and the rewriting to the fixed point, leave the operands of a tree in
their places, whatever the places are. In the tree of a text they go from left to right. -/
theorem operands_rewritten (eliminate : Bool) (t : Tree) :
    (∀ count, KeepsOperands eliminate t ((pass eliminate)^[count] t)) ∧
    KeepsOperands eliminate t (t.normalize eliminate) ∧
    ∀ text, read text = .ok t → t.Ordered := by
  have counted (count : Nat) : KeepsOperands eliminate t ((pass eliminate)^[count] t) :=
    (Preserves.iterate_pass eliminate count t).keepsOperands
  refine ⟨counted, ?_, fun text read => ordered_of_read read⟩
  rw [normalize_eq_iterate_pass]
  exact counted _

/-- The implication turns into a disjunction in the first pass and into a conjunction in the
second one; the signs that the first pass has put share a column with a letter. -/
theorem operands_rewritten_nested :
    ∃ t, read "~(~(p & q) | (r > s))" = .ok t ∧ t.Ordered ∧
      ((pass true)^[2] t).text = "(p & q) & (r & ~s)" ∧
      ((pass true)^[2] t).letterTokens =
        [⟨.letter 'p', 4⟩, ⟨.letter 'q', 8⟩, ⟨.letter 'r', 14⟩, ⟨.letter 's', 18⟩] ∧
      ((pass true)^[2] t).columns = [4, 6, 8, 11, 14, 16, 18, 18] ∧
      ((pass true)^[2] t).width = t.width := by
  obtain ⟨t, h⟩ : ∃ t, read "~(~(p & q) | (r > s))" = .ok t := ⟨_, rfl⟩
  obtain ⟨counted, -, places⟩ := operands_rewritten true t
  have kept := counted 2
  have ordered := places _ h
  refine ⟨t, h, ordered, ?_, ?_, ?_, kept.width_eq ordered⟩
  · cases h
    rfl
  · rw [kept.letterTokens_eq]
    cases h
    rfl
  · cases h
    rfl

end Tree

end Sentential
