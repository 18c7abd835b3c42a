import Sentential.Proofs.Entries
import Sentential.Proofs.Operands

/-!
# Tokens that share a column

A sign that rewriting puts takes the column of the token behind it, so in a rewritten tree several
tokens can stand in one column: some negation signs and one letter. Evaluation marks the column once
for each of them, the letter first and the sign farthest to the left last, so the entry shows what
that sign heads. A letter that shares its column does not show its own value there, unless the two
values happen to agree. In the tree of a text no column is shared.
-/

namespace Sentential

/-- The mark in a column is made for the last tree there. -/
theorem Evaluation.lookup_marks (heads : List (Token × Tree)) (value : Tree → UInt8) (i : Nat) :
    (heads.map fun head => (head.1.position, value head.2)).lookup i =
      (heads.find? (·.1.position = i)).map fun head => value head.2 := by
  induction heads with
  | nil => rfl
  | cons head rest ih =>
      rw [List.map_cons, List.lookup_cons, List.find?_cons, ih]
      by_cases same : head.1.position = i
      · simp [same]
      · have other : (i == head.1.position) = false := beq_eq_false_iff_ne.2 (Ne.symm same)
        simp only [other, same, decide_false]

namespace Tree

variable {text : String} {v : Valuation} {evaluation : Evaluation} {t s x : Tree}
  {mark letter : Token} {i : Nat}

/-- The tokens of a tree from left to right, each with the tree that it heads. -/
def headed : Tree → List (Token × Tree)
  | proposition none letter => [(letter, proposition none letter)]
  | t@(proposition (some mark) letter) => [(mark, t), (letter, proposition none letter)]
  | t@(negated mark operand) => (mark, t) :: operand.headed
  | bare child => child.headed
  | t@(composite left operator right) => left.headed ++ (operator, t) :: right.headed
  | formula child => child.headed

/-- The token farthest to the left in a column, with the tree that it heads. -/
def leftmost (t : Tree) (column : Nat) : Option (Token × Tree) :=
  t.headed.find? (·.1.position = column)

theorem map_fst_headed (t : Tree) : t.headed.map Prod.fst = t.tokens := by
  induction t with
  | proposition negation letter => cases negation <;> rfl
  | negated mark operand ih => rw [headed, List.map_cons, ih, tokens]
  | bare child ih | formula child ih => exact ih
  | composite left operator right ihl ihr =>
      rw [headed, List.map_append, List.map_cons, ihl, ihr, tokens]

theorem leftmost_eq_none (free : i ∉ t.columns) : t.leftmost i = none := by
  rw [leftmost, List.find?_eq_none]
  intro head member
  rw [decide_eq_true_iff]
  rintro rfl
  apply free
  rw [columns, ← map_fst_headed]
  exact List.mem_map_of_mem (List.mem_map_of_mem member)

theorem leftmost_negated (mark : Token) (operand : Tree) :
    (negated mark operand).leftmost i =
      if mark.position = i then some (mark, negated mark operand) else operand.leftmost i := by
  rw [leftmost, headed, List.find?_cons]
  by_cases here : mark.position = i <;> simp [here, leftmost]

theorem leftmost_composite (left : Tree) (operator : Token) (right : Tree) :
    (composite left operator right).leftmost i =
      (left.leftmost i).or (if operator.position = i
        then some (operator, composite left operator right) else right.leftmost i) := by
  rw [leftmost, headed, List.find?_append, List.find?_cons]
  by_cases here : operator.position = i <;> simp [here, leftmost]

/-- The token that is marked last in a column is the one farthest to the left. An operator comes
last of all in its composite, and it has a column of its own. -/
theorem Spaced.find?_reverse_heads (h : t.Spaced (· < ·)) (i : Nat) :
    t.heads.reverse.find? (·.1.position = i) = t.leftmost i := by
  induction t with
  | proposition negation letter =>
      cases negation <;> simp [rootHeads, leftmost, headed]
  | negated mark operand ih =>
      rw [heads_negated, List.reverse_append, List.reverse_singleton, List.singleton_append,
        List.find?_cons, ih h.2, leftmost_negated]
      by_cases here : mark.position = i <;> simp [here]
  | bare child ih =>
      rw [heads_bare]
      exact ih h
  | composite left operator right ihl ihr =>
      obtain ⟨⟨first, before⟩, second, behind⟩ := h
      rw [heads_composite, List.reverse_append, List.reverse_append, List.reverse_singleton,
        List.singleton_append, List.find?_cons, List.find?_append, ihl first, ihr second,
        leftmost_composite]
      -- The columns left of the operator, its own and those right of it have different tokens.
      obtain low | rfl | high := Nat.lt_trichotomy i operator.position
      · have free : right.leftmost i = none :=
          leftmost_eq_none fun member => Nat.lt_asymm low (behind i member)
        simp [free, Nat.ne_of_gt low]
      · have free : left.leftmost operator.position = none :=
          leftmost_eq_none fun member => Nat.lt_irrefl _ (before _ member)
        simp [free]
      · have free : left.leftmost i = none :=
          leftmost_eq_none fun member => Nat.lt_asymm high (before i member)
        simp [free, Nat.ne_of_lt high]
  | formula child ih =>
      rw [heads_formula]
      exact ih h

/-- The entry of a column is the truth value of the tree that its leftmost token heads. -/
theorem Spaced.getElem?_entries (h : t.Spaced (· < ·)) {width : Nat}
    (evaluated : t.evaluate v width = .ok evaluation) (inside : i < width) :
    evaluation.entries[i]? =
      some ((t.leftmost i).map fun head => (head.2.holds v.holds).toUInt8) := by
  obtain ⟨-, rfl⟩ := evaluate_eq_ok_iff.1 evaluated
  rw [Evaluation.getElem?_layOut, if_pos inside, truthTrace, ← List.map_reverse,
    Evaluation.lookup_marks t.heads.reverse fun s => (s.holds v.holds).toUInt8,
    h.find?_reverse_heads]

/-! ### Columns of letters -/

theorem position_mem_columns_of_letterTokens (member : letter ∈ t.letterTokens) :
    letter.position ∈ t.columns := by
  suffices own : t.letterTokens ⊆ t.tokens from List.mem_map_of_mem (own member)
  clear member
  induction t with
  | proposition negation letter => exact List.subset_append_right _ _
  | negated mark operand ih => exact List.subset_cons_of_subset _ ih
  | bare child ih | formula child ih => exact ih
  | composite left operator right ihl ihr =>
      apply List.append_subset.2
      constructor
      · exact List.subset_append_of_subset_left _ ihl
      · exact List.subset_append_of_subset_right _ (List.subset_cons_of_subset _ ihr)

theorem position_lt_width_of_letterTokens (member : letter ∈ t.letterTokens) :
    letter.position < t.width :=
  width_le_iff.1 (Nat.le_refl _) _ (position_mem_columns_of_letterTokens member)

theorem symbol_mem_letters (member : letter ∈ t.letterTokens) : letter.symbol ∈ t.letters := by
  rw [← map_symbol_letterTokens]
  exact List.mem_map_of_mem member

/-- A letter heads itself, without a sign of its own. -/
theorem mem_heads_of_letterTokens (member : letter ∈ t.letterTokens) :
    (letter, proposition none letter) ∈ t.heads := by
  induction t with
  | proposition negation own =>
      obtain rfl := List.mem_singleton.1 member
      cases negation <;> simp [rootHeads]
  | negated mark operand ih =>
      rw [heads_negated]
      exact List.mem_append_left _ (ih member)
  | bare child ih =>
      rw [heads_bare]
      exact ih member
  | composite left operator right ihl ihr =>
      rw [heads_composite]
      apply List.mem_append_left
      apply List.mem_append.2
      exact (List.mem_append.1 member).imp ihl ihr
  | formula child ih =>
      rw [heads_formula]
      exact ih member

theorem Negates.mono (part : s.subtrees ⊆ t.subtrees) (h : s.Negates mark x) :
    t.Negates mark x := by
  cases h with
  | letter node => exact .letter (part node)
  | operand node => exact .operand (part node)

/-- The leftmost token in the column of a letter is a sign or the letter itself. Operators stand
apart, and so do the letters on their two sides. -/
theorem Spaced.exists_leftmost (h : t.Spaced (· < ·)) (member : letter ∈ t.letterTokens) :
    ∃ head, t.leftmost letter.position = some head ∧
      (head.2 = proposition none letter ∨ ∃ x, t.Negates head.1 x) := by
  induction t with
  | proposition negation own =>
      obtain rfl := List.mem_singleton.1 member
      cases negation with
      | none => exact ⟨(letter, proposition none letter), by simp [leftmost, headed], .inl rfl⟩
      | some sign =>
          by_cases here : sign.position = letter.position
          · refine ⟨(sign, proposition (some sign) letter), by simp [leftmost, headed, here], ?_⟩
            exact .inr ⟨_, .letter (mem_subtrees_proposition.2 rfl)⟩
          · exact ⟨(letter, proposition none letter), by simp [leftmost, headed, here], .inl rfl⟩
  | negated sign operand ih =>
      rw [leftmost_negated]
      by_cases here : sign.position = letter.position
      · refine ⟨_, if_pos here, .inr ⟨operand, .operand ?_⟩⟩
        exact mem_subtrees_negated.2 (.inr rfl)
      · rw [if_neg here]
        obtain ⟨head, found, cause⟩ := ih h.2 member
        exact ⟨head, found, cause.imp_right (.imp fun _ => .mono (List.subset_append_left _ _))⟩
  | bare child ih | formula child ih =>
      obtain ⟨head, found, cause⟩ := ih h member
      exact ⟨head, found, cause.imp_right (.imp fun _ => .mono (List.subset_append_left _ _))⟩
  | composite left operator right ihl ihr =>
      obtain ⟨⟨first, before⟩, second, behind⟩ := h
      rw [leftmost_composite]
      rcases List.mem_append.1 member with onLeft | onRight
      · obtain ⟨head, found, cause⟩ := ihl first onLeft
        refine ⟨head, by rw [found, Option.some_or], cause.imp_right (.imp fun _ => .mono ?_)⟩
        exact List.subset_append_of_subset_left _ (List.subset_append_left _ _)
      · obtain ⟨head, found, cause⟩ := ihr second onRight
        have after := behind _ (position_mem_columns_of_letterTokens onRight)
        have free : left.leftmost letter.position = none :=
          leftmost_eq_none fun column => Nat.lt_asymm after (before _ column)
        refine ⟨head, ?_, cause.imp_right (.imp fun _ => .mono ?_)⟩
        · rw [free, Option.none_or, if_neg (Nat.ne_of_lt after), found]
        · exact List.subset_append_of_subset_left _ (List.subset_append_right _ _)

/-! ### Rows of rewritten trees -/

theorem spaced_of_read (read : Tree.read text = .ok t) : t.Spaced (· < ·) :=
  spaced_of_pairwise (fun _ _ => Nat.le_of_lt) (pairwise_position_of_read read)

/-- Rewriting keeps the values of a tree, so the rewritten tree has a row as well. -/
theorem exists_evaluation_iterate_pass (read : Tree.read text = .ok t)
    (assigned : ∀ c ∈ t.letters, (v.get? c).isSome) (eliminate : Bool) (count width : Nat) :
    ∃ evaluation, ((pass eliminate)^[count] t).evaluate v width = .ok evaluation := by
  obtain ⟨original, evaluated⟩ := exists_evaluation (connected_of_read read) assigned width
  have value : (((pass eliminate)^[count] t).evaluate v width).map Evaluation.value =
      .ok original.value := by
    rw [map_value_evaluate, valueUnder_iterate_pass, ← map_value_evaluate t v width, evaluated]
    rfl
  obtain ⟨evaluation, rewritten, -⟩ := map_eq_ok value
  exact ⟨evaluation, rewritten⟩

/-- The letters of a tree in an evaluation of it: a letter shows its own value if the leftmost token
in its column heads a tree with the same truth value, and not otherwise. That token is the letter
itself unless a negation sign shares the column. -/
structure ShowsLetters (t : Tree) (evaluation : Evaluation) (v : Valuation) : Prop where
  entry : ∀ i < t.width, evaluation.entries[i]? =
    some ((t.leftmost i).map fun head => (head.2.holds v.holds).toUInt8)
  own_iff : ∀ letter ∈ t.letterTokens,
    (evaluation.entries[letter.position]? = some (v.get? letter.symbol) ↔
      ∃ head, t.leftmost letter.position = some head ∧
        head.2.holds v.holds = v.holds letter.symbol)
  own_of_alone : ∀ letter ∈ t.letterTokens,
    (∀ mark x, t.Negates mark x → mark.position ≠ letter.position) →
      evaluation.entries[letter.position]? = some (v.get? letter.symbol)

theorem Spaced.showsLetters (h : t.Spaced (· < ·))
    (evaluated : t.evaluate v t.width = .ok evaluation)
    (assigned : ∀ letter ∈ t.letterTokens, (v.get? letter.symbol).isSome) :
    t.ShowsLetters evaluation v := by
  have entry (i : Nat) (inside : i < t.width) := h.getElem?_entries evaluated inside
  have own_iff : ∀ letter ∈ t.letterTokens,
      (evaluation.entries[letter.position]? = some (v.get? letter.symbol) ↔
        ∃ head, t.leftmost letter.position = some head ∧
          head.2.holds v.holds = v.holds letter.symbol) := by
    intro letter member
    obtain ⟨value, found⟩ := Option.isSome_iff_exists.1 (assigned letter member)
    rw [entry _ (position_lt_width_of_letterTokens member), found,
      Valuation.eq_toUInt8_holds found, Option.some.injEq, Option.map_eq_some_iff]
    simp only [toUInt8_inj]
  refine ⟨entry, own_iff, ?_⟩
  intro letter member alone
  obtain ⟨head, leftmost, own | ⟨x, negates⟩⟩ := h.exists_leftmost member
  · refine (own_iff letter member).2 ⟨head, leftmost, ?_⟩
    rw [own]
    rfl
  · have place : head.1.position = letter.position := by simpa using List.find?_some leftmost
    exact absurd place (alone head.1 x negates)

/-- In the tree of a text every letter shows its own value. -/
theorem own_entry_of_read (read : Tree.read text = .ok t)
    (evaluated : t.evaluate v t.width = .ok evaluation)
    (assigned : ∀ c ∈ t.letters, (v.get? c).isSome) (member : letter ∈ t.letterTokens) :
    evaluation.entries[letter.position]? = some (v.get? letter.symbol) := by
  have inside := position_lt_width_of_letterTokens member
  obtain ⟨value, found⟩ := Option.isSome_iff_exists.1 (assigned _ (symbol_mem_letters member))
  rw [getElem?_entries_of_lt read evaluated (mem_heads_of_letterTokens member) inside, found,
    Valuation.eq_toUInt8_holds found]
  rfl

/-- Any number of passes over the tree of a text give a tree whose row shows, in every column, what
the leftmost token there heads; so a letter shows its own value exactly where this agrees with it.
Without a pass all letters do. -/
theorem letters_shown_rewritten (read : Tree.read text = .ok t)
    (assigned : ∀ c ∈ t.letters, (v.get? c).isSome) (eliminate : Bool) (count : Nat) :
    (∃ evaluation, ((pass eliminate)^[count] t).evaluate v ((pass eliminate)^[count] t).width =
        .ok evaluation ∧ ((pass eliminate)^[count] t).ShowsLetters evaluation v) ∧
    ∃ evaluation, t.evaluate v t.width = .ok evaluation ∧ ∀ letter ∈ t.letterTokens,
      evaluation.entries[letter.position]? = some (v.get? letter.symbol) := by
  have kept := Preserves.iterate_pass eliminate count t
  have spaced := kept.spaced (· < ·) (fun _ _ => Nat.le_of_lt) (spaced_of_read read)
  have values : ∀ letter ∈ ((pass eliminate)^[count] t).letterTokens,
      (v.get? letter.symbol).isSome := by
    intro letter member
    rw [kept.letterTokens_eq] at member
    exact assigned _ (symbol_mem_letters member)
  constructor
  · obtain ⟨evaluation, evaluated⟩ := exists_evaluation_iterate_pass read assigned eliminate count _
    exact ⟨evaluation, evaluated, spaced.showsLetters evaluated values⟩
  · obtain ⟨evaluation, evaluated⟩ := exists_evaluation (connected_of_read read) assigned t.width
    exact ⟨evaluation, evaluated, fun letter => own_entry_of_read read evaluated assigned⟩

/-- The sign in the column of `p` heads `~(p > q)`, which agrees with `p` as long as `q` is
false. -/
theorem letters_shown_rewritten_nested :
    ∃ t evaluation, Tree.read "~((p > q) | ~r)" = .ok t ∧
      (pass false t).text = "~(p > q) & r" ∧
      (pass false t).evaluate (.numbered ['p', 'q', 'r'] 5) 14 = .ok evaluation ∧
      (pass false t).ShowsLetters evaluation (.numbered ['p', 'q', 'r'] 5) ∧
      evaluation.entries[3]? = some (some 1) := by
  obtain ⟨t, read⟩ : ∃ t, Tree.read "~((p > q) | ~r)" = .ok t := ⟨_, rfl⟩
  have assigned : ∀ c ∈ t.letters, ((Valuation.numbered ['p', 'q', 'r'] 5).get? c).isSome := by
    cases read
    exact List.all_eq_true.1 (by decide)
  obtain ⟨⟨evaluation, evaluated, shows⟩, -⟩ := letters_shown_rewritten read assigned false 1
  refine ⟨t, evaluation, read, ?_, ?_, shows, ?_⟩
  · cases read
    rfl
  · cases read
    exact evaluated
  · cases read
    exact (shows.own_iff ⟨.letter 'p', 3⟩ (by decide)).2 ⟨_, rfl, rfl⟩

/-- After one pass over `~(p & q)` both letters show their opposites. -/
theorem not_forall_letters_shown :
    ¬ ∀ (text : String) (t : Tree) (eliminate : Bool) (count : Nat) (v : Valuation)
      (evaluation : Evaluation), Tree.read text = .ok t → (∀ c ∈ t.letters, (v.get? c).isSome) →
      ((pass eliminate)^[count] t).evaluate v ((pass eliminate)^[count] t).width = .ok evaluation →
      ∀ letter ∈ ((pass eliminate)^[count] t).letterTokens,
        evaluation.entries[letter.position]? = some (v.get? letter.symbol) := by
  intro shown
  have assigned : ∀ c ∈ ['p', 'q'], ((Valuation.numbered ['p', 'q'] 2).get? c).isSome :=
    List.all_eq_true.1 (by decide)
  have overwritten := shown "~(p & q)" _ false 1 (.numbered ['p', 'q'] 2) _ rfl assigned rfl
    ⟨.letter 'p', 2⟩ (by decide)
  exact absurd overwritten (by decide)

end Tree

end Sentential
