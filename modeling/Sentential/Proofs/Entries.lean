import Sentential.Proofs.RoundTrip
import Sentential.Proofs.Rows
import Sentential.Proofs.Tokens

/-!
# Entries stand under their tokens

Every token of a tree heads one tree, and evaluation marks it with the truth value of that tree. In
the tree of a text no two tokens stand in the same column and none stands behind the last one, so no
mark is replaced or dropped: the entry under a character is the mark of the token there. A letter
shows its own value, a negation sign the opposite of what it negates, and a connective the value of
the composite that it joins. Under blanks and parentheses there are no entries.
-/

namespace Sentential

/-- A mark in a column of its own is the entry of this column. -/
theorem Evaluation.getElem?_layOut_of_mem {width : Nat} {marks : List (Nat × UInt8)} {i : Nat}
    {x : UInt8} (distinct : (marks.map Prod.fst).Nodup) (member : (i, x) ∈ marks)
    (inside : i < width) : (layOut width marks)[i]? = some (some x) := by
  have reversed : (marks.reverse.map Prod.fst).Nodup :=
    ((List.reverse_perm marks).map Prod.fst).nodup_iff.2 distinct
  rw [getElem?_layOut, if_pos inside,
    (lookup_eq_some_iff reversed).2 (List.mem_reverse.2 member)]

namespace Tree

/-- In the tree, the negation sign `mark` negates `x`: as the mark of a letter, or as the head of a
negation. -/
inductive Negates (t : Tree) (mark : Token) : Tree → Prop
  | letter {letter : Token} (node : proposition (some mark) letter ∈ t.subtrees) :
      Negates t mark (.proposition none letter)
  | operand {x : Tree} (node : negated mark x ∈ t.subtrees) : Negates t mark x

variable {text : String} {v : Valuation} {evaluation : Evaluation} {t s x : Tree}
  {token mark : Token}

/-! ### What tokens head -/

theorem mem_heads (node : s ∈ t.subtrees) (root : (token, x) ∈ s.rootHeads) :
    (token, x) ∈ t.heads :=
  List.mem_flatMap.2 ⟨s, node, root⟩

/-- A negation sign heads the negation of what it negates. -/
theorem Negates.exists_head (h : t.Negates mark x) :
    ∃ s, (mark, s) ∈ t.heads ∧ ∀ assignment, s.holds assignment = !x.holds assignment := by
  cases h with
  | @letter letter node =>
      refine ⟨proposition (some mark) letter, mem_heads node ?_, fun _ => rfl⟩
      exact List.mem_cons_of_mem _ List.mem_cons_self
  | operand node => exact ⟨negated mark x, mem_heads node List.mem_cons_self, fun _ => rfl⟩

theorem exists_head_mainToken (t : Tree) :
    ∃ s, (t.mainToken, s) ∈ t.heads ∧ ∀ assignment, s.holds assignment = t.holds assignment := by
  induction t with
  | proposition negation letter =>
      refine ⟨proposition negation letter, ?_, fun _ => rfl⟩
      cases negation <;> simp [mainToken, rootHeads]
  | negated mark operand =>
      exact ⟨negated mark operand, by simp [mainToken], fun _ => rfl⟩
  | composite left operator right =>
      exact ⟨composite left operator right, by simp [mainToken], fun _ => rfl⟩
  | bare child ih | formula child ih => simpa [mainToken, holds] using ih

theorem Fitting.of_mem_subtrees (h : t.Fitting) (node : s ∈ t.subtrees) : s.Fitting := by
  induction t with
  | proposition =>
      obtain rfl := mem_subtrees_proposition.1 node
      exact h
  | negated mark operand ih =>
      obtain inner | rfl := mem_subtrees_negated.1 node
      · exact ih h.2 inner
      · exact h
  | bare child ih =>
      obtain inner | rfl := mem_subtrees_bare.1 node
      · exact ih h inner
      · exact h
  | composite left operator right ihl ihr =>
      obtain first | second | rfl := mem_subtrees_composite.1 node
      · exact ihl h.1 first
      · exact ihr h.2.2 second
      · exact h
  | formula child ih =>
      obtain inner | rfl := mem_subtrees_formula.1 node
      · exact ih h inner
      · exact h

/-- In a tree that fits the grammar a letter heads itself, a connective a composite, and any other
token negates something. -/
theorem Fitting.heads_cases (fits : t.Fitting) (member : (token, s) ∈ t.heads) :
    (token.isLetter = true ∧ s = proposition none token) ∨
    (token.symbol = '~' ∧ ∃ x, t.Negates token x) ∨
    (token.connective?.isSome = true ∧ ∃ left right, composite left token right ∈ t.subtrees) := by
  obtain ⟨u, node, root⟩ := List.mem_flatMap.1 member
  have own := fits.of_mem_subtrees node
  cases u with
  | proposition negation letter =>
      cases negation with
      | none =>
          cases List.mem_singleton.1 root
          exact .inl ⟨own.2, rfl⟩
      | some sign =>
          rcases List.mem_cons.1 root with same | root
          · cases same
            exact .inl ⟨own.2, rfl⟩
          · cases List.mem_singleton.1 root
            exact .inr (.inl ⟨own.1 _ rfl, _, .letter node⟩)
  | negated mark operand =>
      cases List.mem_singleton.1 root
      exact .inr (.inl ⟨own.1, _, .operand node⟩)
  | composite left operator right =>
      cases List.mem_singleton.1 root
      exact .inr (.inr ⟨own.2.1, left, right, node⟩)
  | bare | formula => cases root

/-! ### The tree of a text -/

theorem fitting_of_read (read : Tree.read text = .ok t) : t.Fitting :=
  (canonical_of_read read).fitting

/-- A character with a column heads some tree. -/
theorem exists_head_of_getElem? (read : Tree.read text = .ok t) {i : Nat} {c : Char}
    (character : text.toList[i]? = some c) (column : Scan.hasColumn c = true) :
    ∃ s, (⟨.ofChar c, i⟩, s) ∈ t.heads := by
  have member : ⟨.ofChar c, i⟩ ∈ t.heads.map Prod.fst := by
    rw [t.map_fst_heads_perm.mem_iff, tokens_of_read read]
    exact Token.mem_ofChars_iff.2 ⟨c, character, column, rfl⟩
  obtain ⟨⟨_, s⟩, head, rfl⟩ := List.mem_map.1 member
  exact ⟨s, head⟩

/-- The entry in the column of a token is the truth value of the tree that the token heads, over any
number of columns that has this one. -/
theorem getElem?_entries_of_lt (read : Tree.read text = .ok t) {width : Nat}
    (h : t.evaluate v width = .ok evaluation) (head : (token, s) ∈ t.heads)
    (inside : token.position < width) :
    evaluation.entries[token.position]? = some (some (s.holds v.holds).toUInt8) := by
  obtain ⟨-, rfl⟩ := evaluate_eq_ok_iff.1 h
  -- A mark could be replaced by a later one in its column, or be dropped beyond the last column.
  have distinct : ((t.truthTrace v.holds).marks.map Prod.fst).Nodup := by
    rw [(t.map_fst_marks_perm v.holds).nodup_iff]
    exact (pairwise_position_of_read read).imp Nat.ne_of_lt
  refine Evaluation.getElem?_layOut_of_mem distinct ?_ inside
  exact List.mem_map.2 ⟨_, head, rfl⟩

theorem getElem?_entries (read : Tree.read text = .ok t)
    (h : t.evaluate v text.length = .ok evaluation) (head : (token, s) ∈ t.heads) :
    evaluation.entries[token.position]? = some (some (s.holds v.holds).toUInt8) := by
  have own : token ∈ t.tokens := t.map_fst_heads_perm.subset (List.mem_map_of_mem head)
  rw [tokens_of_read read] at own
  obtain ⟨c, character, -⟩ := Token.mem_ofChars_iff.1 own
  apply getElem?_entries_of_lt read h head
  rw [← String.length_toList]
  exact (List.getElem?_eq_some_iff.1 character).1

end Tree

/-! ### Rows of a text -/

namespace Evaluation

/-- The entries of an evaluation line up with the text that the tree was read from. -/
structure Aligned (evaluation : Evaluation) (text : String) (t : Tree) (v : Valuation) : Prop where
  length_entries : evaluation.entries.length = text.length
  blank_iff : ∀ (i : Nat) (c : Char), text.toList[i]? = some c →
    (evaluation.entries[i]? = some none ↔ Scan.isSeparator c = true)
  letter : ∀ (i : Nat) (c : Char), text.toList[i]? = some c → isAlphabetic c = true →
    evaluation.entries[i]? = some (v.get? c)
  negation : ∀ i : Nat, text.toList[i]? = some '~' →
    (∃ x, t.Negates ⟨.negation, i⟩ x) ∧ ∀ x, t.Negates ⟨.negation, i⟩ x →
      evaluation.entries[i]? = some (some (complement (x.holds v.holds).toUInt8))
  connective : ∀ (i : Nat) (k : Connective), text.toList[i]? = some k.symbol →
    (∃ left right, .composite left ⟨.connective k, i⟩ right ∈ t.subtrees) ∧
    ∀ left right, .composite left ⟨.connective k, i⟩ right ∈ t.subtrees →
      evaluation.entries[i]? =
        some (some ((Tree.composite left ⟨.connective k, i⟩ right).holds v.holds).toUInt8)
  main : evaluation.entries[t.mainToken.position]? = some (some evaluation.value)
  rowText : List.Forall₂ (fun c d => if Scan.isSeparator c then d = ' ' else d = '0' ∨ d = '1')
    text.toList (rowText evaluation.entries).toList

end Evaluation

namespace Tree

variable {text : String} {v : Valuation} {evaluation : Evaluation} {t x : Tree} {mark : Token}
  {i : Nat} {c : Char}

/-- The entries under separators are empty, and no others. -/
theorem isSome_entries_eq_not_isSeparator (read : Tree.read text = .ok t)
    (h : t.evaluate v text.length = .ok evaluation) :
    evaluation.entries.map Option.isSome = text.toList.map (!Scan.isSeparator ·) := by
  rw [isSome_entries read h]
  exact List.map_congr_left (hasColumn_eq_of_read read)

theorem getElem?_entries_eq_none_iff (read : Tree.read text = .ok t)
    (h : t.evaluate v text.length = .ok evaluation) (character : text.toList[i]? = some c) :
    evaluation.entries[i]? = some none ↔ Scan.isSeparator c = true := by
  have filled := congrArg (·[i]?) (isSome_entries_eq_not_isSeparator read h)
  simp only [List.getElem?_map, character, Option.map_some] at filled
  obtain ⟨entry, found, filled⟩ := Option.map_eq_some_iff.1 filled
  cases entry <;> simp_all

theorem rowText_entries (read : Tree.read text = .ok t)
    (h : t.evaluate v text.length = .ok evaluation) :
    List.Forall₂ (fun c d => if Scan.isSeparator c then d = ' ' else d = '0' ∨ d = '1')
      text.toList (Evaluation.rowText evaluation.entries).toList := by
  have filled : List.Forall₂ (· = ·) (text.toList.map (!Scan.isSeparator ·))
      (evaluation.entries.map Option.isSome) := by
    rw [isSome_entries_eq_not_isSeparator read h]
    exact List.forall₂_refl _
  rw [List.forall₂_map_left_iff, List.forall₂_map_right_iff] at filled
  rw [Evaluation.rowText, String.toList_ofList, List.forall₂_map_right_iff]
  apply filled.imp
  intro c entry same
  cases entry with
  | none =>
      have separates : Scan.isSeparator c = true := by simpa using same
      rw [if_pos separates]
      rfl
  | some value =>
      have keeps : ¬ Scan.isSeparator c = true := by simpa using same
      rw [if_neg keeps]
      exact ite_eq_or_eq _ _ _

theorem getElem?_entries_of_isAlphabetic (read : Tree.read text = .ok t)
    (assigned : ∀ c ∈ text.toList, isAlphabetic c = true → (v.get? c).isSome)
    (h : t.evaluate v text.length = .ok evaluation) (character : text.toList[i]? = some c)
    (alphabetic : isAlphabetic c = true) : evaluation.entries[i]? = some (v.get? c) := by
  have column : Scan.hasColumn c = true := by simp [Scan.hasColumn, alphabetic]
  obtain ⟨s, head⟩ := exists_head_of_getElem? read character column
  rw [Token.Kind.ofChar_of_isAlphabetic alphabetic] at head
  obtain ⟨-, rfl⟩ | ⟨sign, -⟩ | ⟨connects, -⟩ := (fitting_of_read read).heads_cases head
  · obtain ⟨value, found⟩ := Option.isSome_iff_exists.1
      (assigned c (List.mem_of_getElem? character) alphabetic)
    rw [getElem?_entries read h head, found, Valuation.eq_toUInt8_holds found]
    rfl
  · cases (show c = '~' from sign)
    cases alphabetic
  · cases connects

theorem getElem?_entries_of_negates (read : Tree.read text = .ok t)
    (h : t.evaluate v text.length = .ok evaluation) (negates : t.Negates mark x) :
    evaluation.entries[mark.position]? = some (some (complement (x.holds v.holds).toUInt8)) := by
  obtain ⟨s, head, holds_eq⟩ := negates.exists_head
  rw [getElem?_entries read h head, holds_eq, complement_toUInt8]

theorem exists_negates (read : Tree.read text = .ok t) (character : text.toList[i]? = some '~') :
    ∃ x, t.Negates ⟨.negation, i⟩ x := by
  obtain ⟨s, head⟩ := exists_head_of_getElem? read character rfl
  obtain ⟨isLetter, -⟩ | ⟨-, negates⟩ | ⟨connects, -⟩ := (fitting_of_read read).heads_cases head
  · cases isLetter
  · exact negates
  · cases connects

theorem exists_composite (read : Tree.read text = .ok t) {k : Connective}
    (character : text.toList[i]? = some k.symbol) :
    ∃ left right, composite left ⟨.connective k, i⟩ right ∈ t.subtrees := by
  obtain ⟨s, head⟩ := exists_head_of_getElem? read character (by cases k <;> rfl)
  have denoted : Token.Kind.ofChar k.symbol = .connective k := by cases k <;> rfl
  rw [denoted] at head
  obtain ⟨isLetter, -⟩ | ⟨sign, -⟩ | ⟨-, node⟩ := (fitting_of_read read).heads_cases head
  · cases isLetter
  · cases k <;> cases sign
  · exact node

theorem getElem?_entries_of_composite (read : Tree.read text = .ok t)
    (h : t.evaluate v text.length = .ok evaluation) {left right : Tree} {k : Connective}
    (node : composite left ⟨.connective k, i⟩ right ∈ t.subtrees) :
    evaluation.entries[i]? =
      some (some ((composite left ⟨.connective k, i⟩ right).holds v.holds).toUInt8) :=
  getElem?_entries read h (mem_heads node List.mem_cons_self)

/-- A valuation that assigns the letters of a text evaluates its tree to entries that line up with
the text, column by column. -/
theorem evaluate_aligned (read : Tree.read text = .ok t)
    (assigned : ∀ c ∈ text.toList, isAlphabetic c = true → (v.get? c).isSome) :
    ∃ evaluation, t.evaluate v text.length = .ok evaluation ∧ evaluation.Aligned text t v := by
  have letters : ∀ c ∈ t.letters, (v.get? c).isSome := by
    intro c member
    rw [letters_of_read read, List.mem_filter] at member
    exact assigned c member.1 member.2
  obtain ⟨evaluation, evaluated⟩ := exists_evaluation (connected_of_read read) letters text.length
  have tells := tells_of_evaluate evaluated
  refine ⟨evaluation, evaluated, ?_⟩
  constructor
  case length_entries => exact tells.length_entries
  case blank_iff =>
    intro i c character
    exact getElem?_entries_eq_none_iff read evaluated character
  case letter =>
    intro i c character alphabetic
    exact getElem?_entries_of_isAlphabetic read assigned evaluated character alphabetic
  case negation =>
    intro i character
    refine ⟨exists_negates read character, fun x negates => ?_⟩
    exact getElem?_entries_of_negates read evaluated negates
  case connective =>
    intro i k character
    refine ⟨exists_composite read character, fun left right node => ?_⟩
    exact getElem?_entries_of_composite read evaluated node
  case main =>
    obtain ⟨s, head, holds_eq⟩ := t.exists_head_mainToken
    rw [getElem?_entries read evaluated head, holds_eq, tells.value_eq]
  case rowText => exact rowText_entries read evaluated

/-- Blanks, nested groups and a letter of two bytes. -/
theorem evaluate_aligned_nested :
    ∃ t evaluation, Tree.read " ~((é) > ( ~q ))" = .ok t ∧
      t.evaluate (.numbered ['q', 'é'] 1) 16 = .ok evaluation ∧
      evaluation.Aligned " ~((é) > ( ~q ))" t (.numbered ['q', 'é'] 1) ∧
      Evaluation.rowText evaluation.entries = " 0  1  1   10   " := by
  have read : Tree.read " ~((é) > ( ~q ))" = .ok _ := rfl
  have letters : " ~((é) > ( ~q ))".toList.filter isAlphabetic = ['é', 'q'] := rfl
  have assigned : ∀ c ∈ " ~((é) > ( ~q ))".toList, isAlphabetic c = true →
      ((Valuation.numbered ['q', 'é'] 1).get? c).isSome := by
    intro c member alphabetic
    have letter : c ∈ ['é', 'q'] := letters ▸ List.mem_filter.2 ⟨member, alphabetic⟩
    rcases List.mem_pair.1 letter with rfl | rfl <;> rfl
  obtain ⟨evaluation, evaluated, aligned⟩ := evaluate_aligned read assigned
  refine ⟨_, evaluation, read, evaluated, aligned, ?_⟩
  cases evaluated
  rfl

end Tree

end Sentential
