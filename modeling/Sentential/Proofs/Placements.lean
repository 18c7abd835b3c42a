import Mathlib.Data.List.Chain
import Mathlib.Data.List.DropRight
import Sentential.Proofs.Tokens
import Sentential.Tree.Projection.Checked

/-!
# Projection places every token once

The tokens of a projection stand in their order, each once. Two that follow one another are as far
apart as their places are, but at least one column, so that places in any order, and shared ones,
give a text. The loop behind it writes into a buffer: what it has written stays, and no token is
written before the end of the buffer.

The places of the tokens of a text are their columns. So projecting its tree gives the text back,
up to the last token and with blanks for parentheses.
-/

namespace Sentential

theorem rdropWhile_append_cons {p : Char → Bool} {c : Char} (front back : List Char)
    (stop : p c = false) : (front ++ c :: back).rdropWhile p = front ++ c :: back.rdropWhile p := by
  induction back using List.reverseRecOn with
  | nil => rw [List.rdropWhile_concat_neg _ _ _ (by simp [stop]), List.rdropWhile_nil]
  | append_singleton back d ih =>
      rw [← List.cons_append, ← List.append_assoc, List.rdropWhile_concat, List.rdropWhile_concat,
        ih]
      split
      · rfl
      · rw [List.append_assoc, List.cons_append]

namespace Scan

/-- A character, or a blank in place of a separator. -/
def withoutSeparator (c : Char) : Char :=
  if isSeparator c then ' ' else c

theorem isSeparator_withoutSeparator (c : Char) :
    isSeparator (withoutSeparator c) = isSeparator c := by
  rw [withoutSeparator]
  split
  · next separator => rw [separator]; rfl
  · rfl

/-- Separators at the end are cut off as well after they have become blanks. -/
theorem map_withoutSeparator_rdropWhile (text : List Char) :
    (text.rdropWhile isSeparator).map withoutSeparator =
      (text.map withoutSeparator).rdropWhile isSeparator := by
  induction text using List.reverseRecOn with
  | nil => rfl
  | append_singleton text c ih =>
      rw [List.map_append, List.map_singleton, List.rdropWhile_concat, List.rdropWhile_concat,
        isSeparator_withoutSeparator]
      split
      · exact ih
      · rw [List.map_append, List.map_singleton]

end Scan

namespace Tree

variable {bits shift free gap i : Nat} {token : Token} {tokens rest : List Token}
variable {buffer text : List Char} {entry : Nat × Token}

/-! ### Columns -/

/-- Two tokens in their columns are as far apart as their places are, but at least one column. -/
def KeepsDistance (before after : Nat × Token) : Prop :=
  (after.1 : Int) = before.1 + max 1 ((after.2.position : Int) - before.2.position)

theorem map_snd_placements (shift free : Nat) (tokens : List Token) :
    (placements shift free tokens).map Prod.snd = tokens := by
  induction tokens generalizing shift free with
  | nil => rfl
  | cons token rest ih => rw [placements, List.map_cons, ih]

/-- The shift is how far a token stands behind its place, so the next one is moved along with it. -/
theorem isChain_placements (shift free : Nat) (tokens : List Token) :
    (placements shift free tokens).IsChain KeepsDistance := by
  induction tokens generalizing shift free with
  | nil => exact .nil
  | cons token rest ih =>
      cases rest with
      | nil => exact .singleton _
      | cons next rest =>
          refine .cons_cons ?_ (ih _ _)
          simp only [KeepsDistance]
          omega

/-! ### The buffer -/

/-- A buffer after tokens have been written into it. -/
def written (shift : Nat) (buffer : List Char) (tokens : List Token) : List Char :=
  buffer ++ spread buffer.length (placements shift buffer.length tokens)

theorem toList_projection (t : Tree) : t.projection.toList = written 0 [] t.tokens :=
  String.toList_ofList

/-- One step of the loop. -/
theorem written_cons (shift : Nat) (buffer : List Char) (token : Token) (rest : List Token) :
    written shift buffer (token :: rest) =
      written (max (token.position + shift) buffer.length - token.position)
        (resized (max (token.position + shift) buffer.length) buffer ++ [token.symbol]) rest := by
  have le := Nat.le_max_right (token.position + shift) buffer.length
  simp only [written, placements, spread, List.length_append, length_resized, List.length_singleton]
  rw [resized_of_length_le le, List.append_assoc, List.append_assoc]
  rfl

/-- What is in the buffer stays there. -/
theorem getElem?_written_of_lt (h : i < buffer.length) :
    (written shift buffer tokens)[i]? = buffer[i]? :=
  List.getElem?_append_left h

/-- No token is written over by a later one. -/
theorem getElem?_written (h : entry ∈ placements shift buffer.length tokens) :
    (written shift buffer tokens)[entry.1]? = some entry.2.symbol := by
  induction tokens generalizing shift buffer with
  | nil => cases h
  | cons token rest ih =>
      rw [written_cons]
      rcases List.mem_cons.1 h with rfl | h
      · rw [getElem?_written_of_lt (by simp)]
        simp
      · exact ih (by simpa using h)

/-- What is written between tokens is blank. -/
theorem getElem?_written_of_not_mem (behind : buffer.length ≤ i)
    (inside : i < (written shift buffer tokens).length)
    (between : i ∉ (placements shift buffer.length tokens).map Prod.fst) :
    (written shift buffer tokens)[i]? = some ' ' := by
  induction tokens generalizing shift buffer with
  | nil =>
      rw [written, placements_nil, spread_nil, List.append_nil] at inside
      omega
  | cons token rest ih =>
      rw [written_cons] at inside ⊢
      simp only [placements, List.map_cons, List.mem_cons, not_or] at between
      obtain ⟨other, between⟩ := between
      rcases Nat.lt_or_gt_of_ne other with before | after
      · rw [getElem?_written_of_lt (by simp; omega),
          List.getElem?_append_left (by simpa using before), getElem?_resized behind before]
      · exact ih (by simpa using Nat.succ_le_of_lt after) inside (by simpa using between)

theorem length_written (shift : Nat) (buffer : List Char) (tokens : List Token) :
    (written shift buffer tokens).length =
      ((placements shift buffer.length tokens).getLast?.map fun last => last.1 + 1).getD
        buffer.length := by
  induction tokens generalizing shift buffer with
  | nil => simp [written]
  | cons token rest ih =>
      rw [written_cons, ih, placements, List.getLast?_cons]
      simp only [List.length_append, length_resized, List.length_singleton]
      cases (placements _ _ rest).getLast? <;> rfl

theorem max_lt_length_written (shift : Nat) (buffer : List Char) (token : Token)
    (rest : List Token) :
    max (token.position + shift) buffer.length <
      (written shift buffer (token :: rest)).length := by
  rw [written_cons, written, List.length_append, List.length_append, length_resized,
    List.length_singleton]
  omega

/-! ### Checked arithmetic -/

/-- Columns are never left of the places they belong to, and the length of the buffer bounds all
sums. -/
theorem checkedWrite_eq (small : buffer.length < 2 ^ bits) :
    checkedWrite bits shift buffer tokens =
      if (written shift buffer tokens).length < 2 ^ bits then some (written shift buffer tokens)
      else none := by
  induction tokens generalizing shift buffer with
  | nil => rw [checkedWrite, written, placements_nil, spread_nil, List.append_nil, if_pos small]
  | cons token rest ih =>
      rw [checkedWrite_cons]
      split
      · next fits =>
        rw [written_cons]
        exact ih (by simpa using fits)
      · next large =>
        have longer := max_lt_length_written shift buffer token rest
        rw [if_neg (by omega)]

theorem checkedProjection_eq (bits : Nat) (t : Tree) :
    t.checkedProjection bits =
      if t.projection.length < 2 ^ bits then some t.projection else none := by
  have small : ([] : List Char).length < 2 ^ bits := Nat.two_pow_pos bits
  rw [checkedProjection, checkedWrite_eq small, ← toList_projection, String.length_toList]
  split <;> simp

/-! ### Projections of texts -/

/-- A text is written from its first column on with blanks for separators, behind a gap of blanks
between the buffer and the text. -/
theorem written_ofChars (buffer : List Char) (gap : Nat)
    (separated : ∀ c ∈ text, Scan.hasColumn c = !Scan.isSeparator c) :
    written 0 buffer (Token.ofChars (buffer.length + gap) text) =
      buffer ++ ((List.replicate gap ' ' ++ text).rdropWhile Scan.isSeparator).map
        Scan.withoutSeparator := by
  induction text generalizing buffer gap with
  | nil =>
      have blank : ∀ c ∈ List.replicate gap ' ' ++ [], Scan.isSeparator c = true := by
        intro c member
        rw [List.append_nil] at member
        rw [List.eq_of_mem_replicate member]
        rfl
      rw [List.rdropWhile_eq_nil_iff.2 blank]
      rfl
  | cons c text ih =>
      have later := fun d member => separated d (List.mem_cons_of_mem c member)
      have here := separated c List.mem_cons_self
      rw [Token.ofChars_cons, here, Nat.add_assoc]
      cases separator : Scan.isSeparator c with
      | true =>
          have shown : Scan.withoutSeparator c = ' ' := if_pos separator
          rw [Bool.not_true, if_neg Bool.false_ne_true, List.nil_append, ih _ _ later,
            Scan.map_withoutSeparator_rdropWhile, Scan.map_withoutSeparator_rdropWhile,
            List.replicate_succ', List.append_assoc]
          simp only [List.map_append, List.map_cons, List.singleton_append, shown]
          rfl
      | false =>
          have shown : Scan.withoutSeparator c = c := if_neg (by simp [separator])
          have blank : Scan.withoutSeparator ' ' = ' ' := rfl
          have column : max (buffer.length + gap + 0) buffer.length = buffer.length + gap := by
            omega
          have next := ih (resized (buffer.length + gap) buffer ++ [c]) 0 later
          rw [List.length_append, length_resized, List.length_singleton, Nat.add_zero,
            Nat.add_assoc] at next
          rw [Bool.not_false, if_pos rfl, List.singleton_append, written_cons, column,
            Nat.sub_self, Token.symbol, Token.Kind.symbol_ofChar, next,
            rdropWhile_append_cons _ _ separator, resized_of_length_le (by omega)]
          simp [shown, blank]

theorem projection_of_read {text : String} {t : Tree} (read : Tree.read text = .ok t) :
    t.projection = String.ofList
      ((text.toList.rdropWhile Scan.isSeparator).map Scan.withoutSeparator) := by
  have whole := written_ofChars [] 0 (hasColumn_eq_of_read read)
  rw [String.ext_iff, toList_projection, tokens_of_read read, String.toList_ofList]
  exact whole

/-! ### Projections of trees -/

/-- A projection shows the tokens of a tree in the columns they are paired with. -/
structure Projects (t : Tree) (placed : List (Nat × Token)) : Prop where
  tokens : placed.map Prod.snd = t.tokens
  first : placed.head?.map Prod.fst = t.tokens.head?.map Token.position
  distance : placed.IsChain KeepsDistance
  position_le : ∀ entry ∈ placed, entry.2.position ≤ entry.1
  shown : ∀ entry ∈ placed, t.projection.toList[entry.1]? = some entry.2.symbol
  blank : ∀ i < t.projection.length, i ∉ placed.map Prod.fst → t.projection.toList[i]? = some ' '
  length : placed.getLast?.map (fun last => last.1 + 1) = some t.projection.length

theorem projects_placements (t : Tree) : t.Projects (placements 0 0 t.tokens) where
  tokens := map_snd_placements 0 0 t.tokens
  first := by
    cases t.tokens with
    | nil => rfl
    | cons token rest =>
        rw [placements, List.head?_cons, Option.map_some, List.head?_cons, Option.map_some,
          Nat.add_zero, Nat.max_zero]
  distance := isChain_placements 0 0 t.tokens
  position_le _ member := position_le_of_mem_placements member
  shown entry member := by
    rw [toList_projection]
    exact getElem?_written member
  blank i inside between := by
    rw [← String.length_toList, toList_projection] at inside
    rw [toList_projection]
    exact getElem?_written_of_not_mem (Nat.zero_le i) inside between
  length := by
    rw [← String.length_toList, toList_projection, length_written]
    cases last : (placements 0 0 t.tokens).getLast? with
    | some entry => simp
    | none =>
        have none : placements 0 0 t.tokens = [] := List.getLast?_eq_none_iff.1 last
        have tokens := map_snd_placements 0 0 t.tokens
        rw [none] at tokens
        exact absurd tokens.symm t.tokens_ne_nil

/-- The projection of a tree shows every token once, in order and never left of its place: the first
token in its place and each later one as far behind the token before it as their places are apart,
but at least one column. All other columns up to the last token are blank. Nothing stops the
arithmetic but a text too long for its length to be a word. The projection of the tree of a text is
the text up to the last token, with blanks for separators. -/
theorem projection_places_tokens (t : Tree) :
    t.Projects (placements 0 0 t.tokens) ∧
    (∀ bits, t.checkedProjection bits =
      if t.projection.length < 2 ^ bits then some t.projection else none) ∧
    ∀ text, Tree.read text = .ok t → t.projection =
      String.ofList ((text.toList.rdropWhile Scan.isSeparator).map Scan.withoutSeparator) := by
  refine ⟨projects_placements t, ?_, ?_⟩
  · intro bits
    exact checkedProjection_eq bits t
  · intro text read
    exact projection_of_read read

/-- The sign and its letter share a place, and the last letter comes from a place before them. The
text has blanks and parentheses around all its tokens. -/
theorem projection_places_tokens_shared :
    let t : Tree := .composite (.proposition (some ⟨.negation, 2⟩) ⟨.letter 'p', 2⟩)
      ⟨.connective .disjunction, 9⟩ (.proposition none ⟨.letter 'q', 1⟩)
    (t.Projects (placements 0 0 t.tokens) ∧
      (placements 0 0 t.tokens).map Prod.fst = [2, 3, 10, 11]) ∧
    t.checkedProjection 64 = some "  ~p      |q" ∧ t.checkedProjection 3 = none ∧
    ∃ r, Tree.read " ~(( é) >\t(q ) ) " = .ok r ∧ r.projection = " ~   é  >  q" := by
  intro t
  obtain ⟨projects, checked, -⟩ := projection_places_tokens t
  refine ⟨⟨projects, rfl⟩, ?_, ?_, ?_⟩
  · rw [checked, if_pos (by decide)]
    rfl
  · rw [checked, if_neg (by decide)]
  · obtain ⟨r, read⟩ : ∃ r, Tree.read " ~(( é) >\t(q ) ) " = .ok r := ⟨_, rfl⟩
    refine ⟨r, read, ?_⟩
    rw [(projection_places_tokens r).2.2 _ read]
    decide

end Tree

end Sentential
