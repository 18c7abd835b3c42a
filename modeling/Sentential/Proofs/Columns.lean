import Sentential.Proofs.Letters
import Sentential.Proofs.Truth
import Sentential.Reading.Reread

/-!
# Tokens and their columns

A text has a token for every letter, negation sign and connective that is written in it, at the
column of that character. The tree of a text has exactly these tokens, in this order: parentheses
and blanks leave none. Evaluation marks the column of every token, so the entries of a row that are
filled in are those under the tokens of the text.
-/

namespace Sentential

/-- Whether a character has a column of its own in a table. -/
def Scan.hasColumn (c : Char) : Bool :=
  isAlphabetic c || isOperator c

/-- The tokens of a text that begins in some column. -/
def Token.ofChars (column : Nat) (text : List Char) : List Token :=
  ((text.zipIdx column).filter fun entry => Scan.hasColumn entry.1).map fun entry =>
    ⟨.ofChar entry.1, entry.2⟩

/-! ### Characters with a column -/

theorem isMark_of_isOperator {c : Char} (h : Scan.isOperator c = true) : isMark c = true := by
  rcases Bool.or_eq_true_iff.1 h with negation | connective
  · rw [of_decide_eq_true negation]
    rfl
  · obtain ⟨k, hk⟩ := Option.isSome_iff_exists.1 connective
    rw [← Connective.symbol_of_ofChar? hk]
    cases k <;> rfl

theorem Scan.hasColumn_eq_false_of_isBlank {c : Char} (h : isBlank c = true) :
    hasColumn c = false := by
  cases operator : isOperator c with
  | false => rw [hasColumn, isAlphabetic_eq_false_of_isBlank h, operator, Bool.or_self]
  | true =>
      rw [isBlank_eq_false_of_isMark (isMark_of_isOperator operator)] at h
      cases h

theorem Token.Kind.ofChar_of_isAlphabetic {c : Char} (h : isAlphabetic c = true) :
    ofChar c = .letter c := by
  have notOperator : Scan.isOperator c = false := by
    cases operator : Scan.isOperator c with
    | false => rfl
    | true =>
        rw [isAlphabetic_eq_false_of_isMark (isMark_of_isOperator operator)] at h
        cases h
  obtain ⟨notNegation, notConnective⟩ := Bool.or_eq_false_iff.1 notOperator
  rw [ofChar, if_neg (of_decide_eq_false notNegation),
    Option.not_isSome_iff_eq_none.1 (Bool.eq_false_iff.1 notConnective)]

namespace Token

theorem ofChars_cons (column : Nat) (c : Char) (text : List Char) :
    ofChars column (c :: text) =
      (if Scan.hasColumn c then [⟨.ofChar c, column⟩] else []) ++ ofChars (column + 1) text := by
  rw [ofChars, List.zipIdx_cons, List.filter_cons]
  split <;> rfl

theorem length_ofChars (column : Nat) (text : List Char) :
    (ofChars column text).length = text.countP Scan.hasColumn := by
  induction text generalizing column with
  | nil => rfl
  | cons c text ih =>
      rw [ofChars_cons, List.length_append, ih, List.countP_cons]
      split
      · exact Nat.add_comm _ _
      · exact Nat.zero_add _

/-- The tokens are those of the characters that have a column. -/
theorem mem_ofChars_iff {token : Token} {text : List Char} :
    token ∈ ofChars 0 text ↔ ∃ c, text[token.position]? = some c ∧ Scan.hasColumn c = true ∧
      token.kind = .ofChar c := by
  rw [ofChars, List.mem_map]
  constructor
  · rintro ⟨⟨c, i⟩, member, rfl⟩
    obtain ⟨inside, column⟩ := List.mem_filter.1 member
    exact ⟨c, List.mem_zipIdx_iff_getElem?.1 inside, column, rfl⟩
  · obtain ⟨kind, i⟩ := token
    rintro ⟨c, inside, column, rfl⟩
    exact ⟨(c, i), List.mem_filter.2 ⟨List.mem_zipIdx_iff_getElem?.2 inside, column⟩, rfl⟩

theorem mem_map_position_ofChars {i : Nat} {text : List Char} :
    i ∈ (ofChars 0 text).map position ↔ ∃ c, text[i]? = some c ∧ Scan.hasColumn c = true := by
  simp only [List.mem_map, mem_ofChars_iff]
  constructor
  · rintro ⟨token, ⟨c, inside, column, -⟩, rfl⟩
    exact ⟨c, inside, column⟩
  · rintro ⟨c, inside, column⟩
    exact ⟨⟨.ofChar c, i⟩, ⟨c, inside, column, rfl⟩, rfl⟩

end Token

/-! ### The tokens of a tree -/

namespace Sign

/-- The token that a sign leaves in a tree. -/
def token? (column : Nat) : Sign → Option Token
  | letter c => some ⟨.letter c, column⟩
  | negation => some ⟨.negation, column⟩
  | connective k => some ⟨.connective k, column⟩
  | opening | closing => none

/-- The tokens that some signs leave. -/
def tokens (signs : List (Sign × Nat)) : List Token :=
  signs.filterMap fun entry => entry.1.token? entry.2

theorem toList_token?_of_writtenAs {c : Char} {sign : Sign} (h : sign.WrittenAs c) (column : Nat) :
    (sign.token? column).toList = if Scan.hasColumn c then [⟨.ofChar c, column⟩] else [] := by
  cases sign with
  | letter d =>
      obtain ⟨rfl, alphabetic⟩ := h
      rw [Scan.hasColumn, alphabetic, Token.Kind.ofChar_of_isAlphabetic alphabetic]
      rfl
  | connective k =>
      have hc : c = k.symbol := h
      subst hc
      cases k <;> rfl
  | negation | opening | closing => cases h; rfl

end Sign

theorem Spells.tokens_eq {column : Nat} {text : List Char} {signs : List (Sign × Nat)}
    (h : Spells column text signs) : Sign.tokens signs = Token.ofChars column text := by
  induction h with
  | nil => rfl
  | blank blank _ ih =>
      rw [ih, Token.ofChars_cons, Scan.hasColumn_eq_false_of_isBlank blank]
      rfl
  | @sign column sign c text signs written _ ih =>
      rw [Token.ofChars_cons, ← ih, ← Sign.toList_token?_of_writtenAs written, Sign.tokens,
        List.filterMap_cons]
      cases sign <;> rfl

theorem Derivation.tokens_tree {phrase : Phrase} (d : Derivation phrase) :
    d.tree.tokens = Sign.tokens d.signs := by
  induction d with
  | joined left k column right ihl ihr =>
      rw [tree, Tree.tokens, signs, Sign.tokens, List.filterMap_append, ihl, ihr]
      rfl
  | enclosed first inner last ih =>
      rw [tree_enclosed, Reader.tokens_grouped, ih, signs, Sign.tokens, Sign.tokens,
        List.filterMap_cons, List.filterMap_append]
      simp [Sign.token?]
  | negatedGroup mark inner ih | negatedOperand mark inner ih =>
      rw [tree, Tree.tokens, ih]
      rfl
  | single _ ih | plain _ ih | grouped _ ih => exact ih
  | letter | markedLetter => rfl

namespace Tree

variable {text : String} {t : Tree}

/-- The tree of a text has the tokens of the text, in their columns. -/
theorem tokens_of_read (h : read text = .ok t) : t.tokens = Token.ofChars 0 text.toList := by
  obtain ⟨d, spelled, -, rfl⟩ := exists_derivation_of_readChars (read_eq_ok_iff.1 h)
  rw [tokens, d.tokens_tree, spelled.tokens_eq]

end Tree

/-! ### Entries -/

theorem Evaluation.isSome_getElem?_layOut {width : Nat} {marks : List (Nat × UInt8)} {i : Nat}
    (inside : i < width) :
    (layOut width marks)[i]?.map Option.isSome = some (decide (i ∈ marks.map Prod.fst)) := by
  rw [getElem?_layOut, if_pos inside, Option.map_some, Option.some.injEq, Bool.eq_iff_iff,
    decide_eq_true_iff, List.lookup_isSome_iff, List.mem_map]
  constructor
  · rintro ⟨mark, member, same⟩
    exact ⟨mark, List.mem_reverse.1 member, (beq_iff_eq.1 same).symm⟩
  · rintro ⟨mark, member, rfl⟩
    exact ⟨mark, List.mem_reverse.2 member, beq_self_eq_true _⟩

namespace Tree

variable {text : String} {t : Tree} {v : Valuation} {evaluation : Evaluation}

/-- In a row of a text the entries of the characters with a column are filled in, and no others. -/
theorem isSome_entries (read : Tree.read text = .ok t)
    (h : t.evaluate v text.length = .ok evaluation) :
    evaluation.entries.map Option.isSome = text.toList.map Scan.hasColumn := by
  obtain ⟨-, rfl⟩ := evaluate_eq_ok_iff.1 h
  refine List.ext_getElem? fun i => ?_
  have marked : i ∈ (t.truthTrace v.holds).marks.map Prod.fst ↔
      ∃ c, text.toList[i]? = some c ∧ Scan.hasColumn c = true := by
    rw [(t.map_fst_marks_perm v.holds).mem_iff, tokens_of_read read,
      Token.mem_map_position_ofChars]
  rw [List.getElem?_map, List.getElem?_map]
  cases inside : text.toList[i]? with
  | none =>
      have beyond : ¬ i < text.length := by
        rw [← String.length_toList]
        exact Nat.not_lt.2 (List.getElem?_eq_none_iff.1 inside)
      rw [Evaluation.getElem?_layOut, if_neg beyond]
      rfl
  | some c =>
      have within : i < text.length := by
        rw [← String.length_toList]
        exact (List.getElem?_eq_some_iff.1 inside).1
      rw [Evaluation.isSome_getElem?_layOut within, Option.map_some, Option.some.injEq,
        Bool.eq_iff_iff, decide_eq_true_iff, marked, inside]
      simp

/-- As many entries of a row are filled in as the tree has tokens. -/
theorem countP_isSome_entries (read : Tree.read text = .ok t)
    (h : t.evaluate v text.length = .ok evaluation) :
    evaluation.entries.countP Option.isSome = t.tokens.length := by
  have counted := congrArg (List.countP id) (isSome_entries read h)
  rw [List.countP_map, List.countP_map] at counted
  rw [tokens_of_read read, Token.length_ofChars]
  exact counted

end Tree

end Sentential
