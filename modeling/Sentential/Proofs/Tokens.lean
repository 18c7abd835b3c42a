import Mathlib.Data.List.Forall2
import Sentential.Proofs.Columns

/-!
# The tokens of a text, in place

Blanks and parentheses separate the tokens of a text and leave none. In a text that is a formula
every other character is a token: its kind is the one that the character denotes, and its place is
the column of the character. The tree has these tokens from left to right, whatever parentheses and
operands it regroups.
-/

namespace Sentential

/-- Whether a character is a blank or a parenthesis. -/
def Scan.isSeparator (c : Char) : Bool :=
  isBlank c || c = '(' || c = ')'

namespace Token

/-- A character denotes a kind of tokens. -/
inductive Kind.DenotedBy : Kind → Char → Prop
  | letter {c : Char} (alphabetic : isAlphabetic c = true) : DenotedBy (.letter c) c
  | negation : DenotedBy .negation '~'
  | conjunction : DenotedBy (.connective .conjunction) '&'
  | disjunction : DenotedBy (.connective .disjunction) '|'
  | implication : DenotedBy (.connective .implication) '>'
  | equivalence : DenotedBy (.connective .equivalence) '='

/-- Characters with a column denote the kind of token that is read from them. -/
theorem Kind.denotedBy_ofChar {c : Char} (h : Scan.hasColumn c = true) :
    (Kind.ofChar c).DenotedBy c := by
  cases alphabetic : isAlphabetic c with
  | true =>
      rw [ofChar_of_isAlphabetic alphabetic]
      exact .letter alphabetic
  | false =>
      have operator : Scan.isOperator c = true := by simpa [Scan.hasColumn, alphabetic] using h
      simp only [Scan.isOperator, Bool.or_eq_true, decide_eq_true_eq,
        Option.isSome_iff_exists] at operator
      obtain rfl | ⟨k, hk⟩ := operator
      · exact .negation
      · obtain rfl := Connective.symbol_of_ofChar? hk
        cases k with
        | conjunction => exact .conjunction
        | disjunction => exact .disjunction
        | implication => exact .implication
        | equivalence => exact .equivalence

/-- The columns of the tokens of a text increase. -/
theorem pairwise_position_ofChars (column : Nat) (text : List Char) :
    ((ofChars column text).map position).Pairwise (· < ·) := by
  have columns : ((text.zipIdx column).map Prod.snd).Pairwise (· < ·) := by
    rw [List.zipIdx_map_snd]
    exact List.pairwise_lt_range'
  rw [ofChars, List.map_map]
  refine List.Pairwise.sublist ?_ columns
  exact List.filter_sublist.map Prod.snd

end Token

/-! ### Separators -/

theorem Sign.hasColumn_of_writtenAs {sign : Sign} {c : Char} (h : sign.WrittenAs c) :
    Scan.hasColumn c = !Scan.isSeparator c := by
  cases sign with
  | letter d =>
      obtain ⟨rfl, alphabetic⟩ := h
      have notMark (mark : Char) (marks : isMark mark = true) : c ≠ mark := by
        intro same
        simp [same, isAlphabetic_eq_false_of_isMark marks] at alphabetic
      have notBlank : isBlank c = false := isBlank_eq_false_of_isAlphabetic alphabetic
      simp [Scan.hasColumn, Scan.isSeparator, alphabetic, notMark '(' rfl, notMark ')' rfl,
        notBlank]
  | negation | opening | closing => cases h; rfl
  | connective k =>
      cases h
      cases k <;> rfl

/-- In a text that spells signs the characters without a column are the separators. -/
theorem Spells.hasColumn_eq {column : Nat} {text : List Char} {signs : List (Sign × Nat)}
    (h : Spells column text signs) :
    ∀ c ∈ text, Scan.hasColumn c = !Scan.isSeparator c := by
  induction h with
  | nil => simp
  | blank blank _ ih =>
      intro c member
      rcases List.mem_cons.1 member with rfl | member
      · simp [Scan.hasColumn_eq_false_of_isBlank blank, Scan.isSeparator, blank]
      · exact ih c member
  | sign written _ ih =>
      intro c member
      rcases List.mem_cons.1 member with rfl | member
      · exact Sign.hasColumn_of_writtenAs written
      · exact ih c member

namespace Tree

variable {text : String} {t : Tree}

theorem hasColumn_eq_of_read (read : Tree.read text = .ok t) :
    ∀ c ∈ text.toList, Scan.hasColumn c = !Scan.isSeparator c := by
  obtain ⟨d, spelled, -, -⟩ := exists_derivation_of_readChars (read_eq_ok_iff.1 read)
  exact spelled.hasColumn_eq

theorem pairwise_position_of_read (read : Tree.read text = .ok t) :
    (t.tokens.map Token.position).Pairwise (· < ·) := by
  rw [tokens_of_read read]
  exact Token.pairwise_position_ofChars 0 text.toList

/-- The tree of a text has one token for each character that is neither a blank nor a parenthesis,
in the order of the text: of the kind that the character denotes, and at its column. -/
theorem tokens_in_place (read : Tree.read text = .ok t) :
    List.Forall₂ (fun token entry => token.kind.DenotedBy entry.1 ∧ token.position = entry.2)
      t.tokens (text.toList.zipIdx.filter fun entry => !Scan.isSeparator entry.1) ∧
    (t.tokens.map Token.position).Pairwise (· < ·) := by
  have characters : (text.toList.zipIdx.filter fun entry => !Scan.isSeparator entry.1) =
      text.toList.zipIdx.filter fun entry => Scan.hasColumn entry.1 := by
    apply List.filter_congr
    intro entry member
    exact (hasColumn_eq_of_read read entry.1 (List.fst_mem_of_mem_zipIdx member)).symm
  refine ⟨?_, pairwise_position_of_read read⟩
  rw [tokens_of_read read, characters, Token.ofChars, List.forall₂_map_left_iff,
    List.forall₂_same]
  intro entry member
  exact ⟨Token.Kind.denotedBy_ofChar (List.mem_filter.1 member).2, rfl⟩

/-- Blanks, nested groups and a letter of two bytes. -/
theorem tokens_in_place_nested :
    ∃ t, Tree.read " ~((é) > ( q ))" = .ok t ∧
      t.tokens = [⟨.negation, 1⟩, ⟨.letter 'é', 4⟩, ⟨.connective .implication, 7⟩,
        ⟨.letter 'q', 11⟩] ∧
      List.Forall₂ (fun token entry => token.kind.DenotedBy entry.1 ∧ token.position = entry.2)
        t.tokens
        (" ~((é) > ( q ))".toList.zipIdx.filter fun entry => !Scan.isSeparator entry.1) ∧
      (t.tokens.map Token.position).Pairwise (· < ·) := by
  refine ⟨_, rfl, rfl, ?_⟩
  exact tokens_in_place rfl

end Tree

end Sentential
