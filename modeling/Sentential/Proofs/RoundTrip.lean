import Sentential.Proofs.Letters
import Sentential.Reading.Reread
import Sentential.Tree.Text

/-!
# Writing and reading are inverse

The trees that are read are canonical: this goes by induction on their derivations. Conversely, the
text of a tree that fits the grammar derives the reread tree, which a canonical tree is itself. For
this there is one rule for each way in which the text of a tree is put together from the texts of
its parts, and the induction over the tree applies them. So reading the text of a tree gives the
tree back exactly if it is canonical.
-/

namespace Sentential

/-! ### Trees that are read -/

namespace Reader

@[simp] theorem isUnmarked_grouped (t : Tree) : (grouped t).isUnmarked = false := by
  cases t <;> rfl

@[simp] theorem regular_grouped (t : Tree) : (grouped t).Regular ↔ t.Regular := by
  cases t with
  | proposition negation letter => exact and_iff_right rfl
  | negated | bare | composite | formula => rfl

@[simp] theorem shape_grouped (t : Tree) : (grouped t).shape = grouped t.shape := by
  cases t <;> rfl

end Reader

namespace Derivation

variable {phrase : Phrase}

theorem isUnmarked_group (d : Derivation .group) : d.tree.isUnmarked = false := by
  cases d with
  | enclosed first inner last => rw [tree_enclosed, Reader.isUnmarked_grouped]

/-- An operand that begins with a letter is this letter. -/
theorem isUnmarked_tree (d : Derivation .operand) :
    d.tree.isUnmarked = Sign.letterFirst d.signs := by
  cases d with
  | plain inner => cases inner <;> rfl
  | negatedGroup | negatedOperand => rfl
  | grouped inner => exact inner.isUnmarked_group.trans inner.letterFirst_group.symm

/-- A negation sign can come before any operand of a marking derivation. If the operand is a letter,
the sign has to become its mark. -/
theorem exists_marked (d : Derivation .operand) (marking : d.Marking) (column : Nat) :
    ∃ d' : Derivation .operand, d'.signs = (.negation, column) :: d.signs ∧ d'.Marking ∧
      d'.tree = d.tree.marked column := by
  cases h : Sign.letterFirst d.signs with
  | false =>
      have headed := Tree.marked_of_isUnmarked_eq_false (d.isUnmarked_tree.trans h)
      exact ⟨.negatedOperand column d, rfl, ⟨h, marking⟩, (headed _).symm⟩
  | true =>
      cases d with
      | plain inner =>
          cases inner with
          | letter c place => exact ⟨.plain (.markedLetter column c place), rfl, trivial, rfl⟩
          | markedLetter => cases h
      | negatedGroup | negatedOperand => cases h
      | grouped inner => cases inner.letterFirst_group.symm.trans h

/-- A marking derivation has a regular tree, and a letter for every letter token of it. -/
theorem regular_tree (d : Derivation phrase) (marking : d.Marking)
    (alphabetic : ∀ c ∈ d.tree.letters, isAlphabetic c = true) : d.tree.Regular := by
  induction d with
  | joined left k column right ihl ihr =>
      refine ⟨ihl marking.1 fun c member => ?_, rfl, ihr marking.2 fun c member => ?_⟩
      · exact alphabetic c (List.mem_append_left _ member)
      · exact alphabetic c (List.mem_append_right _ member)
  | single _ ih | plain _ ih | grouped _ ih => exact ih marking alphabetic
  | negatedGroup mark inner ih => exact ⟨rfl, inner.isUnmarked_group, ih marking alphabetic⟩
  | negatedOperand mark inner ih =>
      exact ⟨rfl, inner.isUnmarked_tree.trans marking.1, ih marking.2 alphabetic⟩
  | enclosed first inner last ih =>
      rw [tree_enclosed, Reader.letters_grouped] at alphabetic
      rw [tree_enclosed, Reader.regular_grouped]
      exact ih marking alphabetic
  | letter c column => exact ⟨nofun, alphabetic c List.mem_cons_self⟩
  | markedLetter mark c column => exact ⟨by simp, alphabetic c List.mem_cons_self⟩

end Derivation

namespace Tree

theorem canonical_of_read {text : String} {t : Tree} (h : read text = .ok t) : t.Canonical := by
  obtain ⟨d, spelled, marking, rfl⟩ := exists_derivation_of_readChars (read_eq_ok_iff.1 h)
  refine d.regular_tree marking fun c member => ?_
  rw [d.letters_tree, spelled.letters_eq] at member
  exact (List.mem_filter.1 member).2

end Tree

/-! ### Texts of trees -/

theorem Spells.append {column : Nat} {first second : List Char} {signs signs' : List (Sign × Nat)}
    (h : Spells column first signs) (h' : Spells (column + first.length) second signs') :
    Spells column (first ++ second) (signs ++ signs') := by
  induction h with
  | nil => exact h'
  | @blank column c text signs hb _ ih =>
      refine .blank hb (ih ?_)
      rwa [List.length_cons, Nat.add_comm text.length, ← Nat.add_assoc] at h'
  | @sign column sign c text signs written _ ih =>
      refine .sign written (ih ?_)
      rwa [List.length_cons, Nat.add_comm text.length, ← Nat.add_assoc] at h'

/-- The text from a column on has a marking derivation of the tree, places apart. -/
def Derives (phrase : Phrase) (column : Nat) (text : List Char) (t : Tree) : Prop :=
  ∃ d : Derivation phrase, Spells column text d.signs ∧ d.Marking ∧ Tree.Similar d.tree t

namespace Derives

variable {column : Nat} {text : List Char} {t : Tree}

theorem letter {letter : Token} (known : letter.isLetter = true) :
    Derives .proposition column [letter.symbol] (.proposition none letter) := by
  obtain ⟨kind, position⟩ := letter
  cases kind with
  | letter c => exact ⟨.letter c column, .sign ⟨rfl, known⟩ (.nil _), trivial, rfl⟩
  | negation | connective => cases known

theorem plain : Derives .proposition column text t → Derives .operand column text t
  | ⟨d, spelled, marking, similar⟩ => ⟨.plain d, spelled, marking, similar⟩

theorem grouped : Derives .group column text t → Derives .operand column text t
  | ⟨d, spelled, marking, similar⟩ => ⟨.grouped d, spelled, marking, similar⟩

theorem single : Derives .operand column text t → Derives .formula column text t
  | ⟨d, spelled, marking, similar⟩ => ⟨.single d, spelled, marking, similar⟩

theorem enclosed (h : Derives .formula (column + 1) text t) :
    Derives .group column (Tree.enclosed text) (Reader.grouped t) := by
  obtain ⟨d, spelled, marking, similar⟩ := h
  refine ⟨.enclosed column d (column + 1 + text.length), ?_, ?_, ?_⟩
  · exact .sign rfl (spelled.append (.sign rfl (.nil _)))
  · exact marking
  · rw [Derivation.tree_enclosed, Tree.Similar, Reader.shape_grouped, similar, Reader.shape_grouped]

/-- A negation sign goes before any operand, as its mark or as its head. -/
theorem marked {mark : Token} (negates : mark.symbol = '~')
    (h : Derives .operand (column + 1) text t) :
    Derives .operand column (mark.symbol :: text) (t.marked mark.position) := by
  obtain ⟨d, spelled, marking, similar⟩ := h
  obtain ⟨d', signs_eq, marking', tree_eq⟩ := d.exists_marked marking column
  refine ⟨d', ?_, marking', ?_⟩
  · rw [signs_eq]
    exact .sign negates spelled
  · rw [tree_eq]
    exact similar.marked column mark.position

theorem joined {left right : List Char} {l r : Tree} {operator : Token}
    (connects : operator.connective?.isSome) (first : Derives .operand column left l)
    (second : Derives .operand (column + left.length + 3) right r) :
    Derives .formula column (left ++ [' ', operator.symbol, ' '] ++ right)
      (.composite l operator r) := by
  obtain ⟨dl, spelledLeft, markingLeft, similarLeft⟩ := first
  obtain ⟨dr, spelledRight, markingRight, similarRight⟩ := second
  obtain ⟨kind, position⟩ := operator
  cases kind with
  | letter | negation => cases connects
  | connective k =>
      refine ⟨.joined dl k (column + left.length + 1) dr, ?_, ?_, ?_⟩
      · rw [List.append_assoc]
        exact spelledLeft.append (.blank rfl (.sign rfl (.blank rfl spelledRight)))
      · exact ⟨markingLeft, markingRight⟩
      · exact .composite similarLeft rfl similarRight

end Derives

namespace Tree

/-- The characters of a tree where it is an operand. -/
def operandChars (t : Tree) : List Char :=
  if t.isCompound then enclosed t.chars else t.chars

variable {t : Tree}

/-- The text of a tree that fits derives the reread tree. An operand in parentheses and a whole
formula have their text in common, so the two go together. -/
theorem Fitting.derives (h : t.Fitting) (column : Nat) :
    Derives .operand column t.operandChars t.reread ∧ Derives .formula column t.chars t.reread := by
  induction t generalizing column with
  | proposition negation letter =>
      have name (column : Nat) :
          Derives .operand column [letter.symbol] (proposition none letter) := .plain (.letter h.2)
      cases negation with
      | none => exact ⟨name column, (name column).single⟩
      | some mark =>
          have whole := Derives.marked (h.1 mark rfl) (name (column + 1))
          exact ⟨whole, whole.single⟩
  | negated mark operand ih =>
      have whole := Derives.marked h.1 (ih h.2 (column + 1)).1
      exact ⟨whole, whole.single⟩
  | bare child ih =>
      have group := Derives.enclosed (ih h (column + 1)).2
      exact ⟨group.grouped, group.grouped.single⟩
  | composite left operator right ihl ihr =>
      have whole (column : Nat) : Derives .formula column (composite left operator right).chars
          (composite left operator right).reread :=
        .joined h.2.1 (ihl h.1 _).1 (ihr h.2.2 _).1
      exact ⟨.grouped (.enclosed (whole _)), whole _⟩
  | formula child ih => exact ih h column

/-! ### There and back -/

/-- Every tree that fits has a text that is a formula. -/
theorem Fitting.read_text (h : t.Fitting) :
    ∃ back, read t.text = .ok back ∧ Similar back (.formula t.reread) := by
  obtain ⟨d, spelled, marking, similar⟩ := (h.derives 0).2
  refine ⟨.formula d.tree, ?_, congrArg Tree.formula similar⟩
  rw [read_eq_ok_iff, toList_text]
  exact readChars_of_derivation spelled marking

theorem Canonical.read_text (h : t.Canonical) :
    ∃ back, read t.text = .ok back ∧ Similar back t := by
  obtain ⟨back, readBack, similar⟩ := h.fitting.read_text
  cases t with
  | formula child =>
      have regular : child.Regular := h
      rw [reread, regular.reread_eq] at similar
      exact ⟨back, readBack, similar⟩
  | proposition | negated | bare | composite => exact h.elim

/-- Canonical trees with the same text differ at most in the places of their tokens. -/
theorem Canonical.similar_iff {a b : Tree} (ha : a.Canonical) (hb : b.Canonical) :
    Similar a b ↔ a.text = b.text := by
  refine ⟨Similar.text_eq, fun same => ?_⟩
  obtain ⟨back, readBack, similar⟩ := ha.read_text
  obtain ⟨back', readBack', similar'⟩ := hb.read_text
  rw [same, readBack', Except.ok.injEq] at readBack
  exact similar.symm.trans (readBack ▸ similar')

/-- Reading the text of a tree gives the tree back exactly if it is canonical. All trees that are
read are, so writing one and reading it again changes nothing but places, and texts whose trees are
written alike have the same tree. -/
theorem read_text_iff_canonical (t : Tree) :
    ((∃ back, read t.text = .ok back ∧ Similar back t) ↔ t.Canonical) ∧
    ∀ text, read text = .ok t → t.Canonical ∧ (∃ back, read t.text = .ok back ∧ Similar back t) ∧
      ∀ text' t', read text' = .ok t' → (Similar t t' ↔ t.text = t'.text) := by
  refine ⟨⟨?_, Canonical.read_text⟩, fun text h => ?_⟩
  · rintro ⟨back, readBack, similar⟩
    exact similar.canonical_iff.1 (canonical_of_read readBack)
  · have canonical := canonical_of_read h
    exact ⟨canonical, canonical.read_text, fun text' t' h' =>
      canonical.similar_iff (canonical_of_read h')⟩

/-- A sign directly before a letter is always read as its mark. -/
example :
    ¬ Canonical (.formula (.negated ⟨.negation, 0⟩ (.proposition none ⟨.letter 'p', 1⟩))) := by
  decide

end Tree

end Sentential
