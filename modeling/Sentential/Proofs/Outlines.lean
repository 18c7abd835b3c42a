import Sentential.Proofs.Columns
import Sentential.Tree.Outline
import Sentential.Tree.Subtrees

/-!
# An outline determines its tree

An outline is read back from its last line to its first, with a stack of the parts that stand below
the lines read so far. A line of one character is a token and goes onto the stack. The line of a
node takes from the stack the parts that stand one level deeper, which are its own: whatever follows
the node in the outline stands no deeper than the node itself. The words of nodes do not tell a
negation from parentheses, but the parts do.

This reads back every tree whose letters are alphabetic, however its nodes are nested, and whatever
tokens stand for its operators. Other letters could be a blank or a line break, or look like an
operator.
-/

namespace Sentential

/-! ### Legible trees -/

/-- A token that can be told from its character. -/
def Token.isLegible (token : Token) : Bool :=
  match token.kind with
  | .letter c => isAlphabetic c
  | .negation => true
  | .connective _ => true

namespace Token

variable {token : Token}

theorem ofChar_symbol (h : token.isLegible = true) : Kind.ofChar token.symbol = token.kind := by
  obtain ⟨kind, position⟩ := token
  cases kind with
  | letter c => exact Kind.ofChar_of_isAlphabetic h
  | negation => rfl
  | connective k => cases k <;> rfl

theorem isBlank_symbol (h : token.isLegible = true) : isBlank token.symbol = false := by
  obtain ⟨kind, position⟩ := token
  cases kind with
  | letter c => exact isBlank_eq_false_of_isAlphabetic h
  | negation => exact isBlank_eq_false_of_isMark rfl
  | connective k => cases k <;> exact isBlank_eq_false_of_isMark rfl

end Token

namespace Tree

/-- The letters of a tree are alphabetic, wherever they stand. -/
def Legible (t : Tree) : Prop :=
  ∀ token ∈ t.tokens, token.isLegible = true

instance : DecidablePred Legible :=
  fun t => inferInstanceAs (Decidable (∀ token ∈ t.tokens, token.isLegible = true))

/-! ### Lines -/

namespace OutlineLine

/-- A line that shows where its label begins and ends. -/
def Legible (line : OutlineLine) : Prop :=
  ∀ c ∈ line.label, isBlank c = false

/-- The characters of a line before its line break. -/
def indented (line : OutlineLine) : List Char :=
  List.replicate (2 * line.depth) ' ' ++ line.label

/-- The line that has some characters before its line break. -/
def ofIndented (text : List Char) : OutlineLine :=
  ⟨(text.takeWhile (· = ' ')).length / 2, text.dropWhile (· = ' ')⟩

variable {line : OutlineLine}

theorem chars_eq (line : OutlineLine) : line.chars = line.indented ++ ['\n'] := rfl

theorem Legible.ofIndented_indented (h : line.Legible) : ofIndented line.indented = line := by
  obtain ⟨depth, label⟩ := line
  have blanks : ∀ c ∈ List.replicate (2 * depth) ' ', decide (c = ' ') = true :=
    fun c member => decide_eq_true (List.eq_of_mem_replicate member)
  have rest : label.takeWhile (· = ' ') = [] ∧ label.dropWhile (· = ' ') = label := by
    cases label with
    | nil => exact ⟨rfl, rfl⟩
    | cons c label =>
        have first : ¬ c = ' ' := by
          rintro rfl
          cases h ' ' List.mem_cons_self
        simp [first]
  rw [ofIndented, indented, List.takeWhile_append_of_pos blanks,
    List.dropWhile_append_of_pos blanks, rest.1, rest.2, List.append_nil, List.length_replicate,
    Nat.mul_div_cancel_left depth Nat.two_pos]

theorem Legible.not_mem_indented (h : line.Legible) : '\n' ∉ line.indented := by
  intro member
  rcases List.mem_append.1 member with indentation | label
  · cases List.eq_of_mem_replicate indentation
  · cases h '\n' label

/-- The lines that make up an outline. -/
def ofText (text : List Char) : List OutlineLine :=
  (text.splitOn '\n').dropLast.map ofIndented

theorem splitOn_flatMap_chars {lines : List OutlineLine} (h : ∀ line ∈ lines, line.Legible) :
    (lines.flatMap chars).splitOn '\n' = lines.map indented ++ [[]] := by
  induction lines with
  | nil => rfl
  | cons line lines ih =>
      obtain ⟨first, others⟩ := List.forall_mem_cons.1 h
      rw [List.flatMap_cons, chars_eq, List.append_assoc, List.singleton_append,
        List.splitOn_append_cons_self_of_not_mem first.not_mem_indented, ih others]
      rfl

theorem ofText_flatMap_chars {lines : List OutlineLine} (h : ∀ line ∈ lines, line.Legible) :
    ofText (lines.flatMap chars) = lines := by
  rw [ofText, splitOn_flatMap_chars h, List.dropLast_concat, List.map_map]
  exact (List.map_congr_left fun line member => (h line member).ofIndented_indented).trans
    (List.map_id lines)

theorem Legible.count_chars (h : line.Legible) : line.chars.count '\n' = 1 := by
  rw [chars_eq, List.count_append, List.count_eq_zero_of_not_mem h.not_mem_indented,
    List.count_singleton_self]

/-- Every line has its line break, and no other. -/
theorem count_flatMap_chars {lines : List OutlineLine} (h : ∀ line ∈ lines, line.Legible) :
    (lines.flatMap chars).count '\n' = lines.length := by
  induction lines with
  | nil => rfl
  | cons line lines ih =>
      obtain ⟨first, others⟩ := List.forall_mem_cons.1 h
      rw [List.flatMap_cons, List.count_append, first.count_chars, ih others, List.length_cons,
        Nat.add_comm]

theorem getLast?_flatMap_chars {lines : List OutlineLine} (h : lines ≠ []) :
    (lines.flatMap chars).getLast? = some '\n' := by
  rw [← List.dropLast_concat_getLast h, List.flatMap_append, List.flatMap_singleton,
    chars_eq, ← List.append_assoc, List.getLast?_concat]

end OutlineLine

/-! ### The parts of a node -/

/-- What can stand directly below a node in an outline. -/
inductive Part
  | leaf (token : Token)
  | subtree (t : Tree)
  deriving DecidableEq, Repr

/-- The lines of a part. -/
def Part.lines (depth : Nat) : Part → List OutlineLine
  | leaf token => [⟨depth, [token.symbol]⟩]
  | subtree t => t.outlineLines depth

/-- A part with its tokens taken out of their places. -/
def Part.shape : Part → Part
  | leaf token => .leaf token.unplaced
  | subtree t => .subtree t.shape

/-- The parts of a tree's root from left to right. -/
def parts : Tree → List Part
  | proposition negation letter => (negation.toList ++ [letter]).map .leaf
  | negated mark operand => [.leaf mark, .subtree operand]
  | bare child => [.subtree child]
  | composite left operator right => [.subtree left, .leaf operator, .subtree right]
  | formula child => [.subtree child]

/-- The tree of a sort that has some parts. -/
def ofParts? : Kind → List Part → Option Tree
  | .proposition, [.leaf letter] => some (proposition none letter)
  | .proposition, [.leaf mark, .leaf letter] => some (proposition (some mark) letter)
  | .unary, [.leaf mark, .subtree operand] => some (negated mark operand)
  | .unary, [.subtree child] => some (bare child)
  | .composite, [.subtree left, .leaf operator, .subtree right] =>
    some (composite left operator right)
  | .formula, [.subtree child] => some (formula child)
  | _, _ => none

theorem ofParts?_parts (t : Tree) : ofParts? t.kind t.parts = some t := by
  cases t with
  | proposition negation letter => cases negation <;> rfl
  | negated | bare | composite | formula => rfl

theorem parts_shape (t : Tree) : t.shape.parts = t.parts.map Part.shape := by
  cases t with
  | proposition negation letter => cases negation <;> rfl
  | negated | bare | composite | formula => rfl

theorem outlineLines_eq (t : Tree) (depth : Nat) :
    t.outlineLines depth = nodeLine depth t :: t.parts.flatMap (Part.lines (depth + 1)) := by
  cases t with
  | proposition negation letter => cases negation <;> rfl
  | negated | bare | composite | formula => simp [outlineLines, parts, Part.lines, tokenLine]

@[simp] theorem outlineLines_shape (t : Tree) (depth : Nat) :
    t.shape.outlineLines depth = t.outlineLines depth := by
  induction t generalizing depth with
  | proposition negation letter => cases negation <;> rfl
  | negated mark operand ih => rw [shape, outlineLines, ih]; rfl
  | bare child ih | formula child ih => rw [shape, outlineLines, ih]; rfl
  | composite left operator right ihl ihr => rw [shape, outlineLines, ihl, ihr]; rfl

@[simp] theorem outline_shape (t : Tree) : t.shape.outline = t.outline := by
  rw [outline, outlineLines_shape, outline]

/-- The places of tokens do not show in the outline. -/
theorem Similar.outline_eq {a b : Tree} (h : Similar a b) : a.outline = b.outline :=
  h.congr outline_shape

theorem length_outlineLines (t : Tree) (depth : Nat) :
    (t.outlineLines depth).length = t.subtrees.length + t.tokens.length := by
  induction t generalizing depth with
  | proposition negation letter => cases negation <;> rfl
  | negated mark operand ih | bare operand ih | formula operand ih =>
      simp only [outlineLines, subtrees, tokens, List.length_cons, List.length_append,
        List.length_nil, ih]
      omega
  | composite left operator right ihl ihr =>
      simp only [outlineLines, subtrees, tokens, List.length_cons, List.length_append,
        List.length_nil, ihl, ihr]
      omega

/-- What holds of legible tokens, and of a tree whenever it holds of the parts of its root, holds of
every legible tree. -/
theorem Legible.induction_on_parts {motive : Part → Prop} {t : Tree} (h : t.Legible)
    (leaf : ∀ token : Token, token.isLegible = true → motive (.leaf token))
    (subtree : ∀ t : Tree, (∀ part ∈ t.parts, motive part) → motive (.subtree t)) :
    motive (.subtree t) := by
  induction t with
  | proposition negation letter =>
      refine subtree _ fun part member => ?_
      obtain ⟨token, inside, rfl⟩ := List.mem_map.1 member
      exact leaf token (h token inside)
  | negated mark operand ih =>
      obtain ⟨sign, legible⟩ := List.forall_mem_cons.1 h
      exact subtree _ (List.forall_mem_cons.2
        ⟨leaf mark sign, List.forall_mem_singleton.2 (ih legible)⟩)
  | bare child ih | formula child ih =>
      exact subtree _ (List.forall_mem_singleton.2 (ih h))
  | composite left operator right ihl ihr =>
      obtain ⟨legible, others⟩ := List.forall_mem_append.1 h
      obtain ⟨sign, legible'⟩ := List.forall_mem_cons.1 others
      exact subtree _ (List.forall_mem_cons.2 ⟨ihl legible, List.forall_mem_cons.2
        ⟨leaf operator sign, List.forall_mem_singleton.2 (ihr legible')⟩⟩)

theorem Kind.isBlank_name (kind : Kind) : ∀ c ∈ kind.name.toList, isBlank c = false := by
  have words : kind.name.toList.all (fun c => !isBlank c) = true := by
    cases kind <;> rfl
  intro c member
  exact Bool.not_eq_eq_eq_not.1 (List.all_eq_true.1 words c member)

theorem Legible.outlineLines {t : Tree} (h : t.Legible) (depth : Nat) :
    ∀ line ∈ t.outlineLines depth, line.Legible := by
  refine h.induction_on_parts
    (motive := fun part => ∀ depth, ∀ line ∈ part.lines depth, line.Legible)
    (fun token legible depth => ?_) (fun t parts depth => ?_) depth
  · exact List.forall_mem_singleton.2 (List.forall_mem_singleton.2 (Token.isBlank_symbol legible))
  · rw [Part.lines, outlineLines_eq, List.forall_mem_cons, List.forall_mem_flatMap]
    exact ⟨Kind.isBlank_name t.kind, fun part member => parts part member (depth + 1)⟩

/-! ### Reading an outline back -/

/-- The sort of nodes that a word stands for. -/
def Kind.ofName? (word : List Char) : Option Kind :=
  [proposition, unary, composite, formula].find? fun kind => kind.name.toList = word

/-- Whether something stands directly below a node at some depth. -/
def standsBelow (depth : Nat) (entry : Nat × Part) : Bool :=
  entry.1 = depth + 1

/-- Reads a line onto the parts below it, which stand with their depths on a stack. -/
def readLine (line : OutlineLine) (stack : List (Nat × Part)) : Option (List (Nat × Part)) :=
  match Kind.ofName? line.label with
  | some kind =>
    (ofParts? kind ((stack.takeWhile (standsBelow line.depth)).map Prod.snd)).map fun t =>
      (line.depth, .subtree t) :: stack.dropWhile (standsBelow line.depth)
  | none =>
    match line.label with
    | [c] => some ((line.depth, .leaf ⟨.ofChar c, 0⟩) :: stack)
    | _ => none

/-- Reads lines from the last to the first. -/
def readLines (lines : List OutlineLine) (stack : List (Nat × Part)) :
    Option (List (Nat × Part)) :=
  lines.foldrM readLine stack

theorem readLines_cons (line : OutlineLine) (lines : List OutlineLine)
    (stack : List (Nat × Part)) :
    readLines (line :: lines) stack = (readLines lines stack).bind (readLine line) :=
  List.foldrM_cons

theorem readLines_append (first second : List OutlineLine) (stack : List (Nat × Part)) :
    readLines (first ++ second) stack = (readLines second stack).bind (readLines first) :=
  List.foldrM_append

/-- The tree that a text is the outline of, with its tokens out of their places. -/
def ofOutline? (text : String) : Option Tree :=
  match readLines (OutlineLine.ofText text.toList) [] with
  | some [(0, .subtree t)] => some t
  | _ => none

@[simp] theorem Kind.ofName?_name (kind : Kind) : ofName? kind.name.toList = some kind := by
  cases kind <;> rfl

theorem Kind.ofName?_singleton (c : Char) : ofName? [c] = none := by
  rw [ofName?, List.find?_eq_none]
  intro kind _ same
  have length := congrArg List.length (of_decide_eq_true same)
  cases kind <;> cases length

theorem readLine_leaf {token : Token} (h : token.isLegible = true) (depth : Nat)
    (stack : List (Nat × Part)) :
    readLine ⟨depth, [token.symbol]⟩ stack = some ((depth, .leaf token.unplaced) :: stack) := by
  simp only [readLine, Kind.ofName?_singleton, Token.ofChar_symbol h, Token.unplaced]

/-- Nothing at the top of a stack stands deeper than some depth. -/
def TopAtMost (depth : Nat) (stack : List (Nat × Part)) : Prop :=
  ∀ entry ∈ stack.head?, entry.1 ≤ depth

/-- The line of a node takes the parts of the node from the stack, and nothing else. -/
theorem readLine_nodeLine (t : Tree) {depth : Nat} {stack : List (Nat × Part)}
    (top : TopAtMost depth stack) :
    readLine (nodeLine depth t) (t.parts.map (Prod.mk (depth + 1)) ++ stack) =
      some ((depth, .subtree t) :: stack) := by
  have own : ∀ entry ∈ t.parts.map (Prod.mk (depth + 1)), standsBelow depth entry = true := by
    intro entry member
    obtain ⟨part, -, rfl⟩ := List.mem_map.1 member
    exact decide_eq_true rfl
  have others : stack.takeWhile (standsBelow depth) = [] ∧
      stack.dropWhile (standsBelow depth) = stack := by
    cases stack with
    | nil => exact ⟨rfl, rfl⟩
    | cons entry stack =>
        have above : ¬ standsBelow depth entry = true :=
          decide_eq_true_iff.not.2 (Nat.ne_of_lt (Nat.lt_succ_of_le (top entry rfl)))
        exact ⟨List.takeWhile_cons_of_neg above, List.dropWhile_cons_of_neg above⟩
  have taken : (t.parts.map (Prod.mk (depth + 1))).map Prod.snd = t.parts := by
    rw [List.map_map]
    exact List.map_id t.parts
  simp only [readLine, nodeLine, Kind.ofName?_name, List.takeWhile_append_of_pos own,
    List.dropWhile_append_of_pos own, others, List.append_nil, taken, ofParts?_parts,
    Option.map_some]

/-- The lines of a part are read as the part, whatever follows it that stands no deeper. -/
def Part.ReadsBack (part : Part) : Prop :=
  ∀ depth stack, TopAtMost depth stack →
    readLines (part.lines depth) stack = some ((depth, part.shape) :: stack)

theorem Part.readsBack_leaf {token : Token} (h : token.isLegible = true) :
    (leaf token).ReadsBack := by
  intro depth stack _
  rw [lines, readLines, List.foldrM_cons, List.foldrM_nil]
  exact readLine_leaf h depth stack

theorem readLines_flatMap_lines {parts : List Part} (h : ∀ part ∈ parts, part.ReadsBack)
    {depth : Nat} {stack : List (Nat × Part)} (top : TopAtMost depth stack) :
    readLines (parts.flatMap (Part.lines depth)) stack =
      some ((parts.map Part.shape).map (Prod.mk depth) ++ stack) := by
  induction parts with
  | nil => rfl
  | cons part parts ih =>
      obtain ⟨first, others⟩ := List.forall_mem_cons.1 h
      -- Behind a part comes another one on its level, or what was on the stack before.
      have level : TopAtMost depth ((parts.map Part.shape).map (Prod.mk depth) ++ stack) := by
        cases parts with
        | nil => exact top
        | cons next parts =>
            rintro entry ⟨⟩
            exact Nat.le_refl depth
      rw [List.flatMap_cons, readLines_append, ih others, Option.bind_some, first depth _ level]
      rfl

/-- A tree is read back once its parts are. -/
theorem Part.readsBack_subtree {t : Tree} (h : ∀ part ∈ t.parts, part.ReadsBack) :
    (subtree t).ReadsBack := by
  intro depth stack top
  have deeper : TopAtMost (depth + 1) stack :=
    fun entry first => Nat.le_succ_of_le (top entry first)
  have word : nodeLine depth t = nodeLine depth t.shape := by
    rw [nodeLine, nodeLine, kind_shape]
  rw [lines, outlineLines_eq, readLines_cons, readLines_flatMap_lines h deeper, Option.bind_some,
    ← parts_shape, word]
  exact readLine_nodeLine t.shape top

/-- The outline of a tree with alphabetic letters is read back. -/
theorem ofOutline?_outline {t : Tree} (h : t.Legible) : ofOutline? t.outline = some t.shape := by
  have readsBack : (Part.subtree t).ReadsBack :=
    h.induction_on_parts (fun _ => Part.readsBack_leaf) fun _ => Part.readsBack_subtree
  have top : TopAtMost 0 [] := fun entry first => by cases first
  have whole : readLines (t.outlineLines 0) [] = some [(0, .subtree t.shape)] :=
    readsBack 0 [] top
  simp only [ofOutline?, outline, String.toList_ofList,
    OutlineLine.ofText_flatMap_chars (h.outlineLines 0), whole]

/-- Trees with alphabetic letters have the same outline exactly if they agree in all but the places
of their tokens. An outline ends with a line break, and has one line for every node and one for
every token. -/
theorem outline_determines_tree {a b : Tree} (ha : a.Legible) (hb : b.Legible) :
    (a.outline = b.outline ↔ Similar a b) ∧
      a.outline.toList.getLast? = some '\n' ∧
      a.outline.toList.count '\n' = a.subtrees.length + a.tokens.length := by
  refine ⟨⟨fun same => ?_, Similar.outline_eq⟩, ?_, ?_⟩
  · have shapes : some a.shape = some b.shape := by
      rw [← ofOutline?_outline ha, same, ofOutline?_outline hb]
    exact Option.some.inj shapes
  · rw [outline, String.toList_ofList, OutlineLine.getLast?_flatMap_chars]
    rw [outlineLines_eq]
    exact List.cons_ne_nil _ _
  · rw [outline, String.toList_ofList, OutlineLine.count_flatMap_chars (ha.outlineLines 0),
      length_outlineLines]

/-- A negated letter in parentheses and the negation of that letter have the same words and the same
signs in their lines, on different levels. -/
theorem outline_bare_ne_outline_negated :
    (bare (proposition (some ⟨.negation, 1⟩) ⟨.letter 'p', 2⟩)).Legible ∧
      (negated ⟨.negation, 1⟩ (proposition none ⟨.letter 'p', 2⟩)).Legible ∧
      (bare (proposition (some ⟨.negation, 1⟩) ⟨.letter 'p', 2⟩)).outline ≠
        (negated ⟨.negation, 1⟩ (proposition none ⟨.letter 'p', 2⟩)).outline ∧
      (bare (proposition (some ⟨.negation, 1⟩) ⟨.letter 'p', 2⟩)).outline.toList.count '\n' =
        4 := by
  have grouped : (bare (proposition (some ⟨.negation, 1⟩) ⟨.letter 'p', 2⟩)).Legible := by
    decide
  have negation : (negated ⟨.negation, 1⟩ (proposition none ⟨.letter 'p', 2⟩)).Legible := by
    decide
  obtain ⟨determined, -, lines⟩ := outline_determines_tree grouped negation
  exact ⟨grouped, negation, fun same => absurd (determined.1 same) (by decide), lines⟩

/-- A letter that looks like an operator cannot be told from the operator. -/
example :
    (proposition none ⟨.letter '~', 0⟩).outline = (proposition none ⟨.negation, 0⟩).outline ∧
      ¬ Similar (proposition none ⟨.letter '~', 0⟩) (proposition none ⟨.negation, 0⟩) :=
  ⟨rfl, by decide⟩

end Tree

end Sentential
