import Sentential.Tree.Basic

/-!
# The text of a tree

The text of a tree has one blank on either side of a connective and no other blanks. An operand is
put in parentheses when it is itself a composite, and a bare letter always is. The text is built as
a list of characters, which is the form that proofs about it use.
-/

namespace Sentential.Tree

/-- Whether a tree is a composite, seen through any root node around it. -/
def isCompound : Tree → Bool
  | composite _ _ _ => true
  | formula child => child.isCompound
  | proposition _ _ => false
  | negated _ _ => false
  | bare _ => false

/-- A text in parentheses. -/
def enclosed (text : List Char) : List Char :=
  '(' :: (text ++ [')'])

/-- The characters of a tree's text. -/
def chars : Tree → List Char
  | proposition negation letter => negation.toList.map Token.symbol ++ [letter.symbol]
  | negated mark operand =>
    mark.symbol :: if operand.isCompound then enclosed operand.chars else operand.chars
  | bare child => enclosed child.chars
  | composite left operator right =>
    (if left.isCompound then enclosed left.chars else left.chars) ++
      [' ', operator.symbol, ' '] ++
      if right.isCompound then enclosed right.chars else right.chars
  | formula child => child.chars

/-- A tree written out as a formula. -/
def text (t : Tree) : String :=
  String.ofList t.chars

@[simp] theorem toList_text (t : Tree) : t.text.toList = t.chars :=
  String.toList_ofList

@[simp] theorem isCompound_shape (t : Tree) : t.shape.isCompound = t.isCompound := by
  induction t <;> simp_all [shape, isCompound]

@[simp] theorem chars_shape (t : Tree) : t.shape.chars = t.chars := by
  induction t with
  | proposition negation letter => cases negation <;> simp [shape, chars]
  | negated mark operand ih => simp [shape, chars, ih]
  | bare child ih => simp [shape, chars, ih]
  | composite left operator right ihl ihr => simp [shape, chars, ihl, ihr]
  | formula child ih => simp [shape, chars, ih]

/-- The places of tokens do not show in the text. -/
theorem Similar.text_eq {a b : Tree} (h : Similar a b) : a.text = b.text :=
  congrArg String.ofList (h.congr chars_shape)

end Sentential.Tree
