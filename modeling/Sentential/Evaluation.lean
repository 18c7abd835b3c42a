import Sentential.Valuation.Basic

/-!
# Evaluation

Evaluating a tree under a valuation gives its truth value, the values of all its subtrees in
post-order, and a mark for every token: a letter is marked with its own value, a negation sign and a
connective with the value of the subtree they head. Laid out over the columns of the text, the marks
form a row of a truth table.

The operator of a composite is looked at after both operands, so of several faults the first one in
post-order is reported.
-/

namespace Sentential

/-- The values found on one walk through a tree, with the marks in the order they are made. -/
structure Trace where
  value : UInt8
  marks : List (Nat × UInt8)
  annotations : List UInt8
  deriving DecidableEq, Repr

namespace Trace

/-- The trace of a letter with the given value. -/
def ofLetter (letter : Token) (value : UInt8) : Trace :=
  ⟨value, [(letter.position, value)], [value]⟩

/-- The trace of a letter whose own negation sign is `mark`. The two make one node. -/
def ofNegatedLetter (mark letter : Token) (value : UInt8) : Trace :=
  ⟨complement value, [(letter.position, value), (mark.position, complement value)],
    [complement value]⟩

/-- The trace of a negation, from that of its operand. -/
def negate (mark : Token) (operand : Trace) : Trace :=
  let value := complement operand.value
  ⟨value, operand.marks ++ [(mark.position, value)], operand.annotations ++ [value]⟩

/-- The trace of a node that passes on the value of its only child. -/
def forward (child : Trace) : Trace :=
  { child with annotations := child.annotations ++ [child.value] }

/-- The trace of a composite, from those of its operands. -/
def join (operator : Token) (k : Connective) (left right : Trace) : Trace :=
  let value := k.apply left.value right.value
  ⟨value, left.marks ++ right.marks ++ [(operator.position, value)],
    left.annotations ++ right.annotations ++ [value]⟩

end Trace

/-- The trace of a tree under a valuation that has to assign all its letters. -/
def Tree.trace (v : Valuation) : Tree → Except Fault Trace
  | .proposition negation letter =>
    match v.get letter.symbol with
    | .error fault => .error fault
    | .ok value =>
      match negation with
      | none => .ok (.ofLetter letter value)
      | some mark => .ok (.ofNegatedLetter mark letter value)
  | .negated mark operand =>
    match operand.trace v with
    | .error fault => .error fault
    | .ok operand => .ok (operand.negate mark)
  | .bare child =>
    match child.trace v with
    | .error fault => .error fault
    | .ok child => .ok child.forward
  | .composite left operator right =>
    match left.trace v with
    | .error fault => .error fault
    | .ok left =>
      match right.trace v with
      | .error fault => .error fault
      | .ok right =>
        match operator.connective? with
        | none => .error (.unknownConnective operator)
        | some k => .ok (.join operator k left right)
  | .formula child =>
    match child.trace v with
    | .error fault => .error fault
    | .ok child => .ok child.forward

/-- The outcome of evaluating a tree: its value, one entry for each column, and the values of all
subtrees in post-order. -/
structure Evaluation where
  value : UInt8
  entries : List (Option UInt8)
  annotations : List UInt8
  deriving DecidableEq, Repr

namespace Evaluation

/-- Marks laid out over `width` columns. A later mark replaces an earlier one in its column, and
marks beyond the last column are dropped. -/
def layOut (width : Nat) (marks : List (Nat × UInt8)) : List (Option UInt8) :=
  marks.foldl (fun entries mark => entries.set mark.1 (some mark.2)) (List.replicate width none)

/-- The character of an entry: a blank where no value belongs. -/
def entrySymbol : Option UInt8 → Char
  | none => ' '
  | some value => Valuation.digit value

/-- A row of entries as text. -/
def rowText (entries : List (Option UInt8)) : String :=
  String.ofList (entries.map entrySymbol)

@[simp] theorem layOut_nil (width : Nat) : layOut width [] = List.replicate width none := rfl

@[simp] theorem length_layOut (width : Nat) (marks : List (Nat × UInt8)) :
    (layOut width marks).length = width := by
  suffices h : ∀ entries : List (Option UInt8),
      (marks.foldl (fun entries mark => entries.set mark.1 (some mark.2)) entries).length =
        entries.length by
    simpa [layOut] using h (List.replicate width none)
  induction marks with
  | nil => simp
  | cons mark rest ih => simp [ih]

end Evaluation

/-- The evaluation of a tree over `width` columns. -/
def Tree.evaluate (tree : Tree) (v : Valuation) (width : Nat) : Except Fault Evaluation :=
  match tree.trace v with
  | .error fault => .error fault
  | .ok trace => .ok ⟨trace.value, Evaluation.layOut width trace.marks, trace.annotations⟩

end Sentential
