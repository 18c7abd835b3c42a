import Sentential.Fault
import Sentential.Text.Classes

/-!
# Reading by ordered choice

The grammar read by recursive descent. A parser tries its alternatives in their order, each from the
same place, and keeps the first that succeeds. The parsers of single characters drop the blanks
before and after; where one of them fails, it notes what it wanted. If there is no formula, the
reading stops at the furthest of these places, and all that was wanted there could have come next.
-/

namespace Sentential.Choice

/-- The part of a text that is still to be read, every character with its column. -/
abbrev Input := List (Char × Nat)

/-- The input from the first character on that is not blank. -/
def skip (input : Input) : Input :=
  input.dropWhile fun entry => isBlank entry.1

/-- A character was to come, or the end of the text, and did not. -/
structure Failure where
  rest : Input
  wanted : List (Option Char)

/-- What has come of a parser: a value and the rest of the input, if it has succeeded, and all
failures on the way, those of abandoned alternatives included. -/
structure Attempt (α : Type) where
  outcome : Option (α × Input)
  failures : List Failure

/-- A parser reads some of its input. -/
abbrev Parser (α : Type) := Input → Attempt α

namespace Parser

variable {α β : Type}

/-- A parser with its value changed. -/
def map (f : α → β) (parser : Parser α) : Parser β := fun input =>
  let attempt := parser input
  ⟨attempt.outcome.map fun (a, rest) => (f a, rest), attempt.failures⟩

/-- One parser after the other. -/
def andThen (first : Parser α) (second : Parser β) : Parser (α × β) := fun input =>
  let attempt := first input
  match attempt.outcome with
  | none => ⟨none, attempt.failures⟩
  | some (a, rest) =>
    let next := second rest
    ⟨next.outcome.map fun (b, rest) => ((a, b), rest), attempt.failures ++ next.failures⟩

/-- A parser, or another one from the same place if the first one fails. -/
def orElse (first second : Parser α) : Parser α := fun input =>
  let attempt := first input
  match attempt.outcome with
  | some _ => attempt
  | none =>
    let next := second input
    ⟨next.outcome, attempt.failures ++ next.failures⟩

/-- A parser that need not succeed. -/
def optional (parser : Parser α) : Parser (Option α) := fun input =>
  let attempt := parser input
  match attempt.outcome with
  | some (a, rest) => ⟨some (some a, rest), attempt.failures⟩
  | none => ⟨some (none, input), attempt.failures⟩

/-- A single character with any blanks before and after it. -/
def single (wanted : List Char) (read : Char → Nat → Option α) : Parser α := fun input =>
  match skip input with
  | [] => ⟨none, [⟨[], wanted.map some⟩]⟩
  | (c, column) :: rest =>
    match read c column with
    | some a => ⟨some (a, skip rest), []⟩
    | none => ⟨none, [⟨(c, column) :: rest, wanted.map some⟩]⟩

end Parser

/-- A negation sign. -/
def negation : Parser Token :=
  .single ['~'] fun c column => if c = '~' then some ⟨.negation, column⟩ else none

/-- A letter. Letters are never noted as wanted. -/
def letter : Parser Token :=
  .single [] fun c column => if isAlphabetic c then some ⟨.letter c, column⟩ else none

/-- A connective. -/
def connective : Parser Token :=
  .single ['&', '|', '>', '='] fun c column =>
    (Connective.ofChar? c).map fun k => ⟨.connective k, column⟩

/-- A parenthesis. -/
def parenthesis (which : Char) : Parser Unit :=
  .single [which] fun c _ => if c = which then some () else none

/-- The end of the text. -/
def ending : Parser Unit := fun input =>
  match input with
  | [] => ⟨some ((), []), []⟩
  | _ :: _ => ⟨none, [⟨input, [none]⟩]⟩

/-- A letter, perhaps with a negation sign before it. -/
def proposition : Parser Tree :=
  (negation.optional.andThen letter).map fun (mark, letter) => .proposition mark letter

/-- A formula in parentheses, which leave a node only around a proposition. -/
def group (formula : Parser Tree) : Parser Tree :=
  (((parenthesis '(').andThen formula).andThen (parenthesis ')')).map fun ((_, tree), _) =>
    match tree with
    | .proposition mark letter => .bare (.proposition mark letter)
    | other => other

/-- A negation sign, and a group or an operand after it. -/
def negated (group operand : Parser Tree) : Parser Tree :=
  (negation.andThen (group.orElse operand)).map fun (mark, tree) => .negated mark tree

/-- Two operands and their connective, or one operand. -/
def formulaOf (operand : Parser Tree) : Parser Tree :=
  (((operand.andThen connective).andThen operand).map fun ((left, operator), right) =>
    .composite left operator right).orElse operand

/-- An operand with less than `depth` negation signs and parentheses around its innermost part. -/
def operand : Nat → Parser Tree
  | 0 => fun _ => ⟨none, []⟩
  | depth + 1 =>
    let group := group (formulaOf (operand depth))
    proposition.orElse ((negated group (operand depth)).orElse group)

/-- A whole text. -/
def whole (depth : Nat) : Parser Tree :=
  (((formulaOf (operand depth)).map Tree.formula).andThen ending).map Prod.fst

/-- The furthest place of some failures, the one with the shortest rest, or the given one if that is
further. -/
def furthest (input : Input) : List Failure → Input
  | [] => input
  | failure :: more =>
    furthest (if failure.rest.length ≤ input.length then failure.rest else input) more

/-- All characters that can be wanted, the end of the text first, then in the order of their code
points. -/
def vocabulary : List (Option Char) :=
  [none, some '&', some '(', some ')', some '=', some '>', some '|', some '~']

/-- A stop at the first character of what is left of a text of so many characters. -/
def stopAt (length : Nat) (rest : Input) (wanted : List (Option Char)) : Stop :=
  match rest with
  | [] => ⟨length, none, wanted⟩
  | (c, column) :: _ => ⟨column, some c, wanted⟩

/-- Where reading stops after some failures, in a text of so many characters. -/
def stopOf (length : Nat) (input : Input) (failures : List Failure) : Stop :=
  let rest := furthest input failures
  stopAt length rest (vocabulary.filter fun x => failures.any fun failure =>
    decide (failure.rest = rest) && failure.wanted.contains x)

/-- The tree of a text with the given characters, or where it stops being a formula. No operand
needs more depth than there are characters. -/
def readChars (text : List Char) : Except Stop Tree :=
  let attempt := whole (text.length + 1) text.zipIdx
  match attempt.outcome with
  | some (tree, _) => .ok tree
  | none => .error (stopOf text.length text.zipIdx attempt.failures)

end Sentential.Choice
