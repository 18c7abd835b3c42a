import Sentential.Proofs.Stops

/-!
# What attempts come to

The outcome and the failures of each parser, told by the first characters of its input that are not
blank and by what its parts come to.
-/

namespace Sentential.Choice

/-! ### Single characters -/

section Single

variable {α : Type} {wanted : List Char} {read : Char → Nat → Option α} {input rest : Input}
  {c : Char} {column : Nat}

theorem single_of_nil (h : skip input = []) :
    Parser.single wanted read input = ⟨none, [⟨skip input, wanted.map some⟩]⟩ := by
  simp [Parser.single, h]

theorem single_of_none (h : skip input = (c, column) :: rest) (none : read c column = none) :
    Parser.single wanted read input = ⟨.none, [⟨skip input, wanted.map some⟩]⟩ := by
  simp [Parser.single, h, none]

theorem single_of_some (h : skip input = (c, column) :: rest) {a : α}
    (some : read c column = some a) :
    Parser.single wanted read input = ⟨.some (a, skip rest), []⟩ := by
  simp [Parser.single, h, some]

/-- A parser of single characters fails at the first character that it does not read. -/
theorem single_of_forall_none
    (none : ∀ c column rest, skip input = (c, column) :: rest → read c column = none) :
    Parser.single wanted read input = ⟨.none, [⟨skip input, wanted.map some⟩]⟩ := by
  cases h : skip input with
  | nil =>
      rw [← h]
      exact single_of_nil h
  | cons entry rest =>
      rw [← h]
      exact single_of_none h (none _ _ _ h)

end Single

section Phrases

variable {input rest : Input} {column : Nat}

theorem negation_of_ne (other : ∀ column rest, skip input ≠ ('~', column) :: rest) :
    negation input = ⟨none, [⟨skip input, [some '~']⟩]⟩ := by
  apply single_of_forall_none
  intro c column rest h
  apply if_neg
  rintro rfl
  exact other column rest h

theorem negation_of_eq (h : skip input = ('~', column) :: rest) :
    negation input = ⟨some (⟨.negation, column⟩, skip rest), []⟩ :=
  single_of_some h (if_pos rfl)

theorem letter_of_letterFree (free : LetterFree input) :
    letter input = ⟨none, [⟨skip input, []⟩]⟩ :=
  single_of_forall_none fun c column rest h => if_neg (by simp [free c column rest h])

theorem letter_of_isAlphabetic {c : Char} (h : skip input = (c, column) :: rest)
    (alphabetic : isAlphabetic c = true) :
    letter input = ⟨some (⟨.letter c, column⟩, skip rest), []⟩ :=
  single_of_some h (if_pos alphabetic)

theorem parenthesis_of_ne {which : Char}
    (other : ∀ column rest, skip input ≠ (which, column) :: rest) :
    parenthesis which input = ⟨none, [⟨skip input, [some which]⟩]⟩ := by
  apply single_of_forall_none
  intro c column rest h
  apply if_neg
  rintro rfl
  exact other column rest h

theorem parenthesis_of_eq {which : Char} (h : skip input = (which, column) :: rest) :
    parenthesis which input = ⟨some ((), skip rest), []⟩ :=
  single_of_some h (if_pos rfl)

/-- The characters that a connective is noted as wanted by. -/
def connectives : List (Option Char) :=
  [some '&', some '|', some '>', some '=']

theorem connective_of_none (none : ∀ c column more, skip input = (c, column) :: more →
    Connective.ofChar? c = none) : connective input = ⟨.none, [⟨skip input, connectives⟩]⟩ :=
  single_of_forall_none fun c column more h => by rw [none c column more h]; rfl

theorem connective_of_some {c : Char} {k : Connective} (h : skip input = (c, column) :: rest)
    (some : Connective.ofChar? c = some k) :
    connective input = ⟨.some (⟨.connective k, column⟩, skip rest), []⟩ :=
  single_of_some h (by rw [some]; rfl)

/-! ### Propositions, groups and negations -/

theorem orElse_of_some {first second : Parser Tree} {found : Tree × Input}
    {failures : List Failure} (h : first input = ⟨some found, failures⟩) :
    first.orElse second input = ⟨some found, failures⟩ := by
  simp [Parser.orElse, h]

theorem orElse_of_none {first second : Parser Tree} {failures failures' : List Failure}
    {found : Option (Tree × Input)} (h : first input = ⟨none, failures⟩)
    (h' : second input = ⟨found, failures'⟩) :
    first.orElse second input = ⟨found, failures ++ failures'⟩ := by
  simp [Parser.orElse, h, h']

theorem proposition_of_none (free : LetterFree input)
    (other : ∀ column rest, skip input ≠ ('~', column) :: rest) :
    proposition input = ⟨none, [⟨skip input, [some '~']⟩, ⟨skip input, []⟩]⟩ := by
  simp [proposition, Parser.map, Parser.andThen, Parser.optional, negation_of_ne other,
    letter_of_letterFree free]

theorem proposition_of_letter {c : Char} (h : skip input = (c, column) :: rest)
    (alphabetic : isAlphabetic c = true) (other : c ≠ '~') :
    proposition input =
      ⟨some (.proposition none ⟨.letter c, column⟩, skip rest), [⟨skip input, [some '~']⟩]⟩ := by
  have fails : negation input = ⟨none, [⟨skip input, [some '~']⟩]⟩ := by
    refine negation_of_ne fun column' rest' h' => other ?_
    rw [h] at h'
    exact congrArg Prod.fst (List.cons.inj h').1
  simp [proposition, Parser.map, Parser.andThen, Parser.optional, fails,
    letter_of_isAlphabetic h alphabetic]

theorem proposition_of_mark {c : Char} {column' : Nat} {after : Input}
    (h : skip input = ('~', column) :: rest) (h' : skip (skip rest) = (c, column') :: after)
    (alphabetic : isAlphabetic c = true) :
    proposition input =
      ⟨some (.proposition (some ⟨.negation, column⟩) ⟨.letter c, column'⟩, skip after), []⟩ := by
  simp [proposition, Parser.map, Parser.andThen, Parser.optional, negation_of_eq h,
    letter_of_isAlphabetic h' alphabetic]

theorem proposition_of_mark_none (h : skip input = ('~', column) :: rest)
    (free : LetterFree (skip rest)) :
    proposition input = ⟨none, [⟨skip (skip rest), []⟩]⟩ := by
  simp [proposition, Parser.map, Parser.andThen, Parser.optional, negation_of_eq h,
    letter_of_letterFree free]

theorem group_of_ne {formula : Parser Tree}
    (other : ∀ column rest, skip input ≠ ('(', column) :: rest) :
    group formula input = ⟨none, [⟨skip input, [some '(']⟩]⟩ := by
  simp [group, Parser.map, Parser.andThen, parenthesis_of_ne other]

theorem group_of_none {formula : Parser Tree} {failures : List Failure}
    (h : skip input = ('(', column) :: rest)
    (inner : formula (skip rest) = ⟨none, failures⟩) :
    group formula input = ⟨none, failures⟩ := by
  simp [group, Parser.map, Parser.andThen, parenthesis_of_eq h, inner]

theorem group_of_closing_fails {formula : Parser Tree} {tree : Tree} {place : Input}
    {failures more : List Failure} (h : skip input = ('(', column) :: rest)
    (inner : formula (skip rest) = ⟨some (tree, place), failures⟩)
    (fails : parenthesis ')' place = ⟨none, more⟩) :
    group formula input = ⟨none, failures ++ more⟩ := by
  simp [group, Parser.map, Parser.andThen, parenthesis_of_eq h, inner, fails]

theorem group_of_closing {formula : Parser Tree} {tree : Tree} {place after : Input}
    {failures : List Failure} (h : skip input = ('(', column) :: rest)
    (inner : formula (skip rest) = ⟨some (tree, place), failures⟩)
    (closes : parenthesis ')' place = ⟨some ((), after), []⟩) :
    group formula input = ⟨some (Reader.grouped tree, after), failures⟩ := by
  cases tree <;>
    simp [group, Parser.map, Parser.andThen, parenthesis_of_eq h, inner, closes, Reader.grouped]

theorem negated_of_ne {group operand : Parser Tree}
    (other : ∀ column rest, skip input ≠ ('~', column) :: rest) :
    negated group operand input = ⟨none, [⟨skip input, [some '~']⟩]⟩ := by
  simp [negated, Parser.map, Parser.andThen, negation_of_ne other]

theorem negated_of_eq {group operand : Parser Tree} {found : Option (Tree × Input)}
    {failures : List Failure} (h : skip input = ('~', column) :: rest)
    (inner : group.orElse operand (skip rest) = ⟨found, failures⟩) :
    negated group operand input =
      ⟨found.map fun (tree, after) => (.negated ⟨.negation, column⟩ tree, after), failures⟩ := by
  simp [negated, Parser.map, Parser.andThen, negation_of_eq h, inner]
  rfl

/-! ### Formulas, operands and whole texts -/

theorem formulaOf_of_none {operand : Parser Tree} {failures : List Failure}
    (h : operand input = ⟨none, failures⟩) :
    formulaOf operand input = ⟨none, failures ++ failures⟩ := by
  simp [formulaOf, Parser.map, Parser.andThen, Parser.orElse, h]

theorem formulaOf_of_connective_none {operand : Parser Tree} {tree : Tree}
    {failures failures' : List Failure} (first : operand input = ⟨some (tree, rest), failures⟩)
    (fails : connective rest = ⟨none, failures'⟩) :
    formulaOf operand input = ⟨some (tree, rest), failures ++ failures' ++ failures⟩ := by
  simp [formulaOf, Parser.map, Parser.andThen, Parser.orElse, first, fails]

theorem formulaOf_of_second_none {operand : Parser Tree} {tree : Tree} {operator : Token}
    {place : Input} {failures failures' : List Failure}
    (first : operand input = ⟨some (tree, rest), failures⟩)
    (joins : connective rest = ⟨some (operator, place), []⟩)
    (fails : operand place = ⟨none, failures'⟩) :
    formulaOf operand input = ⟨some (tree, rest), failures ++ failures' ++ failures⟩ := by
  simp [formulaOf, Parser.map, Parser.andThen, Parser.orElse, first, joins, fails]

theorem formulaOf_of_some {operand : Parser Tree} {left right : Tree} {operator : Token}
    {place after : Input} {failures failures' : List Failure}
    (first : operand input = ⟨some (left, rest), failures⟩)
    (joins : connective rest = ⟨some (operator, place), []⟩)
    (second : operand place = ⟨some (right, after), failures'⟩) :
    formulaOf operand input =
      ⟨some (.composite left operator right, after), failures ++ failures'⟩ := by
  simp [formulaOf, Parser.map, Parser.andThen, Parser.orElse, first, joins, second]

theorem operand_of_some {depth : Nat} {found : Tree × Input} {failures : List Failure}
    (h : proposition input = ⟨some found, failures⟩) :
    operand (depth + 1) input = ⟨some found, failures⟩ :=
  orElse_of_some h

theorem operand_of_none {depth : Nat} {failures failures' failures'' : List Failure}
    {found : Option (Tree × Input)} (first : proposition input = ⟨none, failures⟩)
    (second : negated (group (formulaOf (operand depth))) (operand depth) input = ⟨none, failures'⟩)
    (third : group (formulaOf (operand depth)) input = ⟨found, failures''⟩) :
    operand (depth + 1) input = ⟨found, failures ++ (failures' ++ failures'')⟩ :=
  orElse_of_none first (orElse_of_none second third)

theorem operand_of_negated {depth : Nat} {found : Tree × Input} {failures failures' : List Failure}
    (first : proposition input = ⟨none, failures⟩)
    (second : negated (group (formulaOf (operand depth))) (operand depth) input =
      ⟨some found, failures'⟩) :
    operand (depth + 1) input = ⟨some found, failures ++ failures'⟩ :=
  orElse_of_none first (orElse_of_some second)

theorem whole_of_none {depth : Nat} {failures : List Failure}
    (h : formulaOf (operand depth) input = ⟨none, failures⟩) :
    whole depth input = ⟨none, failures⟩ := by
  simp [whole, Parser.map, Parser.andThen, h]

theorem whole_of_nil {depth : Nat} {tree : Tree} {failures : List Failure}
    (h : formulaOf (operand depth) input = ⟨some (tree, []), failures⟩) :
    whole depth input = ⟨some (.formula tree, []), failures⟩ := by
  simp [whole, Parser.map, Parser.andThen, ending, h]

theorem whole_of_cons {depth : Nat} {tree : Tree} {entry : Char × Nat} {more : Input}
    {failures : List Failure}
    (h : formulaOf (operand depth) input = ⟨some (tree, entry :: more), failures⟩) :
    whole depth input = ⟨none, failures ++ [⟨entry :: more, [none]⟩]⟩ := by
  simp [whole, Parser.map, Parser.andThen, ending, h]

end Phrases

end Sentential.Choice
