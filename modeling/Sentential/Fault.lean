import Sentential.Tree.Text

/-!
# Faults

Everything that can go wrong is a cause with the data that explains it; the wording is in one place
for each type. A text that is not a formula is explained by a `Stop`: the first character that no
formula could have there, and what could have stood in its place. A rewriting rule that does not fit
a tree gives a `Refusal`.
-/

namespace Sentential

/-- Where and why the reading of a text stops. In `found` and among the `wanted`, `none` stands for
the end of the text. -/
structure Stop where
  position : Nat
  found : Option Char
  wanted : List (Option Char)
  deriving DecidableEq, Repr

namespace Stop

/-- One past what was found; nothing lies beyond the end of the text. -/
def finish (stop : Stop) : Nat :=
  match stop.found with
  | some _ => stop.position + 1
  | none => stop.position

/-- A character, or the end of the text, in a message. -/
def nameOf : Option Char → String
  | some c => c.toString
  | none => "end of input"

/-- What was found, in a message. -/
def foundText (stop : Stop) : String :=
  match stop.found with
  | some c => "'" ++ c.toString ++ "'"
  | none => "end of input"

/-- What would have been accepted, in a message. -/
def wantedText (stop : Stop) : String :=
  match stop.wanted with
  | [] => ""
  | [only] => " but " ++ nameOf only ++ " was expected"
  | several => " but one of " ++ ", ".intercalate (several.map nameOf) ++ " was expected"

/-- The wording of a stop. -/
def message (stop : Stop) : String :=
  "found " ++ stop.foundText ++ stop.wantedText ++ " at " ++ toString stop.position

end Stop

/-- The rewriting rules. -/
inductive Rule
  | deMorgan
  | implicationElimination
  deriving DecidableEq, Repr

/-- The name of a rule in messages. -/
def Rule.name : Rule → String
  | deMorgan => "De Morgan's law"
  | implicationElimination => "implication elimination"

/-- Why a rewriting rule does not fit a tree. -/
inductive Refusal
  | notNegated (tree : Tree)
  | operandNotComposite (operand : Tree)
  | noDual (operator : Token)
  | notImplication (tree : Tree)
  deriving DecidableEq, Repr

namespace Refusal

/-- The rule that does not fit. -/
def rule : Refusal → Rule
  | notNegated _ => .deMorgan
  | operandNotComposite _ => .deMorgan
  | noDual _ => .deMorgan
  | notImplication _ => .implicationElimination

/-- The wording of a refusal. -/
def reason : Refusal → String
  | notNegated tree =>
    "`" ++ tree.text ++ "` is a " ++ tree.kind.name ++ " without a leading negation"
  | operandNotComposite operand =>
    "the negated `" ++ operand.text ++ "` is a " ++ operand.kind.name ++ ", not a composite"
  | noDual operator => operator.describe ++ " is neither a conjunction nor a disjunction"
  | notImplication tree => "`" ++ tree.text ++ "` is not an implication"

end Refusal

/-- What can go wrong with a text, a tree or a valuation. -/
inductive Fault
  /-- The text is not a formula. -/
  | unreadable (text : String) (stop : Stop)
  /-- A letter has no value. -/
  | unassigned (letter : Char)
  /-- Something other than 0 and 1 was to be the value of a letter. -/
  | notBit (letter : Char) (value : String)
  /-- The text is not an assignment. -/
  | malformedAssignment (text : String)
  /-- The operator of a composite is not a connective. -/
  | unknownConnective (operator : Token)
  /-- A rewriting rule does not fit the tree. -/
  | inapplicable (refusal : Refusal)
  deriving DecidableEq, Repr

/-- The wording of a fault. -/
def Fault.message : Fault → String
  | unreadable text stop => "failed to parse `" ++ text ++ "`: " ++ stop.message
  | unassigned letter => "no value given for proposition `" ++ letter.toString ++ "`"
  | notBit letter value =>
    "`" ++ value ++ "` is not a truth value for `" ++ letter.toString ++ "`, expected 0 or 1"
  | malformedAssignment text => "`" ++ text ++ "` is not an assignment, expected <letter>=<0|1>"
  | unknownConnective operator => "unknown logical connective " ++ operator.describe
  | inapplicable refusal => "cannot apply " ++ refusal.rule.name ++ ": " ++ refusal.reason

/-! ### Results that may be faults -/

/-- A value that a function has been applied to came from a value. -/
theorem map_eq_ok {α β : Type} {f : α → β} {result : Except Fault α} {b : β}
    (h : result.map f = .ok b) : ∃ a, result = .ok a ∧ f a = b := by
  cases result with
  | error fault => cases h
  | ok a =>
      cases h
      exact ⟨a, rfl, rfl⟩

theorem map_eq_error_iff {α β : Type} {f : α → β} {result : Except Fault α} {fault : Fault} :
    result.map f = .error fault ↔ result = .error fault := by
  cases result <;> simp [Except.map]

end Sentential
