import Sentential.Fault
import Sentential.Reading.Sign

/-!
# Readers

A reader takes the signs of a formula one by one. It is either `wanting` an operand or `having` one,
and it keeps a `Level` for every parenthesis that is still open. Binary connectives do not chain: an
operand that was `joined` by a connective on its own level takes no further one.

Every state can be continued to the end of some formula, so the first sign that a reader cannot take
is the place where the text stops being the start of any formula.
-/

namespace Sentential

/-- What stands before an operand: the left half of a composite, if the operand is its right half,
and the negation signs read since, the innermost one first. -/
structure Reader.Level where
  left : Option (Tree × Token)
  marks : List Token
  deriving DecidableEq, Repr

namespace Reader.Level

/-- The level at the start of a formula and after an opening parenthesis. -/
def start : Level :=
  ⟨none, []⟩

/-- The level after a connective. -/
def after (left : Tree) (operator : Token) : Level :=
  ⟨some (left, operator), []⟩

/-- A level with one negation sign more. -/
def mark (level : Level) (sign : Token) : Level :=
  { level with marks := sign :: level.marks }

/-- The tree of a level whose operand has been read. -/
def complete (level : Level) (operand : Tree) : Tree :=
  let whole := level.marks.foldl (fun inner sign => .negated sign inner) operand
  match level.left with
  | none => whole
  | some (left, operator) => .composite left operator whole

/-- The tree of a level whose operand is a letter. The innermost negation sign belongs to the
letter. -/
def completeLetter (level : Level) (letter : Token) : Tree :=
  match level.marks with
  | [] => level.complete (.proposition none letter)
  | sign :: outer => { level with marks := outer }.complete (.proposition (some sign) letter)

/-- Whether a connective has been read on this level. -/
def isJoined (level : Level) : Bool :=
  level.left.isSome

end Reader.Level

/-- The state of reading a formula. -/
inductive Reader
  /-- An operand has to come. -/
  | wanting (level : Reader.Level) (outer : List Reader.Level)
  /-- An operand, or two and their connective, have been read on the innermost level. -/
  | having (tree : Tree) (joined : Bool) (outer : List Reader.Level)
  deriving DecidableEq, Repr

namespace Reader

/-- The state before the first sign. -/
def start : Reader :=
  .wanting Level.start []

/-- A formula in parentheses as an operand: the parentheses leave a trace only around a letter. -/
def grouped : Tree → Tree
  | .proposition negation letter => .bare (.proposition negation letter)
  | other => other

/-- The state after a sign, if the sign can come next. -/
def step : Reader → Sign → Nat → Option Reader
  | wanting level outer, .letter c, position =>
    some (having (level.completeLetter ⟨.letter c, position⟩) level.isJoined outer)
  | wanting level outer, .negation, position =>
    some (wanting (level.mark ⟨.negation, position⟩) outer)
  | wanting level outer, .opening, _ => some (wanting Level.start (level :: outer))
  | wanting _ _, .connective _, _ => none
  | wanting _ _, .closing, _ => none
  | having tree false outer, .connective k, position =>
    some (wanting (Level.after tree ⟨.connective k, position⟩) outer)
  | having tree _ (level :: outer), .closing, _ =>
    some (having (level.complete (grouped tree)) level.isJoined outer)
  | having _ true _, .connective _, _ => none
  | having _ _ [], .closing, _ => none
  | having _ _ _, .letter _, _ => none
  | having _ _ _, .negation, _ => none
  | having _ _ _, .opening, _ => none

/-- The tree of the whole text, if the text can end here. -/
def finish? : Reader → Option Tree
  | having tree _ [] => some (.formula tree)
  | having _ _ (_ :: _) => none
  | wanting _ _ => none

/-- What can come next, letters apart: the end of the text first, then signs in the order of their
code points. -/
def wanted : Reader → List (Option Char)
  | wanting _ _ => [some '(', some '~']
  | having _ joined outer =>
    (if outer.isEmpty then [none] else []) ++
      (if joined then [] else [some '&']) ++
      (if outer.isEmpty then [] else [some ')']) ++
      (if joined then [] else [some '=', some '>', some '|'])

/-- The tree that a reader ends with after the given characters, the text being `length` characters
long, or where it stops. -/
def run (length : Nat) (reader : Reader) : List (Char × Nat) → Except Stop Tree
  | [] =>
    match reader.finish? with
    | some tree => .ok tree
    | none => .error ⟨length, none, reader.wanted⟩
  | (c, position) :: rest =>
    match (Sign.ofChar? c).bind fun sign => reader.step sign position with
    | some next => next.run length rest
    | none => .error ⟨position, some c, reader.wanted⟩

end Reader

namespace Tree

/-- The tree of a text with the given characters, or where it stops being a formula. -/
def readChars (text : List Char) : Except Stop Tree :=
  Reader.start.run text.length (Sign.significant text)

/-- The tree of a formula. -/
def read (text : String) : Except Fault Tree :=
  match readChars text.toList with
  | .ok tree => .ok tree
  | .error stop => .error (.unreadable text stop)

end Tree

end Sentential
