import Sentential.Command.Configuration

/-!
# Reading the command line

Arguments are read from left to right. Assignments are collected while they come and are looked at
when something recognised follows them, or at the end; an argument that is not recognised at all is
reported without looking at them. What is missing is reported at the end.

What has been read is an invocation. Only the options belong to this program; the manner of reading
them is that of any command line. Nothing that follows depends on it, except that the pairs of an
invocation come from written assignments.
-/

namespace Sentential.Command

/-- What is wrong with the arguments of a command line. -/
inductive UsageError
  /-- An option that does not exist, or a second formula. -/
  | unknownArgument
  /-- No formula, or an option without the one it belongs to. -/
  | missingArgument
  /-- A value that is not an assignment. -/
  | badValue
  /-- The option for assignments without any. -/
  | noValue
  /-- A value given to an option that takes none. -/
  | surplusValue
  /-- An option given twice. -/
  | repeatedOption
  deriving DecidableEq, Repr

/-- Why arguments lead to no configuration. -/
inductive Interruption
  | usage (error : UsageError)
  | help
  | version
  deriving DecidableEq, Repr

/-- What can stand behind a dash. -/
inductive CommandOption
  | switch (which : Switch)
  | assignments
  | help
  | version
  deriving DecidableEq, Repr

/-- The options with a name of one letter. -/
def CommandOption.ofLetter? (c : Char) : Option CommandOption :=
  match c with
  | 't' => some (switch .truthTable)
  | 'd' => some (switch .normalForm)
  | 'e' => some assignments
  | 'h' => some help
  | 'V' => some version
  | _ => none

/-- The options by their full names. -/
def CommandOption.ofName? (name : String) : Option CommandOption :=
  match name with
  | "tt" => some (switch .truthTable)
  | "dnf" => some (switch .normalForm)
  | "single-pass" => some (switch .singlePass)
  | "eliminate-implications" => some (switch .eliminate)
  | "eval" => some assignments
  | "help" => some help
  | "version" => some version
  | _ => none

/-- What has been read of a command line. The `waiting` values follow an option for assignments that
is still open. -/
structure Progress where
  text : Option String
  pairs : Option (List (Char × UInt8))
  switches : List Switch
  waiting : Option (List String)
  deriving DecidableEq, Repr

namespace Progress

/-- Before the first argument. -/
def start : Progress :=
  ⟨none, none, [], none⟩

/-- The pairs of written assignments, all of which must be right. -/
def parsePairs (values : List String) : Except Interruption (List (Char × UInt8)) :=
  match values.mapM Assignment.parse with
  | .ok pairs => .ok pairs
  | .error _ => .error (.usage .badValue)

/-- The assignments of one option are taken in. -/
def takeValues (progress : Progress) (values : List String) : Except Interruption Progress :=
  if values.isEmpty then .error (.usage .noValue)
  else if progress.pairs.isSome then .error (.usage .repeatedOption)
  else do
    let pairs ← parsePairs values
    return { progress with pairs := some pairs }

/-- Values that still wait are taken in. -/
def resolve (progress : Progress) : Except Interruption Progress :=
  match progress.waiting with
  | none => .ok progress
  | some values => { progress with waiting := none }.takeValues values

/-- A switch is met. -/
def turnOn (progress : Progress) (switch : Switch) : Except Interruption Progress := do
  let progress ← progress.resolve
  if switch ∈ progress.switches then .error (.usage .repeatedOption)
  else return { progress with switches := switch :: progress.switches }

/-- The option for assignments is met with its values to follow. -/
def awaitValues (progress : Progress) : Except Interruption Progress := do
  let progress ← progress.resolve
  return { progress with waiting := some [] }

/-- The option for assignments is met with one value attached, and no more to follow. -/
def attach (progress : Progress) (value : String) : Except Interruption Progress := do
  let progress ← progress.resolve
  progress.takeValues [value]

/-- Help, or the version, is asked for. -/
def interrupt (progress : Progress) (reason : Interruption) : Except Interruption Progress := do
  let _ ← progress.resolve
  .error reason

/-- One-letter options that share a dash. The rest behind the option for assignments is its value,
and an equals sign may stand between the two. -/
def readLetters (progress : Progress) : List Char → Except Interruption Progress
  | [] => .ok progress
  | c :: rest =>
    match CommandOption.ofLetter? c, rest with
    | none, _ => .error (.usage .unknownArgument)
    | some (.switch which), _ => do
      let progress ← progress.turnOn which
      progress.readLetters rest
    | some .assignments, [] => progress.awaitValues
    | some .assignments, '=' :: value => progress.attach (String.ofList value)
    | some .assignments, value => progress.attach (String.ofList value)
    | some .help, _ => progress.interrupt .help
    | some .version, _ => progress.interrupt .version

/-- An option by its full name, with a value if an equals sign follows the name. -/
def readName (progress : Progress) (written : List Char) : Except Interruption Progress :=
  let name := String.ofList (written.takeWhile (· ≠ '='))
  match CommandOption.ofName? name, written.dropWhile (· ≠ '=') with
  | none, _ => .error (.usage .unknownArgument)
  | some (.switch which), [] => progress.turnOn which
  | some .assignments, [] => progress.awaitValues
  | some .assignments, _ :: value => progress.attach (String.ofList value)
  | some .help, [] => progress.interrupt .help
  | some .version, [] => progress.interrupt .version
  | some _, _ :: _ => .error (.usage .surplusValue)

/-- An argument that can only be the formula. -/
def readText (progress : Progress) (argument : String) : Except Interruption Progress :=
  if progress.text.isSome then .error (.usage .unknownArgument)
  else do
    let progress ← progress.resolve
    return { progress with text := some argument }

/-- An argument that is no option: a value for the option before it, or the formula. -/
def readValue (progress : Progress) (argument : String) : Except Interruption Progress :=
  match progress.waiting with
  | some values => .ok { progress with waiting := some (values ++ [argument]) }
  | none => progress.readText argument

/-- An argument where options are possible. A single dash is not an option. -/
def readArgument (progress : Progress) (argument : String) : Except Interruption Progress :=
  match argument.toList with
  | '-' :: '-' :: written => progress.readName written
  | '-' :: c :: rest => progress.readLetters (c :: rest)
  | _ => progress.readValue argument

/-- All arguments in turn. Two dashes end the options. -/
def readAll (progress : Progress) : List String → Except Interruption Progress
  | [] => progress.resolve
  | argument :: rest =>
    if argument = "--" then do
      let progress ← rest.foldlM readText progress
      progress.resolve
    else do
      let progress ← progress.readArgument argument
      progress.readAll rest

/-- What the command line says, if nothing is missing. -/
def finish (progress : Progress) : Except Interruption Invocation :=
  match progress.text with
  | none => .error (.usage .missingArgument)
  | some text =>
    let invocation : Invocation := ⟨text, progress.pairs, progress.switches⟩
    if !invocation.asks .normalForm &&
        (invocation.asks .singlePass || invocation.asks .eliminate) then
      .error (.usage .missingArgument)
    else .ok invocation

end Progress

/-- What command line arguments say. -/
def Invocation.ofArguments (arguments : List String) : Except Interruption Invocation := do
  let progress ← Progress.start.readAll arguments
  progress.finish

end Sentential.Command
