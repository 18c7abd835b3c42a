import Sentential.Proofs.Invocations

/-!
# What accepted arguments lead to

Written assignments are checked while the arguments are read: whatever else is read, the pairs that
have been taken in are those of accepted assignments. So an accepted command line succeeds or fails
as a whole.
-/

namespace Sentential

open Table (letterCount)

namespace Command

namespace Progress

variable {progress : Progress}

/-- The pairs that have been taken in have been read from texts. -/
def Written (progress : Progress) : Prop :=
  AreWritten progress.pairs

/-- Where reading goes on, only such pairs have been taken in. -/
def WrittenAfter (result : Except Interruption Progress) : Prop :=
  ∀ next, result = .ok next → next.Written

theorem WrittenAfter.error (reason : Interruption) : WrittenAfter (.error reason) :=
  nofun

theorem WrittenAfter.bind {first : Except Interruption Progress}
    {second : Progress → Except Interruption Progress} (h : WrittenAfter first)
    (kept : ∀ progress : Progress, progress.Written → WrittenAfter (second progress)) :
    WrittenAfter (first >>= second) := by
  cases first with
  | error reason => exact .error reason
  | ok progress => exact kept progress (h progress rfl)

namespace Written

theorem after {next : Progress} (h : progress.Written) (same : next.pairs = progress.pairs) :
    WrittenAfter (.ok next) := by
  rintro _ ⟨⟩ pairs taken
  exact h pairs (same ▸ taken)

theorem start : start.Written :=
  nofun

theorem of_mapM_parse {values : List String} {pairs : List (Char × UInt8)}
    (h : values.mapM Assignment.parse = .ok pairs) :
    ∀ pair ∈ pairs, ∃ text, Assignment.parse text = .ok pair := by
  induction values generalizing pairs with
  | nil =>
      cases h
      nofun
  | cons value rest ih =>
      rw [List.mapM_cons] at h
      cases first : Assignment.parse value with
      | error fault =>
          rw [first] at h
          cases h
      | ok pair =>
          cases others : rest.mapM Assignment.parse with
          | error fault =>
              rw [first, others] at h
              cases h
          | ok later =>
              rw [first, others] at h
              cases h
              exact List.forall_mem_cons.2 ⟨⟨value, first⟩, ih others⟩

theorem takeValues (values : List String) : WrittenAfter (progress.takeValues values) := by
  rw [Progress.takeValues]
  split
  · exact .error _
  · split
    · exact .error _
    · rw [parsePairs]
      split
      · next pairs parsed =>
        rintro _ ⟨⟩
        rintro _ ⟨⟩
        exact of_mapM_parse parsed
      · exact .error _

theorem resolve (h : progress.Written) : WrittenAfter progress.resolve := by
  rw [Progress.resolve]
  split
  · exact h.after rfl
  · exact takeValues _

theorem turnOn (h : progress.Written) (switch : Switch) :
    WrittenAfter (progress.turnOn switch) := by
  refine h.resolve.bind fun progress h => ?_
  split
  · exact .error _
  · exact h.after rfl

theorem awaitValues (h : progress.Written) : WrittenAfter progress.awaitValues :=
  h.resolve.bind fun _ h => h.after rfl

theorem attach (h : progress.Written) (value : String) : WrittenAfter (progress.attach value) :=
  h.resolve.bind fun _ _ => takeValues _

theorem interrupt (h : progress.Written) (reason : Interruption) :
    WrittenAfter (progress.interrupt reason) :=
  h.resolve.bind fun _ _ => .error reason

theorem readLetters (h : progress.Written) (written : List Char) :
    WrittenAfter (progress.readLetters written) := by
  induction written generalizing progress with
  | nil => exact h.after rfl
  | cons c rest ih =>
      unfold Progress.readLetters
      split
      · exact .error _
      · exact (h.turnOn _).bind fun _ h => ih h
      · exact h.awaitValues
      · exact h.attach _
      · exact h.attach _
      · exact h.interrupt _
      · exact h.interrupt _

theorem readName (h : progress.Written) (written : List Char) :
    WrittenAfter (progress.readName written) := by
  rw [Progress.readName]
  split
  · exact .error _
  · exact h.turnOn _
  · exact h.awaitValues
  · exact h.attach _
  · exact h.interrupt _
  · exact h.interrupt _
  · exact .error _

theorem readText (h : progress.Written) (argument : String) :
    WrittenAfter (progress.readText argument) := by
  rw [Progress.readText]
  split
  · exact .error _
  · exact h.resolve.bind fun _ h => h.after rfl

theorem readArgument (h : progress.Written) (argument : String) :
    WrittenAfter (progress.readArgument argument) := by
  rw [Progress.readArgument]
  split
  · exact h.readName _
  · exact h.readLetters _
  · rw [Progress.readValue]
    split
    · exact h.after rfl
    · exact h.readText argument

theorem readTexts (h : progress.Written) (arguments : List String) :
    WrittenAfter (arguments.foldlM Progress.readText progress) := by
  induction arguments generalizing progress with
  | nil => exact h.after rfl
  | cons argument rest ih =>
      rw [List.foldlM_cons]
      exact (h.readText argument).bind fun _ h => ih h

theorem readAll (h : progress.Written) (arguments : List String) :
    WrittenAfter (progress.readAll arguments) := by
  induction arguments generalizing progress with
  | nil => exact h.resolve
  | cons argument rest ih =>
      rw [Progress.readAll]
      split
      · exact (h.readTexts rest).bind fun _ h => h.resolve
      · exact (h.readArgument argument).bind fun _ h => ih h

end Written

theorem pairs_of_finish {invocation : Invocation} (h : progress.finish = .ok invocation) :
    invocation.pairs = progress.pairs := by
  rw [finish] at h
  split at h
  · cases h
  · dsimp only at h
    split at h
    · cases h
    · cases h
      rfl

end Progress

/-- The pairs of an accepted command line have been read from texts. -/
theorem areWritten_of_ofArguments {arguments : List String} {invocation : Invocation}
    (accepted : Invocation.ofArguments arguments = .ok invocation) :
    AreWritten invocation.pairs := by
  rw [Invocation.ofArguments] at accepted
  cases reads : Progress.start.readAll arguments with
  | error reason =>
      rw [reads] at accepted
      cases accepted
  | ok progress =>
      rw [reads] at accepted
      rw [Progress.pairs_of_finish accepted]
      exact Progress.Written.start.readAll arguments progress reads

theorem respond_of_accepted {arguments : List String} {invocation : Invocation}
    (accepted : Invocation.ofArguments arguments = .ok invocation) :
    respond arguments = .ran invocation.report := by
  rw [respond, accepted]

/-- Every accepted command line with a formula of fewer than 64 letters succeeds or fails as a
whole. -/
theorem allOrNothing_respond {arguments : List String} {invocation : Invocation}
    (accepted : Invocation.ofArguments arguments = .ok invocation)
    (small : letterCount invocation.text < 64) : AllOrNothing invocation (respond arguments) := by
  rw [respond_of_accepted accepted]
  exact .of_areWritten (areWritten_of_ofArguments accepted) small

/-- The truth table could be printed, but a letter is left out of the assignments that follow. -/
theorem allOrNothing_respond_omitted :
    let invocation : Invocation := ⟨"p > q", some [('q', 1)], [.truthTable]⟩
    Invocation.ofArguments ["p > q", "-t", "-e", "q=1"] = .ok invocation ∧
    letterCount invocation.text < 64 ∧
    AllOrNothing invocation (respond ["p > q", "-t", "-e", "q=1"]) ∧
    (respond ["p > q", "-t", "-e", "q=1"]).exitCode = 1 := by
  intro invocation
  have accepted : Invocation.ofArguments ["p > q", "-t", "-e", "q=1"] = .ok invocation := by decide
  have small : letterCount invocation.text < 64 := by decide
  have omitted : invocation.Omits 'p' := ⟨by decide, [('q', 1)], rfl, by decide⟩
  have answer := allOrNothing_respond accepted small
  exact ⟨accepted, small, answer, answer.exitCode_eq_one_iff.2 (.inr ⟨'p', omitted⟩)⟩

end Command

end Sentential
