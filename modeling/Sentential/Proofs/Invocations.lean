import Sentential.Command.Response
import Sentential.Proofs.Assignments
import Sentential.Proofs.Sections

/-!
# What invocations lead to

The pairs of an invocation come from written assignments, so they have bits for values and the
valuation can be made. A run fails at the text or at a letter without a value, and both come out
before anything is printed: the later sections of a formula never fail.

How the arguments of a command line are read does not matter for this, as long as the pairs that are
taken in have been read as assignments.
-/

namespace Sentential

open Table (letterCount)

/-! ### Bits -/

theorem Assignment.le_one_of_parse {text : String} {pair : Char × UInt8}
    (h : parse text = .ok pair) : pair.2 ≤ 1 := by
  obtain ⟨_, denotes, _⟩ := written_iff.1 (parse_eq_ok_iff.1 h)
  exact denotes.le_one

namespace Command

/-- Assignments, if they are given, have bits for values. -/
def AreBits (given : Option (List (Char × UInt8))) : Prop :=
  ∀ pairs, given = some pairs → ∀ pair ∈ pairs, pair.2 ≤ 1

/-- Assignments, if they are given, have been read from texts. -/
def AreWritten (given : Option (List (Char × UInt8))) : Prop :=
  ∀ pairs, given = some pairs → ∀ pair ∈ pairs, ∃ text, Assignment.parse text = .ok pair

theorem AreWritten.areBits {given : Option (List (Char × UInt8))} (h : AreWritten given) :
    AreBits given := by
  intro pairs same pair member
  obtain ⟨text, parsed⟩ := h pairs same pair member
  exact Assignment.le_one_of_parse parsed

/-! ### Reports on invocations -/

namespace Invocation

variable {invocation : Invocation}

/-- The assignments of an invocation leave a letter of its formula without a value. -/
def Omits (invocation : Invocation) (c : Char) : Prop :=
  c ∈ (Scan.ofText invocation.text).letters.toList ∧
    ∃ pairs, invocation.pairs = some pairs ∧ c ∉ pairs.map Prod.fst

/-- A configuration can be made of bits, and its valuation has the letters of the pairs. -/
theorem exists_configuration (bits : AreBits invocation.pairs) :
    ∃ configuration, Configuration.ofInvocation invocation = .ok configuration ∧
      configuration.text = invocation.text ∧
      ∀ c, (∃ v, configuration.valuation = some v ∧ v.get? c = none) ↔
        ∃ pairs, invocation.pairs = some pairs ∧ c ∉ pairs.map Prod.fst := by
  rw [Configuration.ofInvocation]
  cases given : invocation.pairs with
  | none => exact ⟨_, rfl, rfl, fun c => by simp⟩
  | some pairs =>
      obtain ⟨v, made⟩ := Valuation.exists_ofPairs (bits pairs given)
      rw [Option.mapM_some, made]
      exact ⟨_, rfl, rfl, fun c => by simp [Valuation.get?_ofPairs_eq_none_iff made]⟩

/-- The three ways a report can come out. -/
theorem report_cases (bits : AreBits invocation.pairs) (small : letterCount invocation.text < 64) :
    (∃ fault, Tree.read invocation.text = .error fault ∧
      invocation.report = ⟨"", some fault⟩) ∨
    (∃ t c, Tree.read invocation.text = .ok t ∧ IsLeast {c | invocation.Omits c} c ∧
      invocation.report = ⟨"", some (.unassigned c)⟩) ∨
    (∃ t, Tree.read invocation.text = .ok t ∧ (∀ c, ¬ invocation.Omits c) ∧
      invocation.report.failure = none) := by
  obtain ⟨configuration, configured, sameText, omitted⟩ := exists_configuration bits
  have report : invocation.report = configuration.run := by rw [Invocation.report, configured]
  simp only [Omits, ← omitted]
  rw [report]
  rw [← sameText] at small ⊢
  cases read : Tree.read configuration.text with
  | error fault => exact .inl ⟨fault, rfl, Configuration.run_of_unreadable read⟩
  | ok t =>
      right
      cases valuation : configuration.valuation with
      | none =>
          right
          refine ⟨t, rfl, by simp, Configuration.failure_run read small fun v given => ?_⟩
          rw [valuation] at given
          cases given
      | some v =>
          cases restricts : v.restrict (Scan.ofText configuration.text).letters with
          | error fault =>
              left
              obtain ⟨c, least, rfl⟩ := Valuation.exists_isLeast_of_restrict restricts
              refine ⟨t, c, rfl, by simpa using least, ?_⟩
              have fails := Configuration.run_onlyValue_of_unassigned read valuation restricts
              rw [Configuration.run_eq_followedBy small, fails]
              rfl
          | ok restricted =>
              right
              obtain ⟨assigned, -⟩ := Valuation.restrict_eq_ok_iff.1 restricts
              refine ⟨t, rfl, ?_, Configuration.failure_run read small fun w given => ?_⟩
              · rintro c ⟨member, w, given, absent⟩
                cases given
                have present := assigned c member
                rw [absent] at present
                cases present
              · rw [valuation] at given
                cases given
                exact ⟨restricted, restricts⟩

end Invocation

theorem exists_unreadable_of_read {text : String} {fault : Fault}
    (h : Tree.read text = .error fault) : ∃ stop, fault = .unreadable text stop := by
  rw [Tree.read] at h
  split at h
  · cases h
  · cases h
    exact ⟨_, rfl⟩

/-- A command line that is accepted succeeds as a whole, or fails before it has printed anything. It
fails if the formula is unreadable or if the assignments leave out a letter, and for no other
reason. -/
structure AllOrNothing (invocation : Invocation) (response : Response) : Prop where
  exitCode_eq_one_iff : response.exitCode = 1 ↔
    (∃ fault, Tree.read invocation.text = .error fault) ∨ ∃ c, invocation.Omits c
  exitCode_eq_zero : response.exitCode ≠ 1 → response.exitCode = 0
  output_eq : response.exitCode = 1 → response.output = ""
  /-- An unreadable formula is reported, whatever else is wrong. -/
  unreadable : ∀ fault, Tree.read invocation.text = .error fault →
    response = .ran ⟨"", some fault⟩
  /-- Of the letters that are left out the least one is reported. -/
  unassigned : ∀ t, Tree.read invocation.text = .ok t → (∃ c, invocation.Omits c) →
    ∃ c, IsLeast {c | invocation.Omits c} c ∧ response = .ran ⟨"", some (.unassigned c)⟩
  /-- No other faults are reported. -/
  failure : ∀ report fault, response = .ran report → report.failure = some fault →
    (∃ stop, fault = .unreadable invocation.text stop) ∨ ∃ c, fault = .unassigned c

namespace AllOrNothing

variable {invocation : Invocation} {report : Report} {t : Tree}

theorem of_unreadable {fault : Fault} (unread : Tree.read invocation.text = .error fault) :
    AllOrNothing invocation (.ran ⟨"", some fault⟩) where
  exitCode_eq_one_iff := iff_of_true rfl (.inl ⟨fault, unread⟩)
  exitCode_eq_zero other := absurd rfl other
  output_eq _ := rfl
  unreadable fault' unread' := by
    rw [unread, Except.error.injEq] at unread'
    rw [unread']
  unassigned t read := by
    rw [unread] at read
    cases read
  failure := by
    rintro _ _ ⟨⟩ ⟨⟩
    exact .inl (exists_unreadable_of_read unread)

theorem of_unassigned {c : Char} (read : Tree.read invocation.text = .ok t)
    (least : IsLeast {c | invocation.Omits c} c) :
    AllOrNothing invocation (.ran ⟨"", some (.unassigned c)⟩) where
  exitCode_eq_one_iff := iff_of_true rfl (.inr ⟨c, least.1⟩)
  exitCode_eq_zero other := absurd rfl other
  output_eq _ := rfl
  unreadable fault unread := by
    rw [read] at unread
    cases unread
  unassigned _ _ _ := ⟨c, least, rfl⟩
  failure := by
    rintro _ _ ⟨⟩ ⟨⟩
    exact .inr ⟨c, rfl⟩

theorem of_success (read : Tree.read invocation.text = .ok t)
    (complete : ∀ c, ¬ invocation.Omits c) (succeeds : report.failure = none) :
    AllOrNothing invocation (.ran report) := by
  have zero : (Response.ran report).exitCode = 0 := by
    rw [Response.exitCode, succeeds]
    rfl
  have notOne : (Response.ran report).exitCode ≠ 1 := by
    rw [zero]
    decide
  have readable (fault : Fault) : Tree.read invocation.text ≠ .error fault := by
    rw [read]
    nofun
  refine ⟨iff_of_false notOne ?_, fun _ => zero, fun one => absurd one notOne, ?_, ?_, ?_⟩
  · rintro (⟨fault, unread⟩ | ⟨c, omitted⟩)
    · exact readable fault unread
    · exact complete c omitted
  · intro fault unread
    exact absurd unread (readable fault)
  · rintro _ _ ⟨c, omitted⟩
    exact absurd omitted (complete c)
  · rintro _ fault ⟨⟩ failure
    rw [succeeds] at failure
    cases failure

/-- The run of an invocation whose formula has fewer than 64 letters succeeds or fails as a
whole. -/
theorem of_areWritten (written : AreWritten invocation.pairs)
    (small : letterCount invocation.text < 64) :
    AllOrNothing invocation (.ran invocation.report) := by
  obtain ⟨fault, unread, report⟩ | ⟨t, c, read, least, report⟩ | ⟨t, read, complete, succeeds⟩ :=
    Invocation.report_cases written.areBits small
  · rw [report]
    exact .of_unreadable unread
  · rw [report]
    exact .of_unassigned read least
  · exact .of_success read complete succeeds

end AllOrNothing

end Command

end Sentential
