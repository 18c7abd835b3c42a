import Sentential.Proofs.Grammar
import Sentential.Reading.Choice

/-!
# Where readers stop

A failure of a parser blames the place where it is noted. The furthest of the places that are blamed
is the stop of the whole reading, so a list of failures is described by what it says about one
place: that they all lie before it, or that it is the furthest one and what is wanted there. Readers
of signs halt at one such place too, whatever level they are at.
-/

namespace Sentential.Choice

/-- The characters of an input that are not blank. -/
def significant (input : Input) : Input :=
  input.filter fun entry => !isBlank entry.1

/-! ### Blanks -/

theorem skip_suffix (input : Input) : skip input <:+ input :=
  List.dropWhile_suffix _

@[simp] theorem significant_skip (input : Input) :
    significant (skip input) = significant input := by
  induction input with
  | nil => rfl
  | cons entry rest ih =>
      cases hb : isBlank entry.1 with
      | true => simpa [skip, significant, hb] using ih
      | false => simp [skip, hb]

@[simp] theorem skip_skip (input : Input) : skip (skip input) = skip input := by
  induction input with
  | nil => rfl
  | cons entry rest ih =>
      cases hb : isBlank entry.1 with
      | true => simpa [skip, hb] using ih
      | false => simp [skip, hb]

theorem significant_of_skip_eq_nil {input : Input} (h : skip input = []) :
    significant input = [] := by
  rw [← significant_skip, h]
  rfl

theorem isBlank_of_skip_eq_cons {input rest : Input} {c : Char} {column : Nat}
    (h : skip input = (c, column) :: rest) : isBlank c = false := by
  induction input with
  | nil => cases h
  | cons entry more ih =>
      cases hb : isBlank entry.1 with
      | true => exact ih (by simpa [skip, hb] using h)
      | false =>
          simp only [skip, List.dropWhile_cons, hb, Bool.false_eq_true, if_false,
            List.cons.injEq] at h
          rw [h.1] at hb
          exact hb

theorem significant_of_skip_eq_cons {input rest : Input} {c : Char} {column : Nat}
    (h : skip input = (c, column) :: rest) :
    significant input = (c, column) :: significant rest := by
  rw [← significant_skip, h]
  simp [significant, isBlank_of_skip_eq_cons h]

theorem length_lt_of_skip_eq_cons {input rest : Input} {c : Char} {column : Nat}
    (h : skip input = (c, column) :: rest) : rest.length < input.length := by
  have := (skip_suffix input).length_le
  rw [h, List.length_cons] at this
  omega

theorem suffix_of_skip_eq_cons {input rest : Input} {c : Char} {column : Nat}
    (h : skip input = (c, column) :: rest) : rest <:+ input :=
  (List.suffix_cons _ _).trans (h ▸ skip_suffix input)

theorem suffix_behind {input rest place : Input} {c : Char} {column : Nat}
    (h : skip input = (c, column) :: rest) (suffix : place <:+ skip (skip rest)) :
    place <:+ skip input := by
  rw [skip_skip] at suffix
  rw [h]
  exact (suffix.trans (skip_suffix rest)).trans (List.suffix_cons _ _)

theorem length_lt_behind {input rest place : Input} {c : Char} {column : Nat}
    (h : skip input = (c, column) :: rest) (suffix : place <:+ skip (skip rest)) :
    place.length < (skip input).length := by
  rw [skip_skip] at suffix
  rw [h, List.length_cons]
  exact Nat.lt_succ_of_le (suffix.trans (skip_suffix rest)).length_le

/-! ### Failures -/

/-- All failures lie before the rest. -/
def Before (failures : List Failure) (rest : Input) : Prop :=
  ∀ failure ∈ failures, rest.length < failure.rest.length

/-- No failure lies behind the rest, and those that lie right there want exactly the given
characters. -/
structure Blames (failures : List Failure) (rest : Input) (wanted : List (Option Char)) : Prop where
  within : ∀ failure ∈ failures,
    rest.length < failure.rest.length ∨ failure.rest = rest ∧ failure.wanted ⊆ wanted
  covers : ∀ x ∈ wanted, ∃ failure ∈ failures, failure.rest = rest ∧ x ∈ failure.wanted

section Failures

variable {failures more : List Failure} {rest rest' : Input} {wanted wanted' : List (Option Char)}

theorem Before.nil (rest : Input) : Before [] rest := by simp [Before]

theorem Before.append (h : Before failures rest) (h' : Before more rest) :
    Before (failures ++ more) rest := by
  intro failure member
  exact (List.mem_append.1 member).elim (h failure) (h' failure)

theorem Before.mono (h : Before failures rest) (shorter : rest'.length ≤ rest.length) :
    Before failures rest' :=
  fun failure member => Nat.lt_of_le_of_lt shorter (h failure member)

theorem Before.single (h : rest'.length < rest.length) (wanted : List (Option Char)) :
    Before [⟨rest, wanted⟩] rest' := by
  simpa [Before] using h

theorem Blames.before (h : Blames failures rest wanted) (shorter : rest'.length < rest.length) :
    Before failures rest' := by
  intro failure member
  rcases h.within failure member with longer | ⟨same, -⟩
  · omega
  · rw [same]
    exact shorter

theorem Blames.of_before (h : Before failures rest) : Blames failures rest [] :=
  ⟨fun failure member => .inl (h failure member), by simp⟩

theorem Blames.single (rest : Input) (wanted : List (Option Char)) :
    Blames [⟨rest, wanted⟩] rest wanted :=
  ⟨by simp, by simp⟩

/-- Failures at one place add up. -/
theorem Blames.append (h : Blames failures rest wanted) (h' : Blames more rest wanted')
    {all : List (Option Char)} (mem_all : ∀ x, x ∈ all ↔ x ∈ wanted ∨ x ∈ wanted') :
    Blames (failures ++ more) rest all := by
  constructor
  · intro failure member
    rcases List.mem_append.1 member with first | second
    · exact (h.within failure first).imp_right fun ⟨same, sub⟩ =>
        ⟨same, fun x hx => (mem_all x).2 (.inl (sub hx))⟩
    · exact (h'.within failure second).imp_right fun ⟨same, sub⟩ =>
        ⟨same, fun x hx => (mem_all x).2 (.inr (sub hx))⟩
  · intro x hx
    rcases (mem_all x).1 hx with first | second
    · obtain ⟨failure, member, found⟩ := h.covers x first
      exact ⟨failure, List.mem_append_left _ member, found⟩
    · obtain ⟨failure, member, found⟩ := h'.covers x second
      exact ⟨failure, List.mem_append_right _ member, found⟩

theorem Blames.append_before (h : Blames failures rest wanted) (h' : Before more rest) :
    Blames (failures ++ more) rest wanted :=
  h.append (.of_before h') (by simp)

theorem Blames.before_append (h : Before failures rest) (h' : Blames more rest wanted) :
    Blames (failures ++ more) rest wanted :=
  (Blames.of_before h).append h' (by simp)

theorem furthest_eq {input : Input} (le : rest.length ≤ input.length)
    (within : ∀ failure ∈ failures, rest.length < failure.rest.length ∨ failure.rest = rest)
    (attained : input = rest ∨ ∃ failure ∈ failures, failure.rest = rest) :
    furthest input failures = rest := by
  induction failures generalizing input with
  | nil => simpa [furthest] using attained
  | cons failure more ih =>
      obtain ⟨head, tail⟩ := List.forall_mem_cons.1 within
      rw [furthest]
      split
      · next nearer =>
        have close : rest.length ≤ failure.rest.length := by
          rcases head with longer | same
          · omega
          · exact Nat.le_of_eq (by rw [same])
        refine ih close tail ?_
        rcases attained with rfl | ⟨blamed, member, same⟩
        · exact .inl (head.resolve_left (by omega))
        · rcases List.mem_cons.1 member with rfl | member
          · exact .inl same
          · exact .inr ⟨blamed, member, same⟩
      · next further =>
        refine ih le tail ?_
        rcases attained with rfl | ⟨blamed, member, same⟩
        · exact .inl rfl
        · rcases List.mem_cons.1 member with rfl | member
          · exact absurd (same ▸ le) further
          · exact .inr ⟨blamed, member, same⟩

theorem stopOf_eq {input : Input} (length : Nat) (le : rest.length ≤ input.length)
    (h : Blames failures rest wanted) (ne_nil : wanted ≠ [])
    (known : vocabulary.filter (fun x => decide (x ∈ wanted)) = wanted) :
    stopOf length input failures = stopAt length rest wanted := by
  obtain ⟨x, hx⟩ := List.exists_mem_of_ne_nil wanted ne_nil
  obtain ⟨failure, member, same, -⟩ := h.covers x hx
  have place : furthest input failures = rest :=
    furthest_eq le (fun f hf => (h.within f hf).imp_right And.left) (.inr ⟨failure, member, same⟩)
  rw [stopOf, place]
  conv => rhs; rw [← known]
  congr 2
  funext x
  rw [Bool.eq_iff_iff]
  simp only [List.any_eq_true, Bool.and_eq_true, decide_eq_true_eq, List.contains_iff_mem]
  constructor
  · rintro ⟨f, hf, same, hx⟩
    rcases h.within f hf with longer | ⟨-, sub⟩
    · rw [same] at longer
      omega
    · exact sub hx
  · exact h.covers x

end Failures

/-! ### Where readers get -/

open Reader

theorem known_wanted (reader : Reader) :
    vocabulary.filter (fun x => decide (x ∈ reader.wanted)) = reader.wanted := by
  cases reader with
  | wanting => rfl
  | having tree joined outer => cases joined <;> cases outer <;> rfl

theorem wanted_ne_nil (reader : Reader) : reader.wanted ≠ [] := by
  cases reader with
  | wanting => simp [Reader.wanted]
  | having tree joined outer => cases joined <;> cases outer <;> simp [Reader.wanted]

/-- All readers that are at these levels and want an operand stop at the same place before the end
of their level, wanting the same characters. -/
structure Halts (length : Nat) (levels : Level → Prop) (input rest : Input)
    (wanted : List (Option Char)) : Prop where
  suffix : rest <:+ skip input
  here : rest = skip input → wanted = [some '(', some '~']
  inside : none ∉ wanted
  known : ∃ reader : Reader, wanted = reader.wanted
  run : ∀ level, levels level → ∀ outer,
    (wanting level outer).run length (significant input) = .error (stopAt length rest wanted)

/-- The first character that is not blank is no letter. -/
def LetterFree (input : Input) : Prop :=
  ∀ c column rest, skip input = (c, column) :: rest → isAlphabetic c = false

theorem exists_letter_or_letterFree (input : Input) :
    (∃ c column rest, skip input = (c, column) :: rest ∧ isAlphabetic c = true) ∨
      LetterFree input := by
  by_cases letter : ∃ c column rest, skip input = (c, column) :: rest ∧ isAlphabetic c = true
  · exact .inl letter
  · right
    intro c column rest h
    rw [← Bool.not_eq_true]
    intro alphabetic
    exact letter ⟨c, column, rest, h, alphabetic⟩

section Runs

variable {length : Nat} {input rest : Input} {c : Char} {column : Nat} {reader : Reader}

@[simp] theorem stopAt_wanted (length : Nat) (rest : Input) (wanted : List (Option Char)) :
    (stopAt length rest wanted).wanted = wanted := by
  unfold stopAt
  split <;> rfl

theorem run_of_step (sign : Sign) (h : skip input = (c, column) :: rest)
    (written : sign.WrittenAs c) {next : Reader} (step : reader.step sign column = some next) :
    reader.run length (significant input) = next.run length (significant rest) := by
  rw [significant_of_skip_eq_cons h, Reader.run, Sign.ofChar?_of_writtenAs written,
    Option.bind_some, step]

theorem run_of_stuck (h : skip input = (c, column) :: rest)
    (stuck : ∀ sign, sign.WrittenAs c → reader.step sign column = none) :
    reader.run length (significant input) =
      .error (stopAt length (skip input) reader.wanted) := by
  have none : ((Sign.ofChar? c).bind fun sign => reader.step sign column) = none := by
    rw [Option.bind_eq_none_iff]
    intro sign read
    exact stuck sign (Sign.writtenAs_of_ofChar? read)
  rw [significant_of_skip_eq_cons h, Reader.run, none, h]
  rfl

theorem run_of_end (h : skip input = []) (unfinished : reader.finish? = none) :
    reader.run length (significant input) =
      .error (stopAt length (skip input) reader.wanted) := by
  rw [significant_of_skip_eq_nil h, Reader.run, unfinished, h]
  rfl

/-- A reader that wants an operand stops at a character that begins none, and at the end. -/
theorem run_wanting (level : Level) (outer : List Level)
    (none : ∀ c column rest, skip input = (c, column) :: rest →
      isAlphabetic c = false ∧ c ≠ '~' ∧ c ≠ '(') :
    (wanting level outer).run length (significant input) =
      .error (stopAt length (skip input) [some '(', some '~']) := by
  change (wanting level outer).run length (significant input) =
    .error (stopAt length (skip input) (wanting level outer).wanted)
  cases h : skip input with
  | nil =>
      rw [← h]
      exact run_of_end h rfl
  | cons entry rest =>
      obtain ⟨c, column⟩ := entry
      obtain ⟨noLetter, noNegation, noOpening⟩ := none c column rest h
      rw [← h]
      apply run_of_stuck h
      intro sign written
      cases sign with
      | letter d => exact absurd (written.1 ▸ written.2) (by simp [noLetter])
      | negation => exact absurd written noNegation
      | opening => exact absurd written noOpening
      | connective | closing => rfl

/-- A reader that has an operand stops at a character that neither goes on nor closes a level, and
at the end if a level is still open. -/
theorem run_having {tree : Tree} {joined : Bool} {outer : List Level} (skipped : skip rest = rest)
    (ends : joined = false → ∀ c column more, rest = (c, column) :: more →
      Connective.ofChar? c = none)
    (closes : ∀ column more, rest = (')', column) :: more → outer = [])
    (opened : rest = [] → outer ≠ []) :
    (having tree joined outer).run length (significant rest) =
      .error (stopAt length rest (having tree joined outer).wanted) := by
  cases hr : rest with
  | nil =>
      have unfinished : (having tree joined outer).finish? = none := by
        cases houter : outer with
        | nil => exact absurd houter (opened hr)
        | cons => rfl
      exact run_of_end (by rfl) unfinished
  | cons entry more =>
      obtain ⟨c, column⟩ := entry
      have h : skip rest = (c, column) :: more := skipped.trans hr
      rw [← hr]
      conv => rhs; rw [← skipped]
      apply run_of_stuck h
      intro sign written
      cases sign with
      | letter | negation | opening => cases joined <;> cases outer <;> rfl
      | closing =>
          cases written
          rw [closes column more hr]
          cases joined <;> rfl
      | connective k =>
          cases joined with
          | true => cases outer <;> rfl
          | false =>
              have none := ends rfl c column more hr
              rw [show c = k.symbol from written, Connective.ofChar?_symbol] at none
              cases none

/-- An operand cannot be found where readers halt before the end of their level: behind it, a
reader whose level is joined and not enclosed could only want the end of the text. -/
theorem Halts.not_found {wanted : List (Option Char)} {place : Input} {tree : Tree}
    (halts : Halts length (fun _ => True) input place wanted) (skipped : skip rest = rest)
    (run : ∀ level outer, level.marks = [] ∨ LetterFree input →
      (wanting level outer).run length (significant input) =
        (having (level.complete tree) level.isJoined outer).run length (significant rest)) :
    False := by
  have stop := halts.run (.after tree ⟨.negation, 0⟩) trivial []
  rw [run _ [] (.inl rfl)] at stop
  cases hr : rest with
  | nil =>
      rw [hr] at stop
      cases stop
  | cons entry more =>
      rw [run_having skipped (by simp [Level.isJoined, Level.after]) (fun _ _ _ => rfl)
        (by simp [hr])] at stop
      have same := congrArg Stop.wanted (Except.error.inj stop)
      rw [stopAt_wanted, stopAt_wanted] at same
      exact halts.inside (same ▸ by simp [Reader.wanted])

/-- Where readers halt is not changed by what they read before. -/
theorem Halts.of_later {wanted : List (Option Char)} {later place : Input}
    {levels levels' : Level → Prop} (suffix : skip later <:+ skip input)
    (shorter : (skip later).length < (skip input).length)
    (halts : Halts length levels' later place wanted)
    (goes : ∀ level, levels level → ∀ outer, ∃ level' outer', levels' level' ∧
      (wanting level outer).run length (significant input) =
        (wanting level' outer').run length (significant later)) :
    Halts length levels input place wanted where
  suffix := halts.suffix.trans suffix
  here same := by
    have close := halts.suffix.length_le
    rw [same] at close
    omega
  inside := halts.inside
  known := halts.known
  run level h outer := by
    obtain ⟨level', outer', h', same⟩ := goes level h outer
    rw [same]
    exact halts.run level' h' outer'

theorem Halts.mono {wanted : List (Option Char)} {place : Input} {levels levels' : Level → Prop}
    (halts : Halts length levels input place wanted) (sub : ∀ level, levels' level → levels level) :
    Halts length levels' input place wanted :=
  { halts with run := fun level h => halts.run level (sub level h) }

/-! ### Places -/

/-- The columns of an input ascend and end before the length of the text. -/
structure Placed (length : Nat) (input : Input) : Prop where
  ascending : input.Pairwise fun a b => a.2 < b.2
  bounded : ∀ entry ∈ input, entry.2 < length

theorem Placed.suffix (h : Placed length input) (suffix : rest <:+ input) : Placed length rest :=
  ⟨h.ascending.sublist suffix.sublist, fun entry member => h.bounded entry (suffix.subset member)⟩

theorem Placed.eq_of_suffix {place place' : Input} {wanted wanted' : List (Option Char)}
    (placed : Placed length place') (suffix : place <:+ place')
    (h : stopAt length place wanted = stopAt length place' wanted') : place = place' := by
  have same := congrArg Stop.position h
  cases place' with
  | nil => exact List.suffix_nil.1 suffix
  | cons first more =>
      rcases List.suffix_cons_iff.1 suffix with eq | deeper
      · exact eq
      · cases place with
        | nil =>
            have := placed.bounded first List.mem_cons_self
            simp only [stopAt] at same
            omega
        | cons second others =>
            have := (List.pairwise_cons.1 placed.ascending).1 second
              (deeper.subset List.mem_cons_self)
            simp only [stopAt] at same
            omega

/-- A stop tells its place. -/
theorem Placed.eq_of_stopAt_eq {place place' : Input} {wanted wanted' : List (Option Char)}
    (placed : Placed length input) (suffix : place <:+ input) (suffix' : place' <:+ input)
    (h : stopAt length place wanted = stopAt length place' wanted') : place = place' := by
  rcases Nat.le_total place.length place'.length with le | le
  · exact (placed.suffix suffix').eq_of_suffix (List.suffix_of_suffix_length_le suffix suffix' le) h
  · exact ((placed.suffix suffix).eq_of_suffix
      (List.suffix_of_suffix_length_le suffix' suffix le) h.symm).symm

theorem Halts.unique {place place' : Input} {wanted wanted' : List (Option Char)}
    (placed : Placed length input) (halts : Halts length (fun _ => True) input place wanted)
    (halts' : Halts length (fun _ => True) input place' wanted') :
    place = place' ∧ wanted = wanted' := by
  have same := Except.error.inj
    ((halts.run .start trivial []).symm.trans (halts'.run .start trivial []))
  refine ⟨placed.eq_of_stopAt_eq (halts.suffix.trans (skip_suffix _))
    (halts'.suffix.trans (skip_suffix _)) same, ?_⟩
  simpa using congrArg Stop.wanted same

/-- Failures of parsers that want the first character of an operand can be added to those that
blame the place where readers of an operand halt. -/
theorem Halts.blames_append {levels : Level → Prop} {place : Input} {wanted : List (Option Char)}
    {failures more : List Failure} (halts : Halts length levels input place wanted)
    (first : ∀ failure ∈ failures, failure.rest = skip input ∧
      failure.wanted ⊆ [some '(', some '~'])
    (blames : Blames more place wanted) : Blames (failures ++ more) place wanted := by
  constructor
  · intro failure member
    rcases List.mem_append.1 member with member | member
    · obtain ⟨same, sub⟩ := first failure member
      rw [same]
      by_cases here : place = skip input
      · exact .inr ⟨here.symm, halts.here here ▸ sub⟩
      · exact .inl (Nat.lt_of_le_of_ne halts.suffix.length_le
          fun le => here (halts.suffix.eq_of_length le))
    · exact blames.within failure member
  · intro x hx
    obtain ⟨failure, member, found⟩ := blames.covers x hx
    exact ⟨failure, List.mem_append_right _ member, found⟩

end Runs

end Sentential.Choice
