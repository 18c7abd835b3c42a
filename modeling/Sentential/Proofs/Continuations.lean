import Sentential.Proofs.ViablePrefix

/-!
# A stop names all that could have come next

What a reader wants depends on whether it has an operand, whether the innermost level is joined and
whether a level is open. These also decide which steps the reader has, and every step can be
continued to the end of a formula. So a reader that is stuck wants exactly the signs, letters apart,
with which some formula goes on, and it wants the end of the text exactly where a formula ends.
-/

namespace Sentential

theorem Sign.exists_writtenAs_of_isMark {c : Char} (h : isMark c = true) :
    ∃ sign : Sign, sign.WrittenAs c := by
  simp only [isMark, List.mem_cons, List.not_mem_nil, or_false, decide_eq_true_eq] at h
  rcases h with rfl | rfl | rfl | rfl | rfl | rfl | rfl
  · exact ⟨.opening, rfl⟩
  · exact ⟨.closing, rfl⟩
  · exact ⟨.negation, rfl⟩
  · exact ⟨.connective .conjunction, rfl⟩
  · exact ⟨.connective .disjunction, rfl⟩
  · exact ⟨.connective .implication, rfl⟩
  · exact ⟨.connective .equivalence, rfl⟩

namespace Reader

section Steps

variable {reader : Reader} {column : Nat} {c : Char} {text : List Char} {stop : Stop}

/-! ### What a reader wants -/

/-- Some text goes on with a character exactly if the reader has a step for its sign. -/
theorem exists_finishes_cons_iff {sign : Sign} (written : sign.WrittenAs c) :
    (∃ more, reader.Finishes column (c :: more)) ↔ (reader.step sign column).isSome := by
  cases hstep : reader.step sign column with
  | none =>
      have stuck : reader.Stuck column (c :: []) := by
        refine ⟨Sign.isBlank_eq_false_of_writtenAs written, ?_⟩
        rw [Sign.ofChar?_of_writtenAs written, Option.bind_some, hstep]
      refine iff_of_false ?_ nofun
      rintro ⟨more, finishes⟩
      exact stuck.not_finishes more finishes
  | some next =>
      refine iff_of_true ?_ rfl
      obtain ⟨more, finishes⟩ := next.exists_finishes (column + 1)
      exact ⟨more, (Takes.sign sign written hstep).finishes_iff.2 finishes⟩

theorem isMark_of_mem_wanted (h : some c ∈ reader.wanted) : isMark c = true := by
  have marks : ∀ x ∈ Choice.vocabulary, ∀ d, x = some d → isMark d = true := by
    simp [Choice.vocabulary, isMark]
  rw [← Choice.known_wanted] at h
  exact marks (some c) (List.mem_filter.1 h).1 c rfl

/-- Letters apart, a sign is wanted exactly if the reader has a step for it. -/
theorem mem_wanted_iff_isSome_step {sign : Sign} (mark : isMark c = true)
    (written : sign.WrittenAs c) : some c ∈ reader.wanted ↔ (reader.step sign column).isSome := by
  cases sign with
  | letter d =>
      obtain ⟨rfl, alphabetic⟩ := written
      rw [isAlphabetic_eq_false_of_isMark mark] at alphabetic
      cases alphabetic
  | negation | opening | closing =>
      cases written
      cases reader with
      | wanting level outer => simp [wanted, step]
      | having tree joined outer => cases joined <;> cases outer <;> simp [wanted, step]
  | connective k =>
      obtain rfl : c = k.symbol := written
      cases reader with
      | wanting level outer => cases k <;> simp [wanted, step, Connective.symbol]
      | having tree joined outer =>
          cases joined <;> cases outer <;> cases k <;> simp [wanted, step, Connective.symbol]

/-- A reader wants the signs that texts can go on with, letters apart. -/
theorem some_mem_wanted_iff (column : Nat) :
    some c ∈ reader.wanted ↔ isMark c = true ∧ ∃ more, reader.Finishes column (c :: more) := by
  constructor
  · intro h
    have mark := isMark_of_mem_wanted h
    obtain ⟨sign, written⟩ := Sign.exists_writtenAs_of_isMark mark
    refine ⟨mark, (exists_finishes_cons_iff written).2 ?_⟩
    exact (mem_wanted_iff_isSome_step mark written).1 h
  · rintro ⟨mark, goesOn⟩
    obtain ⟨sign, written⟩ := Sign.exists_writtenAs_of_isMark mark
    exact (mem_wanted_iff_isSome_step mark written).2 ((exists_finishes_cons_iff written).1 goesOn)

/-- A reader wants the end of the text where a formula ends. -/
theorem none_mem_wanted_iff (column : Nat) : none ∈ reader.wanted ↔ reader.Finishes column [] := by
  rw [finishes_nil_iff]
  cases reader with
  | wanting level outer => simp [wanted, finish?]
  | having tree joined outer => cases joined <;> cases outer <;> simp [wanted, finish?]

/-! ### What a stop names -/

/-- A stop names what some reader wants, and this reader continues what was read before the
stop. -/
theorem Stops.exists_reader (h : Stops reader column text stop) :
    ∃ last : Reader, last.wanted = stop.wanted ∧ ∀ more,
      reader.Finishes column (text.take (stop.position - column) ++ more) ↔
        last.Finishes stop.position more := by
  induction h with
  | @here reader column text stuck =>
      refine ⟨reader, rfl, fun more => ?_⟩
      rw [Nat.sub_self, List.take_zero, List.nil_append]
  | @later reader next column c text stop takes rest ih =>
      obtain ⟨last, same, continues⟩ := ih
      have behind := rest.column_le
      refine ⟨last, same, fun more => ?_⟩
      rw [show stop.position - column = stop.position - (column + 1) + 1 by omega,
        List.take_succ_cons, List.cons_append, takes.finishes_iff]
      exact continues more

end Steps

end Reader

namespace Tree

/-- The reading of a text that is no formula names what could have come at its stop: a character,
other than a letter, exactly if what was read before goes on with it in some formula, and the end of
the text exactly if what was read before is a formula. -/
theorem read_names_continuations (text : String) (rejected : ∀ t, read text ≠ .ok t) :
    ∃ stop, read text = .error (.unreadable text stop) ∧
      Choice.readChars text.toList = .error stop ∧
      (∀ c, some c ∈ stop.wanted ↔
        isMark c = true ∧ Viable (text.toList.take stop.position ++ [c])) ∧
      (none ∈ stop.wanted ↔
        ∃ t, read (String.ofList (text.toList.take stop.position)) = .ok t) := by
  cases h : readChars text.toList with
  | ok t => exact absurd (read_eq_ok_iff.2 h) (rejected t)
  | error stop =>
      obtain ⟨last, same, continues⟩ := (stops_of_readChars h).exists_reader
      rw [Nat.sub_zero] at continues
      refine ⟨stop, by rw [read, h], (Choice.readChars_eq _).trans h, ?_, ?_⟩
      · intro c
        rw [← same, Reader.some_mem_wanted_iff stop.position, viable_iff]
        simp only [List.append_assoc, List.singleton_append, continues]
      · rw [← same, Reader.none_mem_wanted_iff stop.position, ← continues, List.append_nil]
        exact finishes_start_iff

/-- A text that could have ended before its last letter, or gone on with a connective, but has no
parenthesis to close. -/
theorem read_names_continuations_behind_group :
    (∀ t, read "~(p) q" ≠ .ok t) ∧
      read "~(p) q" = .error (.unreadable "~(p) q"
        ⟨5, some 'q', [none, some '&', some '=', some '>', some '|']⟩) ∧
      Viable "~(p) >".toList ∧ ¬ Viable "~(p) )".toList ∧ ∃ t, read "~(p) " = .ok t := by
  have rejected : ∀ t, read "~(p) q" ≠ .ok t := nofun
  have stopped : read "~(p) q" = .error (.unreadable "~(p) q"
      ⟨5, some 'q', [none, some '&', some '=', some '>', some '|']⟩) := rfl
  obtain ⟨stop, same, -, goesOn, ends⟩ := read_names_continuations "~(p) q" rejected
  cases stopped.symm.trans same
  refine ⟨rejected, stopped, ?_, ?_, ends.1 (by decide)⟩
  · exact ((goesOn '>').1 (by decide)).2
  · intro viable
    exact absurd ((goesOn ')').2 ⟨by decide, viable⟩) (by decide)

end Tree

end Sentential
