import Sentential.Proofs.OrderedChoice

/-!
# Reading stops at the end of the longest viable prefix

A text is viable if it can be continued to a formula. Whatever state a reader is in, some text leads
it to the end of a formula: a letter, if an operand has to come, and then the parentheses that are
missing. So what a reader has read when it is stuck is viable, and since every character is read in
one way, no text that goes on with the character it is stuck at is a formula.
-/

namespace Sentential

namespace Reader

/-- The text from a column on leads the reader to the end of a formula. -/
def Finishes (reader : Reader) (column : Nat) (text : List Char) : Prop :=
  ∃ signs final tree, Spells column text signs ∧ reader.feed signs = some final ∧
    final.finish? = some tree

/-- The reader cannot go on with the text from a column on. -/
def Stuck (reader : Reader) (column : Nat) : List Char → Prop
  | [] => reader.finish? = none
  | c :: _ => isBlank c = false ∧
    ((Sign.ofChar? c).bind fun sign => reader.step sign column) = none

/-- A character in a column takes a reader to the next one; a blank leaves it as it is. -/
inductive Takes (reader : Reader) (column : Nat) (c : Char) : Reader → Prop
  | blank (skipped : isBlank c = true) : Takes reader column c reader
  | sign {next : Reader} (sign : Sign) (written : sign.WrittenAs c)
      (step : reader.step sign column = some next) : Takes reader column c next

/-- Reading the text from a column on ends in a stop, at the place where the reader is stuck. -/
inductive Stops : Reader → Nat → List Char → Stop → Prop
  | here {reader : Reader} {column : Nat} {text : List Char} (stuck : reader.Stuck column text) :
      Stops reader column text ⟨column, text.head?, reader.wanted⟩
  | later {reader next : Reader} {column : Nat} {c : Char} {text : List Char} {stop : Stop}
      (takes : Takes reader column c next) (rest : Stops next (column + 1) text stop) :
      Stops reader column (c :: text) stop

section Steps

variable {reader next : Reader} {column : Nat} {c : Char} {text : List Char} {stop : Stop}

/-! ### Single characters -/

theorem finishes_nil_iff : reader.Finishes column [] ↔ ∃ tree, reader.finish? = some tree := by
  simp [Finishes, Spells.nil_iff]

/-- A text is read to the end as its rest is, behind the first character. -/
theorem Takes.finishes_iff (takes : Takes reader column c next) :
    reader.Finishes column (c :: text) ↔ next.Finishes (column + 1) text := by
  cases takes with
  | blank skipped => simp only [Finishes, Spells.cons_iff_of_blank skipped]
  | sign sign written step =>
      constructor
      · rintro ⟨signs, final, tree, spelled, accepted, finished⟩
        obtain ⟨sign', rest, read, rfl, spelledRest⟩ :=
          (Spells.cons_iff_of_not_blank (Sign.isBlank_eq_false_of_writtenAs written)).1 spelled
        rw [Sign.ofChar?_of_writtenAs written, Option.some.injEq] at read
        subst read
        rw [feed_cons_of_step step] at accepted
        exact ⟨rest, final, tree, spelledRest, accepted, finished⟩
      · rintro ⟨signs, final, tree, spelled, accepted, finished⟩
        exact ⟨(sign, column) :: signs, final, tree, .sign written spelled,
          (feed_cons_of_step step signs).trans accepted, finished⟩

theorem Stuck.not_finishes (h : reader.Stuck column (c :: text)) (more : List Char) :
    ¬ reader.Finishes column (c :: more) := by
  obtain ⟨visible, stuck⟩ := h
  rintro ⟨signs, final, tree, spelled, accepted, -⟩
  obtain ⟨sign, rest, read, rfl, -⟩ := (Spells.cons_iff_of_not_blank visible).1 spelled
  rw [read, Option.bind_some] at stuck
  rw [feed_cons, stuck] at accepted
  cases accepted

/-! ### Completions -/

theorem finishes_closings (tree : Tree) (joined : Bool) (outer : List Level) (column : Nat) :
    (having tree joined outer).Finishes column (List.replicate outer.length ')') := by
  induction outer generalizing tree joined column with
  | nil => exact finishes_nil_iff.2 ⟨_, rfl⟩
  | cons level outer ih =>
      refine (Takes.sign .closing rfl (step_closing _ _ _ _ _)).finishes_iff.2 ?_
      exact ih _ _ _

/-- Every state can be continued to the end of some formula. -/
theorem exists_finishes (reader : Reader) (column : Nat) :
    ∃ text, reader.Finishes column text := by
  cases reader with
  | having tree joined outer => exact ⟨_, finishes_closings tree joined outer column⟩
  | wanting level outer =>
      refine ⟨'p' :: List.replicate outer.length ')', ?_⟩
      refine (Takes.sign (.letter 'p') ⟨rfl, rfl⟩ rfl).finishes_iff.2 ?_
      exact finishes_closings _ _ outer _

/-! ### Stops -/

/-- A run that fails stops at the column where the reader is stuck. -/
theorem stops_of_run_eq_error {length : Nat} (ends : length = column + text.length)
    (h : reader.run length ((text.zipIdx column).filter fun entry => !isBlank entry.1) =
      .error stop) : Stops reader column text stop := by
  induction text generalizing reader column with
  | nil =>
      rw [List.zipIdx_nil, List.filter_nil, run] at h
      subst ends
      split at h
      · cases h
      · next unfinished =>
        cases h
        exact .here unfinished
  | cons c text ih =>
      rw [List.length_cons, Nat.add_comm text.length, ← Nat.add_assoc] at ends
      rw [List.zipIdx_cons, List.filter_cons] at h
      cases hb : isBlank c with
      | true =>
          rw [hb] at h
          exact .later (.blank hb) (ih ends h)
      | false =>
          simp only [hb, Bool.not_false, if_true, run] at h
          split at h
          · next next goesOn =>
            obtain ⟨sign, read, step⟩ := Option.bind_eq_some_iff.1 goesOn
            exact .later (.sign sign (Sign.writtenAs_of_ofChar? read) step) (ih ends h)
          · next stuck =>
            cases h
            exact .here ⟨hb, stuck⟩

theorem Stops.column_le (h : Stops reader column text stop) : column ≤ stop.position := by
  induction h with
  | here => exact Nat.le_refl _
  | later _ _ ih => exact Nat.le_of_succ_le ih

theorem Stops.position_le (h : Stops reader column text stop) :
    stop.position ≤ column + text.length := by
  induction h with
  | here => exact Nat.le_add_right _ _
  | later _ _ ih =>
      rw [List.length_cons]
      omega

theorem Stops.found_eq (h : Stops reader column text stop) :
    stop.found = text[stop.position - column]? := by
  induction h with
  | here => rw [Nat.sub_self, List.head?_eq_getElem?]
  | @later reader next column c text stop takes rest ih =>
      have behind := rest.column_le
      rw [ih, show stop.position - column = stop.position - (column + 1) + 1 by omega,
        List.getElem?_cons_succ]

/-- The beginnings of a text that can be continued are those that end before the stop. -/
theorem Stops.exists_finishes_take_iff (h : Stops reader column text stop) {n : Nat}
    (within : n ≤ text.length) :
    (∃ more, reader.Finishes column (text.take n ++ more)) ↔ column + n ≤ stop.position := by
  induction h generalizing n with
  | @here reader column text stuck =>
      cases n with
      | zero => exact iff_of_true (reader.exists_finishes column) (Nat.le_refl _)
      | succ n =>
          cases text with
          | nil => cases within
          | cons c text =>
              refine iff_of_false ?_ (by simp only; omega)
              rintro ⟨more, finishes⟩
              exact stuck.not_finishes _ finishes
  | @later reader next column c text stop takes rest ih =>
      cases n with
      | zero => exact iff_of_true (reader.exists_finishes column) (Nat.le_of_succ_le rest.column_le)
      | succ n =>
          simp only [List.take_succ_cons, List.cons_append, takes.finishes_iff]
          rw [ih (Nat.le_of_succ_le_succ within), Nat.add_right_comm, Nat.add_assoc]

end Steps

end Reader

/-! ### Whole texts -/

/-- The text can be continued to a formula. -/
def Viable (start : List Char) : Prop :=
  ∃ more t, Tree.read (String.ofList (start ++ more)) = .ok t

/-- A text is a formula exactly if it takes the reader from the start to the end of one. -/
theorem finishes_start_iff {text : List Char} :
    Reader.start.Finishes 0 text ↔ ∃ t, Tree.read (String.ofList text) = .ok t := by
  simp only [Tree.read_eq_ok_iff, String.toList_ofList]
  constructor
  · rintro ⟨signs, final, t, spelled, accepted, finished⟩
    exact ⟨t, Reader.run_eq_ok_iff.2 ⟨signs, final, spelled, accepted, finished⟩⟩
  · rintro ⟨t, h⟩
    obtain ⟨signs, final, spelled, accepted, finished⟩ := Reader.run_eq_ok_iff.1 h
    exact ⟨signs, final, t, spelled, accepted, finished⟩

theorem viable_iff {start : List Char} :
    Viable start ↔ ∃ more, Reader.start.Finishes 0 (start ++ more) := by
  simp only [Viable, finishes_start_iff]

namespace Tree

theorem stops_of_readChars {text : List Char} {stop : Stop} (h : readChars text = .error stop) :
    Reader.start.Stops 0 text stop :=
  Reader.stops_of_run_eq_error (Nat.zero_add _).symm h

/-- The reading of a text that is no formula ends in a single stop. Its place is the length of the
longest prefix of the text that can be continued to a formula; what is found is the character there,
one column wide, or the end of the text. -/
theorem read_stops_at_viable_prefix (text : String) (rejected : ∀ t, read text ≠ .ok t) :
    ∃ stop, (∀ fault, read text = .error fault ↔ fault = .unreadable text stop) ∧
      Choice.readChars text.toList = .error stop ∧
      stop.position ≤ text.length ∧
      (∀ n, n ≤ text.length → (Viable (text.toList.take n) ↔ n ≤ stop.position)) ∧
      stop.found = text.toList[stop.position]? ∧
      stop.finish = if stop.position < text.length then stop.position + 1 else text.length := by
  cases h : readChars text.toList with
  | ok t => exact absurd (read_eq_ok_iff.2 h) (rejected t)
  | error stop =>
      have stops := stops_of_readChars h
      have close := stops.position_le
      rw [Nat.zero_add, String.length_toList] at close
      refine ⟨stop, ?_, (Choice.readChars_eq _).trans h, close, ?_, stops.found_eq, ?_⟩
      · intro fault
        simp only [read, h, Except.error.injEq, eq_comm]
      · intro n within
        rw [← String.length_toList] at within
        rw [viable_iff, stops.exists_finishes_take_iff within, Nat.zero_add]
      · have found : stop.found = text.toList[stop.position]? := stops.found_eq
        split
        · next inside =>
          rw [← String.length_toList] at inside
          rw [Stop.finish, found, List.getElem?_eq_getElem inside]
        · next outside =>
          rw [List.getElem?_eq_none (by rw [String.length_toList]; omega)] at found
          rw [Stop.finish, found]
          simp only
          omega

/-- A chain of connectives that needs parentheses, with blanks before the offending character. -/
theorem read_stops_at_chained_connective :
    (∀ t, read "p & q  & r" ≠ .ok t) ∧
      read "p & q  & r" = .error (.unreadable "p & q  & r" ⟨7, some '&', [none]⟩) ∧
      Viable "p & q  ".toList ∧ ¬ Viable "p & q  &".toList := by
  have rejected : ∀ t, read "p & q  & r" ≠ .ok t := nofun
  have stopped : read "p & q  & r" = .error (.unreadable "p & q  & r" ⟨7, some '&', [none]⟩) := rfl
  obtain ⟨stop, only, -, -, longest, -, -⟩ := read_stops_at_viable_prefix "p & q  & r" rejected
  cases (only _).1 stopped
  exact ⟨rejected, stopped, (longest 7 (by decide)).2 (by decide),
    fun viable => absurd ((longest 8 (by decide)).1 viable) (by decide)⟩

end Tree

end Sentential
