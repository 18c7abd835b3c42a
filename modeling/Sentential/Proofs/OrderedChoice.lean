import Mathlib.Logic.ExistsUnique
import Sentential.Proofs.Attempts

/-!
# Readers do what ordered choice does

The reader of signs and the parser by ordered choice give the same answer to every text: the same
tree, or the same stop. The parser may try an operand several times and note failures on the way, so
each of its attempts is described by where the reader gets from the same place. An attempt that
succeeds has noted nothing as far as its rest; one that fails blames the place where the reader
stops. A formula can also be `abandoned`: its first operand is kept although the connective after it
leads nowhere, and what comes next is bound to fail there.
-/

namespace Sentential.Choice

open Reader

/-- An attempt at an operand. -/
inductive ReadsOperand (length : Nat) (input : Input) : Attempt Tree → Prop
  | found {tree : Tree} {rest : Input} {failures : List Failure} (suffix : rest <:+ skip input)
      (shorter : rest.length < (skip input).length) (skipped : skip rest = rest)
      (before : Before failures rest)
      (run : ∀ level outer, level.marks = [] ∨ LetterFree input →
        (wanting level outer).run length (significant input) =
          (having (level.complete tree) level.isJoined outer).run length (significant rest)) :
      ReadsOperand length input ⟨some (tree, rest), failures⟩
  | stopped {rest : Input} {wanted : List (Option Char)} {failures : List Failure}
      (halts : Halts length (fun _ => True) input rest wanted)
      (blames : Blames failures rest wanted) : ReadsOperand length input ⟨none, failures⟩

/-- An attempt at a formula. -/
inductive ReadsFormula (length : Nat) (input : Input) : Attempt Tree → Prop
  | found {tree : Tree} {joined : Bool} {rest : Input} {failures : List Failure}
      (suffix : rest <:+ skip input) (shorter : rest.length < (skip input).length)
      (skipped : skip rest = rest)
      (blames : Blames failures rest (if joined then [] else connectives))
      (ends : joined = false → ∀ c column more, rest = (c, column) :: more →
        Connective.ofChar? c = none)
      (run : ∀ outer, (wanting .start outer).run length (significant input) =
        (having tree joined outer).run length (significant rest)) :
      ReadsFormula length input ⟨some (tree, rest), failures⟩
  | abandoned {tree : Tree} {c : Char} {column : Nat} {more rest : Input}
      {wanted : List (Option Char)} {failures : List Failure}
      (goesOn : (Connective.ofChar? c).isSome)
      (skipped : skip ((c, column) :: more) = (c, column) :: more)
      (shorter : rest.length < more.length + 1)
      (halts : Halts length (· = .start) input rest wanted) (blames : Blames failures rest wanted) :
      ReadsFormula length input ⟨some (tree, (c, column) :: more), failures⟩
  | stopped {rest : Input} {wanted : List (Option Char)} {failures : List Failure}
      (halts : Halts length (· = .start) input rest wanted) (blames : Blames failures rest wanted) :
      ReadsFormula length input ⟨none, failures⟩

section Phrases

variable {length : Nat} {input rest : Input} {column : Nat}

/-! ### Groups -/

theorem run_opening (h : skip input = ('(', column) :: rest) (level : Level) (outer : List Level) :
    (wanting level outer).run length (significant input) =
      (wanting .start (level :: outer)).run length (significant (skip rest)) := by
  rw [run_of_step .opening h rfl rfl, significant_skip]

/-- What halts a level of its own behind an opening parenthesis halts the level before it. -/
theorem Halts.group {place : Input} {wanted : List (Option Char)}
    (h : skip input = ('(', column) :: rest)
    (halts : Halts length (· = .start) (skip rest) place wanted) :
    Halts length (fun _ => True) input place wanted := by
  refine halts.of_later (suffix_behind h (List.suffix_refl _))
    (length_lt_behind h (List.suffix_refl _)) ?_
  intro level _ outer
  exact ⟨.start, level :: outer, rfl, run_opening h level outer⟩

/-- A group is read as an operand where there is an opening parenthesis. -/
theorem readsOperand_group {formula : Parser Tree} (h : skip input = ('(', column) :: rest)
    (inner : ReadsFormula length (skip rest) (formula (skip rest))) :
    ReadsOperand length input (group formula input) := by
  generalize hattempt : formula (skip rest) = attempt at inner
  cases inner with
  | stopped halts blames =>
      rw [group_of_none h hattempt]
      exact .stopped (halts.group h) blames
  | @abandoned tree c column' more place wanted failures goesOn skipped shorter halts blames =>
      have fails : parenthesis ')' ((c, column') :: more) =
          ⟨none, [⟨skip ((c, column') :: more), [some ')']⟩]⟩ := by
        apply parenthesis_of_ne
        intro column rest hc
        rw [skipped, List.cons.injEq, Prod.mk.injEq] at hc
        rw [hc.1.1] at goesOn
        cases goesOn
      rw [group_of_closing_fails h hattempt fails, skipped]
      exact .stopped (halts.group h) (blames.append_before (.single shorter _))
  | @found tree joined place failures suffix shorter skipped blames ends run =>
      by_cases closes : ∃ column' more, place = (')', column') :: more
      · obtain ⟨column', more, rfl⟩ := closes
        have after : skip more <:+ skip (skip rest) :=
          ((skip_suffix more).trans (List.suffix_cons _ _)).trans suffix
        rw [group_of_closing h hattempt (parenthesis_of_eq skipped)]
        refine .found (suffix_behind h after) (length_lt_behind h after) (skip_skip more)
          (blames.before ?_) ?_
        · exact Nat.lt_succ_of_le (skip_suffix more).length_le
        · intro level outer _
          rw [run_opening h, run, run_of_step .closing skipped rfl (step_closing _ _ _ _ _),
            significant_skip]
      · have fails : parenthesis ')' place = ⟨none, [⟨skip place, [some ')']⟩]⟩ :=
          parenthesis_of_ne fun column' more hp => closes ⟨column', more, skipped ▸ hp⟩
        have halts : Halts length (fun _ => True) input place
            (having tree joined [.start]).wanted := by
          refine ⟨suffix_behind h suffix, ?_, ?_, ⟨_, rfl⟩, ?_⟩
          · intro same
            have less := length_lt_behind h suffix
            rw [same] at less
            omega
          · cases joined <;> simp [Reader.wanted]
          · intro level _ outer
            rw [run_opening h, run,
              run_having skipped ends (fun column' more hp => absurd ⟨_, _, hp⟩ closes) (by simp)]
            rfl
        rw [group_of_closing_fails h hattempt fails, skipped]
        refine .stopped halts (blames.append (.single place _) ?_)
        intro x
        cases joined with
        | true => simp [Reader.wanted]
        | false =>
            simp only [Reader.wanted, connectives, List.mem_append, List.mem_cons]
            grind

/-! ### Formulas -/

theorem readsFormula_of {operand : Parser Tree}
    (reads : ∀ fewer : Input, fewer <:+ input → ReadsOperand length fewer (operand fewer)) :
    ReadsFormula length input (formulaOf operand input) := by
  have first := reads input (List.suffix_refl _)
  generalize hfirst : operand input = attempt at first
  cases first with
  | stopped halts blames =>
      rw [formulaOf_of_none hfirst]
      exact .stopped (halts.mono fun _ _ => trivial) (blames.append blames (by simp))
  | @found left rest failures suffix shorter skipped before run =>
      have toLeft (outer : List Level) := run .start outer (.inl rfl)
      by_cases goesOn : ∃ c column more k,
          rest = (c, column) :: more ∧ Connective.ofChar? c = some k
      · obtain ⟨c, column, more, k, rfl, hk⟩ := goesOn
        have joins := connective_of_some skipped hk
        have less := (skip_suffix more).length_le
        have deeper : skip more <:+ skip input :=
          ((skip_suffix more).trans (List.suffix_cons _ _)).trans suffix
        have within : skip (skip more) <:+ skip input := by
          rw [skip_skip]
          exact deeper
        have onward (outer : List Level) :
            (wanting .start outer).run length (significant input) =
              (wanting (.after left ⟨.connective k, column⟩) outer).run length
                (significant (skip more)) := by
          rw [toLeft outer, significant_skip]
          exact run_of_step (.connective k) skipped (Connective.symbol_of_ofChar? hk).symm rfl
        rw [List.length_cons] at shorter
        have second := reads (skip more) (deeper.trans (skip_suffix input))
        generalize hsecond : operand (skip more) = attempt at second
        cases second with
        | @stopped place wanted failures' halts blames =>
            have close := halts.suffix.length_le
            rw [skip_skip] at close
            have early : Before failures place := before.mono (by rw [List.length_cons]; omega)
            rw [formulaOf_of_second_none hfirst joins hsecond]
            refine .abandoned (by rw [hk]; rfl) skipped (by omega)
              (halts.of_later within (by rw [skip_skip]; omega) ?_)
              ((blames.before_append early).append_before early)
            rintro _ rfl outer
            exact ⟨_, outer, trivial, onward outer⟩
        | @found right after failures' suffix' shorter' skipped' before' run' =>
            rw [skip_skip] at shorter'
            rw [formulaOf_of_some hfirst joins hsecond]
            refine @ReadsFormula.found length input _ true after _ (suffix'.trans within) (by omega)
              skipped' (.of_before (.append ?_ before')) nofun ?_
            · exact before.mono (by rw [List.length_cons]; omega)
            · intro outer
              rw [onward, run' _ _ (.inl rfl)]
              rfl
      · have none (c : Char) (column : Nat) (more : Input) (h : rest = (c, column) :: more) :
            Connective.ofChar? c = .none := by
          apply Option.eq_none_iff_forall_ne_some.2
          intro k hk
          exact goesOn ⟨c, column, more, k, h, hk⟩
        have fails : connective rest = ⟨.none, [⟨skip rest, connectives⟩]⟩ :=
          connective_of_none fun c column more h => none c column more (skipped ▸ h)
        rw [formulaOf_of_connective_none hfirst fails, skipped]
        exact @ReadsFormula.found length input _ false rest _ suffix shorter skipped
          ((Blames.before_append before (.single rest _)).append_before before)
          (fun _ => none) toLeft

/-! ### Operands -/

/-- A group, or an operand from the same place: the operand cannot do better than the group, since
readers get to only one place. -/
theorem readsOperand_orElse {formula operand : Parser Tree} (placed : Placed length input)
    (inner : ∀ column rest, skip input = ('(', column) :: rest →
      ReadsFormula length (skip rest) (formula (skip rest)))
    (reads : ReadsOperand length input (operand input)) :
    ReadsOperand length input ((group formula).orElse operand input) := by
  by_cases opens : ∃ column rest, skip input = ('(', column) :: rest
  · obtain ⟨column, rest, h⟩ := opens
    have enclosed := readsOperand_group h (inner column rest h)
    generalize hgroup : group formula input = attempt at enclosed
    cases enclosed with
    | found suffix shorter skipped before run =>
        rw [orElse_of_some hgroup]
        exact .found suffix shorter skipped before run
    | stopped halts blames =>
        generalize hoperand : operand input = attempt at reads
        cases reads with
        | found suffix shorter skipped before run => exact (halts.not_found skipped run).elim
        | stopped halts' blames' =>
            obtain ⟨rfl, rfl⟩ := halts.unique placed halts'
            rw [orElse_of_none hgroup hoperand]
            exact .stopped halts (blames.append blames' (by simp))
  · have fails : group formula input = ⟨none, [⟨skip input, [some '(']⟩]⟩ :=
      group_of_ne fun column rest h => opens ⟨column, rest, h⟩
    generalize hoperand : operand input = attempt at reads
    rw [orElse_of_none fails hoperand]
    cases reads with
    | found suffix shorter skipped before run =>
        exact .found suffix shorter skipped ((Before.single shorter _).append before) run
    | stopped halts blames => exact .stopped halts (halts.blames_append (by simp) blames)

/-- What halts readers behind a negation sign halts them before it. -/
theorem Halts.negated {place : Input} {wanted : List (Option Char)}
    (h : skip input = ('~', column) :: rest)
    (halts : Halts length (fun _ => True) (skip rest) place wanted) :
    Halts length (fun _ => True) input place wanted := by
  refine halts.of_later (suffix_behind h (List.suffix_refl _))
    (length_lt_behind h (List.suffix_refl _)) ?_
  intro level _ outer
  refine ⟨level.mark ⟨.negation, column⟩, outer, trivial, ?_⟩
  rw [run_of_step .negation h rfl rfl, significant_skip]

theorem readsOperand_of_letter {depth : Nat} {c : Char} (h : skip input = (c, column) :: rest)
    (alphabetic : isAlphabetic c = true) (other : c ≠ '~') :
    ReadsOperand length input (operand (depth + 1) input) := by
  have suffix : skip rest <:+ skip (skip rest) := by simp
  have shorter := length_lt_behind h suffix
  rw [operand_of_some (proposition_of_letter h alphabetic other)]
  refine .found (suffix_behind h suffix) shorter (skip_skip rest) (.single shorter _) ?_
  rintro level outer (none | free)
  · rw [run_of_step (.letter c) h ⟨rfl, alphabetic⟩ rfl,
      Reader.Level.completeLetter_of_marks_eq_nil none, significant_skip]
  · rw [free c column rest h] at alphabetic
    cases alphabetic

theorem readsOperand_of_opening {depth : Nat} (h : skip input = ('(', column) :: rest)
    (inner : ReadsFormula length (skip rest) (formulaOf (operand depth) (skip rest))) :
    ReadsOperand length input (operand (depth + 1) input) := by
  have noNegation : ∀ column' rest', skip input ≠ ('~', column') :: rest' := by
    simp [h]
  have noLetter : LetterFree input := by
    intro c column' rest' h'
    rw [h, List.cons.injEq, Prod.mk.injEq] at h'
    rw [← h'.1.1]
    rfl
  have first := proposition_of_none noLetter noNegation
  have enclosed := readsOperand_group h inner
  generalize hgroup : group (formulaOf (operand depth)) input = attempt at enclosed
  cases enclosed with
  | found suffix shorter skipped before run =>
      rw [operand_of_none first (negated_of_ne noNegation) hgroup]
      refine .found suffix shorter skipped ?_ run
      refine .append ?_ (.append (.single shorter _) before)
      simpa [Before] using shorter
  | stopped halts blames =>
      rw [operand_of_none first (negated_of_ne noNegation) hgroup]
      exact .stopped halts (halts.blames_append (by simp) (halts.blames_append (by simp) blames))

theorem readsOperand_of_mark {depth : Nat} {c : Char} {column' : Nat} {after : Input}
    (h : skip input = ('~', column) :: rest) (h' : skip (skip rest) = (c, column') :: after)
    (alphabetic : isAlphabetic c = true) :
    ReadsOperand length input (operand (depth + 1) input) := by
  have suffix : skip after <:+ skip (skip rest) := by
    rw [h']
    exact (skip_suffix after).trans (List.suffix_cons _ _)
  rw [operand_of_some (proposition_of_mark h h' alphabetic)]
  refine .found (suffix_behind h suffix) (length_lt_behind h suffix) (skip_skip after) (.nil _) ?_
  intro level outer _
  rw [run_of_step .negation h rfl rfl, ← significant_skip rest,
    run_of_step (.letter c) h' ⟨rfl, alphabetic⟩ rfl, Reader.Level.completeLetter_mark,
    significant_skip]
  rfl

theorem readsOperand_of_negation {depth : Nat} (h : skip input = ('~', column) :: rest)
    (noLetter : LetterFree (skip rest))
    (inner : ReadsOperand length (skip rest)
      ((group (formulaOf (operand depth))).orElse (operand depth) (skip rest))) :
    ReadsOperand length input (operand (depth + 1) input) := by
  have noOpening : ∀ column' rest', skip input ≠ ('(', column') :: rest' := by
    simp [h]
  have first := proposition_of_mark_none h noLetter
  generalize hinner : (group (formulaOf (operand depth))).orElse (operand depth) (skip rest) =
    attempt at inner
  cases inner with
  | found suffix shorter skipped before run =>
      rw [operand_of_negated first (negated_of_eq h hinner)]
      refine .found (suffix_behind h suffix) (length_lt_behind h suffix) skipped
        (.append (.single shorter _) before) ?_
      intro level outer _
      rw [run_of_step .negation h rfl rfl, ← significant_skip rest, run _ outer (.inr noLetter),
        Reader.Level.complete_mark]
      rfl
  | stopped halts blames =>
      have late := length_lt_behind h halts.suffix
      rw [operand_of_none first (negated_of_eq h hinner) (group_of_ne noOpening)]
      refine .stopped (halts.negated h) ?_
      exact halts.blames_append (by simp) (blames.append_before (.single late _))

theorem readsOperand_of_none {depth : Nat} (noLetter : LetterFree input)
    (noNegation : ∀ column rest, skip input ≠ ('~', column) :: rest)
    (noOpening : ∀ column rest, skip input ≠ ('(', column) :: rest) :
    ReadsOperand length input (operand (depth + 1) input) := by
  have halts : Halts length (fun _ => True) input (skip input) [some '(', some '~'] := by
    refine ⟨List.suffix_refl _, fun _ => rfl, by simp, ⟨start, rfl⟩, ?_⟩
    intro level _ outer
    refine run_wanting level outer fun c column rest h => ⟨noLetter c column rest h, ?_, ?_⟩
    · rintro rfl
      exact noNegation column rest h
    · rintro rfl
      exact noOpening column rest h
  rw [operand_of_none (proposition_of_none noLetter noNegation) (negated_of_ne noNegation)
    (group_of_ne noOpening)]
  exact .stopped halts ⟨by simp, by simp⟩

/-- Every operand is read where readers get from its place, if there is enough depth for it. The
first character that is not blank decides which way, and the second one after a negation sign. -/
theorem readsOperand {depth : Nat} (placed : Placed length input) (deep : input.length < depth) :
    ReadsOperand length input (operand depth input) := by
  induction depth generalizing input with
  | zero => omega
  | succ depth ih =>
      have inner {column : Nat} {c : Char} {rest : Input} (h : skip input = (c, column) :: rest)
          (fewer : Input) (suffix : fewer <:+ skip rest) :
          ReadsOperand length fewer (operand depth fewer) := by
        have within := suffix.trans (skip_suffix rest)
        have less := length_lt_of_skip_eq_cons h
        have close := within.length_le
        exact ih (placed.suffix (within.trans (suffix_of_skip_eq_cons h))) (by omega)
      obtain ⟨c, column, rest, h, alphabetic⟩ | noLetter := exists_letter_or_letterFree input
      · refine readsOperand_of_letter h alphabetic ?_
        rintro rfl
        cases alphabetic
      by_cases opens : ∃ column rest, skip input = ('(', column) :: rest
      · obtain ⟨column, rest, h⟩ := opens
        exact readsOperand_of_opening h (readsFormula_of (inner h))
      by_cases negates : ∃ column rest, skip input = ('~', column) :: rest
      · obtain ⟨column, rest, h⟩ := negates
        obtain ⟨c, column', after, h', alphabetic⟩ | noMark :=
          exists_letter_or_letterFree (skip rest)
        · exact readsOperand_of_mark h h' alphabetic
        · refine readsOperand_of_negation h noMark ?_
          refine readsOperand_orElse ?_ ?_ (inner h _ (List.suffix_refl _))
          · exact placed.suffix ((skip_suffix rest).trans (suffix_of_skip_eq_cons h))
          · intro column' rest' h'
            apply readsFormula_of
            intro fewer suffix
            apply inner h fewer
            exact suffix.trans ((skip_suffix rest').trans (suffix_of_skip_eq_cons h'))
      · exact readsOperand_of_none noLetter (fun column rest h => negates ⟨column, rest, h⟩)
          (fun column rest h => opens ⟨column, rest, h⟩)

end Phrases

/-! ### Whole texts -/

theorem placed_zipIdx (text : List Char) : Placed text.length text.zipIdx := by
  constructor
  · rw [List.pairwise_iff_getElem]
    intro i j hi hj lt
    simpa using lt
  · rintro ⟨c, column⟩ member
    have := (List.mem_zipIdx member).2.1
    simpa using this

theorem readChars_of_some {text : List Char} {tree : Tree} {rest : Input} {failures : List Failure}
    (h : whole (text.length + 1) text.zipIdx = ⟨some (tree, rest), failures⟩) :
    readChars text = .ok tree := by
  simp [readChars, h]

/-- If there is no formula, and all failures blame the place where readers halt, the reading stops
there. -/
theorem readChars_of_blames {text : List Char} {rest : Input} {wanted : List (Option Char)}
    {failures : List Failure} (h : whole (text.length + 1) text.zipIdx = ⟨none, failures⟩)
    (suffix : rest <:+ skip text.zipIdx) (known : ∃ reader : Reader, wanted = reader.wanted)
    (blames : Blames failures rest wanted) :
    readChars text = .error (stopAt text.length rest wanted) := by
  obtain ⟨reader, rfl⟩ := known
  have le := (suffix.trans (skip_suffix _)).length_le
  simp only [readChars, h]
  rw [stopOf_eq text.length le blames (wanted_ne_nil reader) (known_wanted reader)]

/-- The parser by ordered choice and the reader of signs give every text the same answer. -/
theorem readChars_eq (text : List Char) : readChars text = Tree.readChars text := by
  have reads : ReadsFormula text.length text.zipIdx
      (formulaOf (operand (text.length + 1)) text.zipIdx) := by
    refine readsFormula_of fun fewer suffix => ?_
    have le := suffix.length_le
    rw [List.length_zipIdx] at le
    exact readsOperand ((placed_zipIdx text).suffix suffix) (Nat.lt_succ_of_le le)
  change readChars text = (wanting .start []).run text.length (significant text.zipIdx)
  generalize hattempt : formulaOf (operand (text.length + 1)) text.zipIdx = attempt at reads
  cases reads with
  | stopped halts blames =>
      rw [halts.run .start rfl []]
      exact readChars_of_blames (whole_of_none hattempt) halts.suffix halts.known blames
  | abandoned goesOn skipped shorter halts blames =>
      rw [halts.run .start rfl []]
      exact readChars_of_blames (whole_of_cons hattempt) halts.suffix halts.known
        (blames.append_before (.single shorter _))
  | @found tree joined rest failures suffix shorter skipped blames ends run =>
      rw [run []]
      cases rest with
      | nil =>
          rw [readChars_of_some (whole_of_nil hattempt)]
          rfl
      | cons entry more =>
          rw [run_having skipped ends (fun _ _ _ => rfl) (by simp)]
          refine readChars_of_blames (whole_of_cons hattempt) suffix ⟨_, rfl⟩ ?_
          refine blames.append (.single _ _) fun x => ?_
          cases joined <;> simp [Reader.wanted, connectives]
          grind

end Sentential.Choice

namespace Sentential.Tree

/-- The parser by ordered choice accepts exactly what the grammar derives. Each derivable text has
one derivation that makes both choices, and every derivation that takes negation signs before
letters for marks has the tree that is read. -/
theorem read_follows_grammar (text : String) :
    Choice.readChars text.toList = readChars text.toList ∧
    ((∃ t, read text = .ok t) ↔ ∃ d : Derivation .formula, d.Of text.toList) ∧
    ∀ d : Derivation .formula, d.Of text.toList →
      (∃! chosen : Derivation .formula, chosen.Of text.toList ∧ chosen.Marking ∧ chosen.Direct) ∧
      (d.Marking → read text = .ok (.formula d.tree)) := by
  refine ⟨Choice.readChars_eq _, ?_, fun d spelled => ⟨?_, fun marking => ?_⟩⟩
  · simp only [read_eq_ok_iff]
    exact readChars_isOk_iff
  · refine ⟨d.normal, ⟨Derivation.of_normal spelled, d.marking_normal, d.direct_normal⟩, ?_⟩
    rintro other ⟨spelled', marking, direct⟩
    exact Derivation.eq_of_of spelled' (Derivation.of_normal spelled) marking direct
      d.marking_normal d.direct_normal
  · exact read_eq_ok_iff.2 (readChars_of_derivation spelled marking)

end Sentential.Tree
