import Sentential.Reading.Grammar
import Sentential.Reading.Reader
import Sentential.Text.Classes

/-!
# Readers follow the grammar

A reader accepts a text exactly if the grammar derives it, and ends with the tree of a marking
derivation. One direction feeds the signs of a derivation to a reader, by induction on the
derivation: from any state that wants an operand, an operand leads to the state that has its tree.
The other direction finds the operand that an accepting run begins with, by induction on the number
of signs.
-/

namespace Sentential

namespace Sign

theorem writtenAs_of_ofChar? {c : Char} {sign : Sign} (h : ofChar? c = some sign) :
    sign.WrittenAs c := by
  unfold ofChar? at h
  split at h
  · next hc => cases h; exact hc
  split at h
  · next hc => cases h; exact hc
  split at h
  · next hc => cases h; exact hc
  split at h
  · next k hk =>
    cases h
    exact (Connective.symbol_of_ofChar? hk).symm
  split at h
  · next hc =>
    cases h
    exact ⟨rfl, hc⟩
  · cases h

/-- Letters are none of the seven other signs, so every character is read in one way. -/
theorem ofChar?_of_writtenAs {c : Char} {sign : Sign} (h : sign.WrittenAs c) :
    ofChar? c = some sign := by
  cases sign with
  | letter d =>
      obtain ⟨rfl, hc⟩ := h
      have notMark : isMark c = false := by
        cases hm : isMark c with
        | false => rfl
        | true => exact absurd hc (by simp [isAlphabetic_eq_false_of_isMark hm])
      simp only [isMark, List.mem_cons, List.not_mem_nil, or_false, decide_eq_false_iff_not,
        not_or] at notMark
      obtain ⟨h1, h2, h3, h4, h5, h6, h7⟩ := notMark
      simp [ofChar?, Connective.ofChar?, h1, h2, h3, h4, h5, h6, h7, hc]
  | connective k =>
      have hc : c = k.symbol := h
      subst hc
      cases k <;> rfl
  | negation => cases h; rfl
  | opening => cases h; rfl
  | closing => cases h; rfl

theorem isBlank_eq_false_of_writtenAs {c : Char} {sign : Sign} (h : sign.WrittenAs c) :
    isBlank c = false := by
  cases sign with
  | letter d =>
      obtain ⟨rfl, alphabetic⟩ := h
      exact isBlank_eq_false_of_isAlphabetic alphabetic
  | connective k =>
      cases h
      cases k <;> rfl
  | negation | opening | closing =>
      cases h
      rfl

end Sign

namespace Spells

variable {column : Nat} {c : Char} {text : List Char} {signs : List (Sign × Nat)}

theorem nil_iff : Spells column [] signs ↔ signs = [] := by
  constructor
  · intro h
    cases h
    rfl
  · rintro rfl
    exact .nil column

theorem cons_iff_of_blank (h : isBlank c = true) :
    Spells column (c :: text) signs ↔ Spells (column + 1) text signs := by
  constructor
  · intro hs
    cases hs with
    | blank _ rest => exact rest
    | sign written _ => simp [Sign.isBlank_eq_false_of_writtenAs written] at h
  · exact .blank h

theorem cons_iff_of_not_blank (h : isBlank c = false) :
    Spells column (c :: text) signs ↔ ∃ sign rest, Sign.ofChar? c = some sign ∧
      signs = (sign, column) :: rest ∧ Spells (column + 1) text rest := by
  constructor
  · intro hs
    cases hs with
    | blank hb => simp [h] at hb
    | sign written rest => exact ⟨_, _, Sign.ofChar?_of_writtenAs written, rfl, rest⟩
  · rintro ⟨sign, rest, read, rfl, hs⟩
    exact .sign (Sign.writtenAs_of_ofChar? read) hs

/-- A text is read in one way. -/
theorem unique {signs' : List (Sign × Nat)} (h : Spells column text signs)
    (h' : Spells column text signs') : signs = signs' := by
  induction text generalizing column signs signs' with
  | nil => rw [nil_iff.1 h, nil_iff.1 h']
  | cons c text ih =>
      cases hb : isBlank c with
      | true => exact ih ((cons_iff_of_blank hb).1 h) ((cons_iff_of_blank hb).1 h')
      | false =>
          obtain ⟨sign, rest, hsign, rfl, hrest⟩ := (cons_iff_of_not_blank hb).1 h
          obtain ⟨sign', rest', hsign', rfl, hrest'⟩ := (cons_iff_of_not_blank hb).1 h'
          rw [hsign, Option.some.injEq] at hsign'
          rw [hsign', ih hrest hrest']

end Spells

namespace Reader

/-- The state after several signs, if they can all come next. -/
def feed (reader : Reader) : List (Sign × Nat) → Option Reader
  | [] => some reader
  | (sign, column) :: rest => (reader.step sign column).bind fun next => next.feed rest

@[simp] theorem feed_nil (reader : Reader) : reader.feed [] = some reader := rfl

theorem feed_cons (reader : Reader) (sign : Sign) (column : Nat) (rest : List (Sign × Nat)) :
    reader.feed ((sign, column) :: rest) =
      (reader.step sign column).bind fun next => next.feed rest := rfl

theorem feed_cons_of_step {reader next : Reader} {sign : Sign} {column : Nat}
    (h : reader.step sign column = some next) (rest : List (Sign × Nat)) :
    reader.feed ((sign, column) :: rest) = next.feed rest := by
  rw [feed_cons, h, Option.bind_some]

theorem step_closing (tree : Tree) (joined : Bool) (level : Level) (outer : List Level)
    (column : Nat) :
    (having tree joined (level :: outer)).step .closing column =
      some (having (level.complete (grouped tree)) level.isJoined outer) := by
  cases joined <;> rfl

/-- A run accepts a text if the text spells signs that lead to the end of a formula. -/
theorem run_eq_ok_iff {length column : Nat} {reader : Reader} {text : List Char} {tree : Tree} :
    reader.run length ((text.zipIdx column).filter fun entry => !isBlank entry.1) = .ok tree ↔
      ∃ signs final, Spells column text signs ∧ reader.feed signs = some final ∧
        final.finish? = some tree := by
  induction text generalizing reader column with
  | nil =>
      simp only [List.zipIdx_nil, List.filter_nil, run, Spells.nil_iff, exists_and_left,
        exists_eq_left, feed_nil, Option.some.injEq]
      split
      · next found hfound => simp [hfound]
      · next none => simp [none]
  | cons c text ih =>
      rw [List.zipIdx_cons]
      cases hb : isBlank c with
      | true => simpa [hb, Spells.cons_iff_of_blank hb] using ih
      | false =>
          simp only [hb, List.filter_cons, Bool.not_false, if_true, run,
            Spells.cons_iff_of_not_blank hb]
          constructor
          · intro h
            split at h
            · next next hnext =>
              obtain ⟨sign, hsign, hstep⟩ := Option.bind_eq_some_iff.1 hnext
              obtain ⟨signs, final, hs, hf, ht⟩ := ih.1 h
              exact ⟨(sign, column) :: signs, final, ⟨sign, signs, hsign, rfl, hs⟩,
                (feed_cons_of_step hstep signs).trans hf, ht⟩
            · cases h
          · rintro ⟨_, final, ⟨sign, signs, hsign, rfl, hs⟩, hf, ht⟩
            rw [feed_cons] at hf
            obtain ⟨next, hstep, hrest⟩ := Option.bind_eq_some_iff.1 hf
            have hnext : ((Sign.ofChar? c).bind fun sign => reader.step sign column) =
                some next := by
              rw [hsign, Option.bind_some, hstep]
            simp only [hnext]
            exact ih.2 ⟨signs, final, hs, hrest, ht⟩

end Reader

/-! ### From a derivation to a run -/

namespace Reader.Level

theorem complete_mark (level : Level) (sign : Token) (operand : Tree) :
    (level.mark sign).complete operand = level.complete (.negated sign operand) := rfl

theorem completeLetter_of_marks_eq_nil {level : Level} (h : level.marks = []) (letter : Token) :
    level.completeLetter letter = level.complete (.proposition none letter) := by
  simp only [completeLetter, h]

theorem completeLetter_mark (level : Level) (sign letter : Token) :
    (level.mark sign).completeLetter letter =
      level.complete (.proposition (some sign) letter) := rfl

end Reader.Level

namespace Derivation

variable {phrase : Phrase}

/-- Whether a formula has a connective outside all parentheses. -/
def isJoined : Derivation .formula → Bool
  | joined _ _ _ _ => true
  | single _ => false

/-- The signs of a derivation lead every reader that wants its phrase to the state that has its
tree. A letter leaves the negation sign before it to the reader, so an operand that starts with one
must not stand behind a negation sign. -/
def Leads : {phrase : Phrase} → Derivation phrase → Prop
  | .formula, d => ∀ outer rest, (Reader.wanting .start outer).feed (d.signs ++ rest) =
      (Reader.having d.tree d.isJoined outer).feed rest
  | .operand, d | .group, d | .proposition, d =>
    ∀ level outer rest, level.marks = [] ∨ Sign.letterFirst d.signs = false →
      (Reader.wanting level outer).feed (d.signs ++ rest) =
        (Reader.having (level.complete d.tree) level.isJoined outer).feed rest

theorem signs_ne_nil (d : Derivation phrase) : d.signs ≠ [] := by
  induction d <;> simp_all [signs]

theorem letterFirst_append (d : Derivation phrase) (rest : List (Sign × Nat)) :
    Sign.letterFirst (d.signs ++ rest) = Sign.letterFirst d.signs := by
  cases hd : d.signs with
  | nil => exact absurd hd d.signs_ne_nil
  | cons first more =>
      obtain ⟨sign, column⟩ := first
      cases sign <;> rfl

theorem openingFirst_append (d : Derivation phrase) (rest : List (Sign × Nat)) :
    Sign.openingFirst (d.signs ++ rest) = Sign.openingFirst d.signs := by
  cases hd : d.signs with
  | nil => exact absurd hd d.signs_ne_nil
  | cons first more =>
      obtain ⟨sign, column⟩ := first
      cases sign <;> rfl

theorem letterFirst_group (d : Derivation .group) : Sign.letterFirst d.signs = false := by
  cases d
  rfl

theorem tree_enclosed (first : Nat) (inner : Derivation .formula) (last : Nat) :
    (enclosed first inner last).tree = Reader.grouped inner.tree := rfl

theorem leads (d : Derivation phrase) (h : d.Marking) : d.Leads := by
  induction d with
  | joined left k column right ihl ihr =>
      intro outer rest
      have toLeft := ihl h.1 .start outer ((.connective k, column) :: (right.signs ++ rest))
        (.inl rfl)
      have toRight := ihr h.2 (.after left.tree ⟨.connective k, column⟩) outer rest (.inl rfl)
      rw [signs, List.append_assoc, List.cons_append, toLeft, Reader.feed_cons_of_step rfl]
      exact toRight
  | single operand ih => exact fun outer rest => ih h .start outer rest (.inl rfl)
  | plain inner ih => exact ih h
  | negatedGroup mark inner ih =>
      intro level outer rest _
      rw [signs, List.cons_append, Reader.feed_cons_of_step rfl,
        ih h _ outer rest (.inr inner.letterFirst_group), Reader.Level.complete_mark]
      rfl
  | negatedOperand mark inner ih =>
      intro level outer rest _
      rw [signs, List.cons_append, Reader.feed_cons_of_step rfl, ih h.2 _ outer rest (.inr h.1),
        Reader.Level.complete_mark]
      rfl
  | grouped inner ih => exact ih h
  | enclosed first inner last ih =>
      intro level outer rest _
      rw [signs, List.cons_append, List.append_assoc, Reader.feed_cons_of_step rfl,
        ih h (level :: outer), List.singleton_append,
        Reader.feed_cons_of_step (Reader.step_closing _ _ _ _ _), tree_enclosed]
  | letter c column =>
      intro level outer rest noMark
      rcases noMark with none | notLetter
      · rw [signs, List.singleton_append, Reader.feed_cons_of_step rfl,
          Reader.Level.completeLetter_of_marks_eq_nil none]
        rfl
      · cases notLetter
  | markedLetter mark c column =>
      intro level outer rest _
      rw [signs, List.cons_append, Reader.feed_cons_of_step rfl, List.singleton_append,
        Reader.feed_cons_of_step rfl, Reader.Level.completeLetter_mark]
      rfl

end Derivation

/-! ### From a run to a derivation -/

namespace Reader

/-- Whoever reads the signs to the end of a formula, wanting an operand first, reads an operand
first. -/
def FindsOperand (signs : List (Sign × Nat)) : Prop :=
  ∀ level outer final, (wanting level outer).feed signs = some final → final.finish?.isSome →
    level.marks = [] ∨ Sign.letterFirst signs = false →
    ∃ (d : Derivation .operand) (rest : List (Sign × Nat)), d.Marking ∧ signs = d.signs ++ rest ∧
      (having (level.complete d.tree) level.isJoined outer).feed rest = some final

/-- Whoever reads the signs to the end of a formula, at the start of a level, reads a formula first,
and all that this level has. -/
def FindsFormula (signs : List (Sign × Nat)) : Prop :=
  ∀ outer final, (wanting .start outer).feed signs = some final → final.finish?.isSome →
    ∃ (d : Derivation .formula) (rest : List (Sign × Nat)), d.Marking ∧ signs = d.signs ++ rest ∧
      (having d.tree d.isJoined outer).feed rest = some final ∧
      (rest = [] ∨ ∃ column more, rest = (.closing, column) :: more)

/-- After two operands and their connective, only the end of the level can come. -/
theorem ends_of_feed_joined {tree : Tree} {outer : List Level} {rest : List (Sign × Nat)}
    {final : Reader} (h : (having tree true outer).feed rest = some final) :
    rest = [] ∨ ∃ column more, rest = (.closing, column) :: more := by
  cases rest with
  | nil => exact .inl rfl
  | cons entry more =>
      obtain ⟨sign, column⟩ := entry
      cases sign with
      | closing => exact .inr ⟨column, more, rfl⟩
      | letter | negation | connective | opening => simp [feed_cons, step] at h

theorem findsFormula_of {signs : List (Sign × Nat)}
    (operands : ∀ fewer : List (Sign × Nat), fewer.length ≤ signs.length → FindsOperand fewer) :
    FindsFormula signs := by
  intro outer final accepted finished
  obtain ⟨left, rest, hleft, rfl, toRest⟩ :=
    operands signs (Nat.le_refl _) .start outer final accepted finished (.inl rfl)
  have alone (ends : rest = [] ∨ ∃ column more, rest = (.closing, column) :: more) :
      ∃ (d : Derivation .formula) (rest' : List (Sign × Nat)), d.Marking ∧
        left.signs ++ rest = d.signs ++ rest' ∧
        (having d.tree d.isJoined outer).feed rest' = some final ∧
        (rest' = [] ∨ ∃ column more, rest' = (.closing, column) :: more) :=
    ⟨.single left, rest, hleft, rfl, toRest, ends⟩
  cases rest with
  | nil => exact alone (.inl rfl)
  | cons entry more =>
      obtain ⟨sign, column⟩ := entry
      cases sign with
      | closing => exact alone (.inr ⟨column, more, rfl⟩)
      | letter | negation | opening => simp [feed_cons, step, Level.start, Level.isJoined] at toRest
      | connective k =>
          rw [feed_cons_of_step rfl] at toRest
          obtain ⟨right, last, hright, rfl, toLast⟩ :=
            operands more (by simp; omega) _ _ _ toRest finished (.inl rfl)
          exact ⟨.joined left k column right, last, ⟨hleft, hright⟩,
            by rw [Derivation.signs, List.append_assoc, List.cons_append], toLast,
            ends_of_feed_joined toLast⟩

/-- An operand is found by its first sign: a letter, a negation sign with the letter or the operand
after it, or a parenthesis. -/
theorem findsOperand (signs : List (Sign × Nat)) : FindsOperand signs := by
  generalize hn : signs.length = n
  induction n using Nat.strongRecOn generalizing signs with
  | ind n ih =>
      intro level outer final accepted finished fits
      cases signs with
      | nil =>
          cases accepted
          cases finished
      | cons entry rest =>
          obtain ⟨sign, column⟩ := entry
          have shorter (fewer : List (Sign × Nat)) (h : fewer.length ≤ rest.length) :
              FindsOperand fewer :=
            ih fewer.length (by rw [← hn, List.length_cons]; omega) fewer rfl
          cases sign with
          | letter c =>
              have noMark : level.marks = [] := by simpa [Sign.letterFirst] using fits
              rw [feed_cons_of_step rfl, Level.completeLetter_of_marks_eq_nil noMark] at accepted
              exact ⟨.plain (.letter c column), rest, trivial, rfl, accepted⟩
          | negation =>
              rw [feed_cons_of_step rfl] at accepted
              cases hfirst : Sign.letterFirst rest with
              | true =>
                  obtain ⟨c, column', more, rfl⟩ : ∃ c column' more,
                      rest = (.letter c, column') :: more := by
                    unfold Sign.letterFirst at hfirst
                    split at hfirst
                    · exact ⟨_, _, _, rfl⟩
                    · cases hfirst
                  rw [feed_cons_of_step rfl, Level.completeLetter_mark] at accepted
                  exact ⟨.plain (.markedLetter column c column'), more, trivial, rfl, accepted⟩
              | false =>
                  obtain ⟨inner, more, hinner, rfl, toMore⟩ :=
                    shorter rest (Nat.le_refl _) _ _ _ accepted finished (.inr hfirst)
                  rw [inner.letterFirst_append] at hfirst
                  exact ⟨.negatedOperand column inner, more, ⟨hfirst, hinner⟩, rfl, toMore⟩
          | opening =>
              rw [feed_cons_of_step rfl] at accepted
              obtain ⟨inner, more, hinner, rfl, toMore, ends⟩ :=
                findsFormula_of shorter _ _ accepted finished
              rcases ends with rfl | ⟨last, more, rfl⟩
              · cases toMore
                cases finished
              · rw [feed_cons_of_step (step_closing _ _ _ _ _)] at toMore
                exact ⟨.grouped (.enclosed column inner last), more, hinner,
                  by simp [Derivation.signs], toMore⟩
          | connective | closing => simp [feed_cons, step] at accepted

end Reader

/-! ### The choices of a derivation -/

namespace Derivation

variable {phrase : Phrase}

/-- A derivation of the same signs that takes every negation sign before a letter for a mark, and
no detour to a group. -/
def normal {phrase : Phrase} : Derivation phrase → Derivation phrase
  | joined left k column right => joined left.normal k column right.normal
  | single operand => single operand.normal
  | plain inner => plain inner.normal
  | negatedGroup mark inner => negatedGroup mark inner.normal
  | negatedOperand mark inner =>
    match inner.normal with
    | plain (letter c column) => plain (markedLetter mark c column)
    | grouped group => negatedGroup mark group
    | other => negatedOperand mark other
  | grouped inner => grouped inner.normal
  | enclosed first inner last => enclosed first inner.normal last
  | letter c column => letter c column
  | markedLetter mark c column => markedLetter mark c column

theorem signs_normal (d : Derivation phrase) : d.normal.signs = d.signs := by
  induction d with
  | negatedOperand mark inner ih =>
      rw [normal, signs, ← ih]
      split <;> simp [signs, *]
  | _ => simp_all [normal, signs]

theorem marking_normal (d : Derivation phrase) : d.normal.Marking := by
  induction d with
  | negatedOperand mark inner ih =>
      rw [normal]
      split
      · trivial
      · next group hgroup =>
        rw [hgroup] at ih
        exact ih
      · next noLetter _ =>
        refine ⟨?_, ih⟩
        cases hn : inner.normal with
        | plain proposition =>
            cases proposition with
            | letter c column => exact absurd hn (noLetter c column)
            | markedLetter => rfl
        | negatedGroup | negatedOperand => rfl
        | grouped group => exact letterFirst_group group
  | joined left k column right ihl ihr => exact ⟨ihl, ihr⟩
  | letter | markedLetter => trivial
  | single _ ih | plain _ ih | negatedGroup _ _ ih | grouped _ ih | enclosed _ _ _ ih => exact ih

theorem direct_normal (d : Derivation phrase) : d.normal.Direct := by
  induction d with
  | negatedOperand mark inner ih =>
      rw [normal]
      split
      · trivial
      · next group hgroup =>
        rw [hgroup] at ih
        exact ih
      · next _ noGroup =>
        refine ⟨?_, ih⟩
        cases hn : inner.normal with
        | plain proposition => cases proposition <;> rfl
        | negatedGroup | negatedOperand => rfl
        | grouped group => exact absurd hn (noGroup group)
  | joined left k column right ihl ihr => exact ⟨ihl, ihr⟩
  | letter | markedLetter => trivial
  | single _ ih | plain _ ih | negatedGroup _ _ ih | grouped _ ih | enclosed _ _ _ ih => exact ih

/-- The ways in which an operand can begin. -/
inductive Alternative
  | letter
  | markedLetter
  | negatedGroup
  | negatedOperand
  | grouped

/-- The alternative that a derivation of an operand takes. -/
def alternative : Derivation .operand → Alternative
  | plain (letter _ _) => .letter
  | plain (markedLetter _ _ _) => .markedLetter
  | negatedGroup _ _ => .negatedGroup
  | negatedOperand _ _ => .negatedOperand
  | grouped _ => .grouped

/-- The alternative that the first two signs ask for. -/
def Alternative.ofSigns : List (Sign × Nat) → Alternative
  | (.negation, _) :: rest =>
    if Sign.letterFirst rest then markedLetter
    else if Sign.openingFirst rest then negatedGroup
    else negatedOperand
  | rest => if Sign.letterFirst rest then letter else grouped

theorem ofSigns_append (d : Derivation .operand) (marking : d.Marking) (direct : d.Direct)
    (rest : List (Sign × Nat)) : Alternative.ofSigns (d.signs ++ rest) = d.alternative := by
  cases d with
  | plain inner => cases inner <;> rfl
  | negatedGroup mark inner => cases inner; rfl
  | negatedOperand mark inner =>
      rw [signs, List.cons_append, Alternative.ofSigns, letterFirst_append, openingFirst_append,
        marking.1, direct.1]
      rfl
  | grouped inner => cases inner; rfl

/-- Whether a phrase of this sort ends before the given signs: only a formula of one operand could
go on, with a connective. -/
def Closed : Phrase → List (Sign × Nat) → Prop
  | .formula, rest => ∀ k column more, rest ≠ (.connective k, column) :: more
  | _, _ => True

/-- Two derivations that make the same choices and begin the same signs are one. -/
theorem eq_of_signs_append_eq {d d' : Derivation phrase} {rest rest' : List (Sign × Nat)}
    (marking : d.Marking) (direct : d.Direct) (marking' : d'.Marking) (direct' : d'.Direct)
    (closed : Closed phrase rest) (closed' : Closed phrase rest')
    (h : d.signs ++ rest = d'.signs ++ rest') : d = d' ∧ rest = rest' := by
  have same {a b : Derivation .operand} {after after' : List (Sign × Nat)} (ma : a.Marking)
      (da : a.Direct) (mb : b.Marking) (db : b.Direct)
      (hab : a.signs ++ after = b.signs ++ after') :
      a.alternative = b.alternative := by
    rw [← ofSigns_append a ma da after, hab, ofSigns_append b mb db after']
  induction d generalizing rest rest' with
  | joined left k column right ihl ihr =>
      cases d' with
      | joined left' k' column' right' =>
          simp only [signs, List.append_assoc, List.cons_append] at h
          obtain ⟨rfl, hk⟩ := ihl marking.1 direct.1 marking'.1 direct'.1 trivial trivial h
          simp only [List.cons.injEq, Prod.mk.injEq, Sign.connective.injEq] at hk
          obtain ⟨⟨rfl, rfl⟩, hright⟩ := hk
          obtain ⟨rfl, rfl⟩ := ihr marking.2 direct.2 marking'.2 direct'.2 trivial trivial hright
          exact ⟨rfl, rfl⟩
      | single operand' =>
          simp only [signs, List.append_assoc, List.cons_append] at h
          obtain ⟨-, hk⟩ := ihl marking.1 direct.1 marking' direct' trivial trivial h
          exact absurd hk.symm (closed' _ _ _)
  | single operand ih =>
      cases d' with
      | joined left' k' column' right' =>
          simp only [signs, List.append_assoc, List.cons_append] at h
          obtain ⟨-, hk⟩ := ih marking direct marking'.1 direct'.1 trivial trivial h
          exact absurd hk (closed _ _ _)
      | single operand' =>
          obtain ⟨rfl, rfl⟩ := ih marking direct marking' direct' trivial trivial h
          exact ⟨rfl, rfl⟩
  | plain inner ih =>
      have alike := same marking direct marking' direct' h
      cases d' with
      | plain inner' =>
          obtain ⟨rfl, rfl⟩ := ih marking direct marking' direct' trivial trivial h
          exact ⟨rfl, rfl⟩
      | negatedGroup | negatedOperand | grouped => cases inner <;> cases alike
  | negatedGroup mark inner ih =>
      have alike := same marking direct marking' direct' h
      cases d' with
      | negatedGroup mark' inner' =>
          simp only [signs, List.cons_append, List.cons.injEq, Prod.mk.injEq, true_and] at h
          obtain ⟨rfl, hinner⟩ := h
          obtain ⟨rfl, rfl⟩ := ih marking direct marking' direct' trivial trivial hinner
          exact ⟨rfl, rfl⟩
      | plain inner' => cases inner' <;> cases alike
      | negatedOperand | grouped => cases alike
  | negatedOperand mark inner ih =>
      have alike := same marking direct marking' direct' h
      cases d' with
      | negatedOperand mark' inner' =>
          simp only [signs, List.cons_append, List.cons.injEq, Prod.mk.injEq, true_and] at h
          obtain ⟨rfl, hinner⟩ := h
          obtain ⟨rfl, rfl⟩ := ih marking.2 direct.2 marking'.2 direct'.2 trivial trivial hinner
          exact ⟨rfl, rfl⟩
      | plain inner' => cases inner' <;> cases alike
      | negatedGroup | grouped => cases alike
  | grouped inner ih =>
      have alike := same marking direct marking' direct' h
      cases d' with
      | grouped inner' =>
          obtain ⟨rfl, rfl⟩ := ih marking direct marking' direct' trivial trivial h
          exact ⟨rfl, rfl⟩
      | plain inner' => cases inner' <;> cases alike
      | negatedGroup | negatedOperand => cases alike
  | enclosed first inner last ih =>
      cases d' with
      | enclosed first' inner' last' =>
          simp only [signs, List.cons_append, List.append_assoc, List.cons.injEq, Prod.mk.injEq,
            true_and, List.nil_append] at h
          obtain ⟨rfl, hinner⟩ := h
          obtain ⟨rfl, ends⟩ := ih marking direct marking' direct' (by simp [Closed])
            (by simp [Closed]) hinner
          simp only [List.cons.injEq, Prod.mk.injEq, true_and] at ends
          obtain ⟨rfl, rfl⟩ := ends
          exact ⟨rfl, rfl⟩
  | letter c column =>
      cases d' with
      | letter =>
          simp only [signs, List.cons_append, List.nil_append, List.cons.injEq, Prod.mk.injEq,
            Sign.letter.injEq] at h
          obtain ⟨⟨rfl, rfl⟩, rfl⟩ := h
          exact ⟨rfl, rfl⟩
      | markedLetter => simp [signs] at h
  | markedLetter mark c column =>
      cases d' with
      | letter => simp [signs] at h
      | markedLetter =>
          simp only [signs, List.cons_append, List.nil_append, List.cons.injEq, Prod.mk.injEq,
            Sign.letter.injEq, true_and] at h
          obtain ⟨rfl, ⟨rfl, rfl⟩, rfl⟩ := h
          exact ⟨rfl, rfl⟩

/-- A text has at most one derivation that makes all choices. -/
theorem eq_of_of {d d' : Derivation .formula} {text : List Char} (h : d.Of text) (h' : d'.Of text)
    (marking : d.Marking) (direct : d.Direct) (marking' : d'.Marking) (direct' : d'.Direct) :
    d = d' := by
  have same : d.signs ++ [] = d'.signs ++ [] := by rw [Spells.unique h h']
  exact (eq_of_signs_append_eq marking direct marking' direct' (by simp [Closed]) (by simp [Closed])
    same).1

theorem of_normal {d : Derivation .formula} {text : List Char} (h : d.Of text) :
    d.normal.Of text := by
  rw [Of, signs_normal]
  exact h

end Derivation

/-! ### Whole texts -/

namespace Tree

theorem readChars_of_derivation {d : Derivation .formula} {text : List Char} (h : d.Of text)
    (marking : d.Marking) : readChars text = .ok (.formula d.tree) := by
  have arrives := d.leads marking [] []
  rw [List.append_nil] at arrives
  exact Reader.run_eq_ok_iff.2 ⟨d.signs, _, h, arrives, rfl⟩

theorem exists_derivation_of_readChars {text : List Char} {t : Tree} (h : readChars text = .ok t) :
    ∃ d : Derivation .formula, d.Of text ∧ d.Marking ∧ t = .formula d.tree := by
  obtain ⟨signs, final, spelled, accepted, finished⟩ := Reader.run_eq_ok_iff.1 h
  obtain ⟨d, rest, marking, rfl, toRest, ends⟩ :=
    Reader.findsFormula_of (fun fewer _ => Reader.findsOperand fewer) _ _ accepted
      (by rw [finished]; rfl)
  rcases ends with rfl | ⟨column, more, rfl⟩
  · rw [Reader.feed_nil, Option.some.injEq] at toRest
    rw [← toRest, Reader.finish?, Option.some.injEq] at finished
    exact ⟨d, by rwa [List.append_nil] at spelled, marking, finished.symm⟩
  · have stuck : (Reader.having d.tree d.isJoined []).step .closing column = none := by
      cases d.isJoined <;> rfl
    rw [Reader.feed_cons, stuck] at toRest
    cases toRest

/-- A text is read exactly if it has a derivation. -/
theorem readChars_isOk_iff {text : List Char} :
    (∃ t, readChars text = .ok t) ↔ ∃ d : Derivation .formula, d.Of text := by
  constructor
  · rintro ⟨t, h⟩
    obtain ⟨d, spelled, -, -⟩ := exists_derivation_of_readChars h
    exact ⟨d, spelled⟩
  · rintro ⟨d, spelled⟩
    exact ⟨_, readChars_of_derivation (Derivation.of_normal spelled) d.marking_normal⟩

theorem read_eq_ok_iff {text : String} {t : Tree} :
    read text = .ok t ↔ readChars text.toList = .ok t := by
  rw [read]
  cases readChars text.toList <;> simp

end Tree

end Sentential
