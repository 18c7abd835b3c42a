import Mathlib.Data.List.DropRight
import Sentential.Proofs.Insertions
import Sentential.Valuation.Basic

/-!
# Written assignments are read as they are written

The first equals sign divides a text, and the blanks at the ends of both halves do not count. If a
letter is left of the first half, the second half is its value: a bit, or something else that is
reported with the letter. All other texts are reported whole.

What is accepted is told a second time as a format, without the division and the trimming. The text
of a valuation is such assignments in a row, so cutting it where they meet and reading the pieces
gives the valuation back.
-/

namespace Sentential

variable {text inner front back before after : List Char} {letter : Char}

/-! ### Trimming -/

/-- `inner` is a text without the blanks at its two ends. -/
structure Trims (text inner : List Char) : Prop where
  around : ∃ before after, text = before ++ inner ++ after ∧
    (∀ c ∈ before, isBlank c = true) ∧ ∀ c ∈ after, isBlank c = true
  first : ∀ c, inner.head? = some c → isBlank c = false
  last : ∀ c, inner.getLast? = some c → isBlank c = false

/-- Blanks are dropped as far as they go. -/
theorem dropWhile_isBlank_append (blanks : ∀ c ∈ before, isBlank c = true)
    (stop : ∀ c, inner.head? = some c → isBlank c = false) :
    (before ++ inner).dropWhile isBlank = inner := by
  rw [List.dropWhile_append_of_pos blanks]
  cases inner with
  | nil => rfl
  | cons c rest => rw [List.dropWhile_cons_of_neg (by simp [stop c rfl])]

theorem isBlank_of_head?_dropWhile {c : Char} (h : (text.dropWhile isBlank).head? = some c) :
    isBlank c = false := by
  have stops := List.head?_dropWhile_not isBlank text
  rwa [h] at stops

theorem trims_trimBlanks (text : List Char) : Trims text (trimBlanks text) where
  around := by
    refine ⟨text.takeWhile isBlank, (text.dropWhile isBlank).rtakeWhile isBlank, ?_,
      fun c => List.mem_takeWhile_imp, fun c => List.mem_rtakeWhile_imp⟩
    have back : trimBlanks text ++ (text.dropWhile isBlank).rtakeWhile isBlank =
        text.dropWhile isBlank :=
      List.rdropWhile_append_rtakeWhile
    rw [List.append_assoc, back, List.takeWhile_append_dropWhile]
  first c h := by
    -- what is left begins where the text without its first blanks begins
    have front : trimBlanks text <+: text.dropWhile isBlank := List.rdropWhile_prefix isBlank _
    obtain ⟨rest, begins⟩ := List.head?_eq_some_iff.1 h
    obtain ⟨dropped, whole⟩ := front
    have begins' : (text.dropWhile isBlank).head? = some c := by
      rw [← whole, begins]
      rfl
    exact isBlank_of_head?_dropWhile begins'
  last c h := by
    rw [trimBlanks, List.getLast?_reverse] at h
    exact isBlank_of_head?_dropWhile h

theorem trimBlanks_of_trims (h : Trims text inner) : trimBlanks text = inner := by
  obtain ⟨before, after, rfl, blanksBefore, blanksAfter⟩ := h.around
  cases inner with
  | nil =>
      have blank : ∀ c ∈ before ++ [] ++ after, isBlank c = true := by
        rw [List.append_nil]
        exact fun c mem => (List.mem_append.1 mem).elim (blanksBefore c) (blanksAfter c)
      rw [trimBlanks, List.dropWhile_eq_nil_iff.2 blank]
      rfl
  | cons c rest =>
      have front : (before ++ (c :: rest) ++ after).dropWhile isBlank = c :: rest ++ after := by
        rw [List.append_assoc]
        exact dropWhile_isBlank_append blanksBefore h.first
      have back : (c :: rest ++ after).reverse.dropWhile isBlank = (c :: rest).reverse := by
        rw [List.reverse_append]
        refine dropWhile_isBlank_append (by simpa using blanksAfter) fun d hd => ?_
        rw [List.head?_reverse] at hd
        exact h.last d hd
      rw [trimBlanks, front, back, List.reverse_reverse]

theorem trimBlanks_eq_iff : trimBlanks text = inner ↔ Trims text inner :=
  ⟨fun h => h ▸ trims_trimBlanks text, trimBlanks_of_trims⟩

/-- A character among blanks. -/
theorem Trims.singleton {c : Char} (visible : isBlank c = false)
    (blanksBefore : ∀ c ∈ before, isBlank c = true)
    (blanksAfter : ∀ c ∈ after, isBlank c = true) : Trims (before ++ [c] ++ after) [c] where
  around := ⟨before, after, rfl, blanksBefore, blanksAfter⟩
  first _ h := Option.some.inj h ▸ visible
  last _ h := Option.some.inj h ▸ visible

namespace Assignment

variable {value : List Char} {bit : UInt8} {c : Char} {fault : Fault}

/-! ### Division at the first equals sign -/

/-- The first equals sign of a text stands between two parts of it. -/
structure Divides (text front back : List Char) : Prop where
  whole : text = front ++ '=' :: back
  first : '=' ∉ front

namespace Divides

theorem differs (h : Divides text front back) : ∀ c ∈ front, decide (c ≠ '=') = true :=
  fun _ mem => decide_eq_true fun same => h.first (same ▸ mem)

theorem takeWhile_eq (h : Divides text front back) : text.takeWhile (· ≠ '=') = front := by
  rw [h.whole, List.takeWhile_append_of_pos h.differs, List.takeWhile_cons_of_neg (by simp),
    List.append_nil]

theorem dropWhile_eq (h : Divides text front back) : text.dropWhile (· ≠ '=') = '=' :: back := by
  rw [h.whole, List.dropWhile_append_of_pos h.differs, List.dropWhile_cons_of_neg (by simp)]

end Divides

/-- Up to blanks at their ends, the part of a text before its first equals sign is a letter, and the
part after it is `value`. -/
structure Assigns (text : List Char) (letter : Char) (value : List Char) : Prop where
  divided : ∃ front back, Divides text front back ∧ Trims front [letter] ∧ Trims back value
  alphabetic : isAlphabetic letter = true

/-- What is made of a letter and the text of its value. -/
def judge (letter : Char) (value : List Char) : Except Fault (Char × UInt8) :=
  if value = ['0'] then .ok (letter, 0)
  else if value = ['1'] then .ok (letter, 1)
  else .error (.notBit letter (String.ofList value))

theorem parse_of_assigns {text : String} (h : Assigns text.toList letter value) :
    parse text = judge letter value := by
  obtain ⟨⟨front, back, divides, left, right⟩, alphabetic⟩ := h
  rw [parse, judge]
  simp only [divides.takeWhile_eq, divides.dropWhile_eq, trimBlanks_of_trims left,
    trimBlanks_of_trims right, alphabetic, if_true]
  split
  · rfl
  · rfl
  · next notZero notOne => rw [if_neg notZero, if_neg notOne]

theorem parse_of_not_assigns {text : String}
    (h : ∀ letter value, ¬ Assigns text.toList letter value) :
    parse text = .error (.malformedAssignment text) := by
  by_cases equals : '=' ∈ text.toList
  · obtain ⟨front, back, whole, first⟩ := List.eq_append_cons_of_mem equals
    have divides : Divides text.toList front back := ⟨whole, first⟩
    rw [parse]
    simp only [divides.takeWhile_eq, divides.dropWhile_eq]
    split
    · next written letter divided single =>
      cases divided
      split
      · next alphabetic =>
        have left : Trims front [letter] := trimBlanks_eq_iff.1 single
        exact absurd ⟨⟨front, back, divides, left, trims_trimBlanks back⟩, alphabetic⟩ (h letter _)
      · rfl
    · rfl
  · have undivided : text.toList.dropWhile (· ≠ '=') = [] :=
      List.dropWhile_eq_nil_iff.2 fun c mem => decide_eq_true fun same => equals (same ▸ mem)
    rw [parse]
    simp only [undivided]

/-! ### The format -/

/-- A digit and the truth value it denotes. -/
inductive Bit : Char → UInt8 → Prop
  | zero : Bit '0' 0
  | one : Bit '1' 1

theorem Bit.le_one {digit : Char} (h : Bit digit bit) : bit ≤ 1 := by
  cases h <;> decide

theorem Bit.isBlank_eq_false {digit : Char} (h : Bit digit bit) : isBlank digit = false := by
  cases h <;> rfl

theorem bit_digit (h : bit ≤ 1) : Bit (Valuation.digit bit) bit := by
  rcases eq_zero_or_one h with rfl | rfl
  · exact .zero
  · exact .one

/-- An assignment as it is written: a letter, an equals sign and a digit, with blanks around the
letter and around the digit. -/
inductive Written : List Char → Char → UInt8 → Prop
  | intro {letter digit : Char} {bit : UInt8} {a b c d : List Char}
      (alphabetic : isAlphabetic letter = true) (denotes : Bit digit bit)
      (blanks : ∀ x ∈ a ++ b ++ c ++ d, isBlank x = true) :
      Written (a ++ letter :: b ++ '=' :: c ++ digit :: d) letter bit

/-- The format is a letter to which a digit is assigned. -/
theorem written_iff :
    Written text letter bit ↔ ∃ digit, Bit digit bit ∧ Assigns text letter [digit] := by
  constructor
  · rintro ⟨alphabetic, denotes, blanks⟩
    next digit a b c d =>
    simp only [List.forall_mem_append] at blanks
    obtain ⟨⟨⟨blankA, blankB⟩, blankC⟩, blankD⟩ := blanks
    have noEquals : '=' ∉ a ++ [letter] ++ b := by
      have notBlank : isBlank '=' = false := isBlank_eq_false_of_isMark rfl
      have notAlphabetic : isAlphabetic '=' = false := isAlphabetic_eq_false_of_isMark rfl
      simp only [List.mem_append, List.mem_singleton]
      rintro ((mem | rfl) | mem)
      · exact Bool.noConfusion (notBlank.symm.trans (blankA _ mem))
      · exact Bool.noConfusion (notAlphabetic.symm.trans alphabetic)
      · exact Bool.noConfusion (notBlank.symm.trans (blankB _ mem))
    have left : Trims (a ++ [letter] ++ b) [letter] :=
      .singleton (isBlank_eq_false_of_isAlphabetic alphabetic) blankA blankB
    have right : Trims (c ++ [digit] ++ d) [digit] :=
      .singleton denotes.isBlank_eq_false blankC blankD
    refine ⟨digit, denotes, ⟨⟨_, _, ⟨?_, noEquals⟩, left, right⟩, alphabetic⟩⟩
    simp only [List.append_assoc, List.cons_append, List.nil_append]
  · rintro ⟨digit, denotes, ⟨front, back, divides, left, right⟩, alphabetic⟩
    obtain ⟨a, b, rfl, blankA, blankB⟩ := left.around
    obtain ⟨c, d, rfl, blankC, blankD⟩ := right.around
    have format : text = a ++ letter :: b ++ '=' :: c ++ digit :: d := by
      rw [divides.whole]
      simp only [List.append_assoc, List.cons_append, List.nil_append]
    rw [format]
    refine .intro alphabetic denotes ?_
    simp only [List.forall_mem_append]
    exact ⟨⟨⟨blankA, blankB⟩, blankC⟩, blankD⟩

/-! ### What is accepted and what is reported -/

/-- A letter to which something else than a digit for a truth value is assigned. -/
structure Miswritten (text : List Char) (letter : Char) (value : List Char) : Prop where
  assigns : Assigns text letter value
  notBit : value ≠ ['0'] ∧ value ≠ ['1']

theorem judge_eq_ok_iff :
    judge letter value = .ok (c, bit) ↔ c = letter ∧ ∃ digit, Bit digit bit ∧ value = [digit] := by
  constructor
  · intro h
    rw [judge] at h
    split at h
    · next zero =>
      cases h
      exact ⟨rfl, '0', .zero, zero⟩
    split at h
    · next one =>
      cases h
      exact ⟨rfl, '1', .one, one⟩
    · cases h
  · rintro ⟨rfl, digit, denotes, rfl⟩
    cases denotes <;> rfl

theorem judge_eq_error_iff :
    judge letter value = .error fault ↔
      fault = .notBit letter (String.ofList value) ∧ value ≠ ['0'] ∧ value ≠ ['1'] := by
  rw [judge]
  split
  · simp [*]
  split
  · simp [*]
  · simp [*, eq_comm]

/-- A text is judged by the letter and the value in it, or is malformed. -/
theorem parse_cases (text : String) :
    (∃ letter value, Assigns text.toList letter value ∧ parse text = judge letter value) ∨
      (∀ letter value, ¬ Assigns text.toList letter value) ∧
        parse text = .error (.malformedAssignment text) := by
  by_cases assigns : ∃ letter value, Assigns text.toList letter value
  · obtain ⟨letter, value, assigns⟩ := assigns
    exact .inl ⟨letter, value, assigns, parse_of_assigns assigns⟩
  · simp only [not_exists] at assigns
    exact .inr ⟨assigns, parse_of_not_assigns assigns⟩

theorem parse_eq_ok_iff {text : String} :
    parse text = .ok (letter, bit) ↔ Written text.toList letter bit := by
  rw [written_iff]
  constructor
  · intro h
    obtain ⟨c, value, assigns, judged⟩ | ⟨_, malformed⟩ := parse_cases text
    · obtain ⟨rfl, digit, denotes, rfl⟩ := judge_eq_ok_iff.1 (judged.symm.trans h)
      exact ⟨digit, denotes, assigns⟩
    · cases malformed.symm.trans h
  · rintro ⟨digit, denotes, assigns⟩
    rw [parse_of_assigns assigns]
    exact judge_eq_ok_iff.2 ⟨rfl, digit, denotes, rfl⟩

theorem parse_eq_notBit_iff {text value : String} :
    parse text = .error (.notBit letter value) ↔ Miswritten text.toList letter value.toList := by
  constructor
  · intro h
    obtain ⟨c, written, assigns, judged⟩ | ⟨_, malformed⟩ := parse_cases text
    · obtain ⟨same, notBit⟩ := judge_eq_error_iff.1 (judged.symm.trans h)
      cases same
      rw [String.toList_ofList]
      exact ⟨assigns, notBit⟩
    · cases malformed.symm.trans h
  · rintro ⟨assigns, notBit⟩
    rw [parse_of_assigns assigns]
    exact judge_eq_error_iff.2 ⟨by rw [String.ofList_toList], notBit⟩

/-- A letter to which something is assigned makes an assignment, right or wrong. -/
theorem written_or_miswritten (h : Assigns text letter value) :
    (∃ bit, Written text letter bit) ∨ Miswritten text letter value := by
  by_cases zero : value = ['0']
  · exact .inl ⟨0, written_iff.2 ⟨'0', .zero, zero ▸ h⟩⟩
  by_cases one : value = ['1']
  · exact .inl ⟨1, written_iff.2 ⟨'1', .one, one ▸ h⟩⟩
  · exact .inr ⟨h, zero, one⟩

theorem parse_eq_malformed_iff {text : String} :
    parse text = .error (.malformedAssignment text) ↔
      (∀ letter bit, ¬ Written text.toList letter bit) ∧
        ∀ letter value, ¬ Miswritten text.toList letter value := by
  constructor
  · intro h
    constructor
    · intro letter bit written
      cases (parse_eq_ok_iff.2 written).symm.trans h
    · intro letter value miswritten
      rw [← String.toList_ofList (l := value)] at miswritten
      cases (parse_eq_notBit_iff.2 miswritten).symm.trans h
  · rintro ⟨notWritten, notMiswritten⟩
    refine parse_of_not_assigns fun letter value assigns => ?_
    obtain ⟨bit, written⟩ | miswritten := written_or_miswritten assigns
    · exact notWritten letter bit written
    · exact notMiswritten letter value miswritten

/-- What is read from a text: the assignment written in it, else a report of the letter and of the
value that is not a bit, else a report of the text. -/
structure Judged (text : String) : Prop where
  accepted : ∀ letter bit, parse text = .ok (letter, bit) ↔ Written text.toList letter bit
  refused : ∀ letter value,
    parse text = .error (.notBit letter value) ↔ Miswritten text.toList letter value.toList
  malformed : parse text = .error (.malformedAssignment text) ↔
    (∀ letter bit, ¬ Written text.toList letter bit) ∧
      ∀ letter value, ¬ Miswritten text.toList letter value

end Assignment

/-! ### Reading a valuation back -/

/-- A text cut wherever a comma and a space stand in it. -/
def pieces : List Char → List (List Char)
  | [] => [[]]
  | ',' :: ' ' :: rest => [] :: pieces rest
  | c :: rest => (pieces rest).modifyHead (c :: ·)

theorem pieces_cons_of_ne {c : Char} (h : c ≠ ',') (rest : List Char) :
    pieces (c :: rest) = (pieces rest).modifyHead (c :: ·) := by
  rw [pieces]
  rintro - rfl
  exact absurd rfl h

theorem pieces_of_not_mem (h : ',' ∉ text) : pieces text = [text] := by
  induction text with
  | nil => rfl
  | cons c rest ih =>
      have differs : c ≠ ',' := (List.ne_of_not_mem_cons h).symm
      rw [pieces_cons_of_ne differs, ih (List.not_mem_of_not_mem_cons h)]
      rfl

theorem pieces_append (h : ',' ∉ front) (back : List Char) :
    pieces (front ++ [',', ' '] ++ back) = front :: pieces back := by
  induction front with
  | nil => rfl
  | cons c rest ih =>
      have differs : c ≠ ',' := (List.ne_of_not_mem_cons h).symm
      rw [List.cons_append, List.cons_append, pieces_cons_of_ne differs,
        ih (List.not_mem_of_not_mem_cons h)]
      rfl

/-- Cutting undoes joining with commas and spaces. -/
theorem pieces_intercalate {parts : List (List Char)} (nonempty : parts ≠ [])
    (absent : ∀ part ∈ parts, ',' ∉ part) : pieces ([',', ' '].intercalate parts) = parts := by
  induction parts with
  | nil => exact absurd rfl nonempty
  | cons part rest ih =>
      obtain ⟨first, later⟩ := List.forall_mem_cons.1 absent
      cases rest with
      | nil => rw [List.intercalate_singleton, pieces_of_not_mem first]
      | cons next rest =>
          rw [List.intercalate_cons_cons, pieces_append first, ih (List.cons_ne_nil _ _) later]

namespace Valuation

variable {v : Valuation}

/-- The valuation whose assignments are the pieces of a text. -/
def ofText (text : String) : Except Fault Valuation :=
  ((pieces text.toList).mapM fun piece => Assignment.parse (String.ofList piece)) >>= ofPairs

/-- An entry as an assignment without blanks. -/
theorem parse_entry {bit : UInt8} (alphabetic : isAlphabetic letter = true) (le : bit ≤ 1) :
    Assignment.parse (String.ofList [letter, '=', digit bit]) = .ok (letter, bit) := by
  refine Assignment.parse_eq_ok_iff.2 ?_
  rw [String.toList_ofList]
  exact .intro (a := []) (b := []) (c := []) (d := []) alphabetic (Assignment.bit_digit le) nofun

theorem comma_not_mem_entry {bit : UInt8} (alphabetic : isAlphabetic letter = true) :
    ',' ∉ [letter, '=', digit bit] := by
  have notAlphabetic : isAlphabetic ',' = false := rfl
  have notDigit : ',' ≠ digit bit := by
    rw [digit]
    split <;> decide
  simp only [List.mem_cons, List.not_mem_nil, or_false]
  rintro (rfl | same | same)
  · exact Bool.noConfusion (notAlphabetic.symm.trans alphabetic)
  · exact absurd same (by decide)
  · exact notDigit same

theorem mapM_parse_entries {entries : List (Char × UInt8)}
    (written : ∀ entry ∈ entries, isAlphabetic entry.1 = true ∧ entry.2 ≤ 1) :
    ((entries.map fun entry => [entry.1, '=', digit entry.2]).mapM fun piece =>
      Assignment.parse (String.ofList piece)) = .ok entries := by
  induction entries with
  | nil => rfl
  | cons entry rest ih =>
      obtain ⟨⟨alphabetic, le⟩, later⟩ := List.forall_mem_cons.1 written
      rw [List.map_cons, List.mapM_cons, parse_entry alphabetic le, ih later]
      rfl

theorem ofText_text (assigned : v.isEmpty = false)
    (alphabetic : ∀ c ∈ v.letters, isAlphabetic c = true) : ofText v.text = .ok v := by
  have written : ∀ entry ∈ v.entries, isAlphabetic entry.1 = true ∧ entry.2 ≤ 1 :=
    fun entry mem => ⟨alphabetic _ (List.mem_map_of_mem mem), v.bits entry mem⟩
  have parts : (v.entries.map fun entry => [entry.1, '=', digit entry.2]) ≠ [] := by
    rw [isEmpty, List.isEmpty_eq_false_iff] at assigned
    exact fun none => assigned (List.map_eq_nil_iff.1 none)
  have absent : ∀ part ∈ v.entries.map fun entry => [entry.1, '=', digit entry.2],
      ',' ∉ part :=
    List.forall_mem_map.2 fun entry mem => comma_not_mem_entry (written entry mem).1
  rw [ofText, Valuation.text, String.toList_ofList, chars, pieces_intercalate parts absent,
    mapM_parse_entries written]
  exact ofPairs_entries v

end Valuation

/-- Exactly the written assignments are accepted, every other text is reported for what is wrong
with it, and a valuation whose letters are alphabetic is read back from its text. -/
theorem assignments_are_read_as_written :
    (∀ text, Assignment.Judged text) ∧
    ∀ v : Valuation, v.isEmpty = false → (∀ c ∈ v.letters, isAlphabetic c = true) →
      Valuation.ofText v.text = .ok v := by
  refine ⟨fun text => ⟨?accepted, ?refused, ?malformed⟩, fun v => Valuation.ofText_text⟩
  case accepted => exact fun _ _ => Assignment.parse_eq_ok_iff
  case refused => exact fun _ _ => Assignment.parse_eq_notBit_iff
  case malformed => exact Assignment.parse_eq_malformed_iff

/-- Blanks and letters need not be those of ASCII, and only the first of several equals signs
divides a text. -/
theorem assignments_are_read_as_written_unicode :
    Assignment.parse "\u00A0é\u2003= 1 " = .ok ('é', 1) ∧
    Assignment.Miswritten "p=1=0".toList 'p' "1=0".toList ∧
    (∃ v, v.isEmpty = false ∧ (∀ c ∈ v.letters, isAlphabetic c = true) ∧ v.text = "p=1, λ=0" ∧
      Valuation.ofText "p=1, λ=0" = .ok v) := by
  obtain ⟨judged, back⟩ := assignments_are_read_as_written
  refine ⟨?_, ?_, ?_⟩
  · refine ((judged _).accepted 'é' 1).2 ?_
    exact .intro (a := ['\u00A0']) (b := ['\u2003']) (c := [' ']) (d := [' ']) rfl .one
      (List.all_eq_true.1 rfl)
  · exact ((judged _).refused 'p' "1=0").1 rfl
  · let v := (Valuation.empty.assign 'λ' 0 (by decide)).assign 'p' 1 (by decide)
    have alphabetic : ∀ c ∈ v.letters, isAlphabetic c = true  :=
      List.all_eq_true.1 rfl
    exact ⟨v, rfl, alphabetic, rfl, back v rfl alphabetic⟩

end Sentential
