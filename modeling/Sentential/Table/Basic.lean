import Sentential.Reading.Reader
import Sentential.Record
import Sentential.Table.Findings
import Sentential.Valuation.Numbering

/-!
# Truth tables

The truth table of a text is filled one valuation at a time, and what it has found out is kept: the
scan of the text, its tree, the rows, and the verdict. The letters of a table are those of its text,
whether or not the text is a formula. A row is stored under the key of its valuation limited to
these letters, so valuations that differ in other letters share a row.
-/

namespace Sentential

/-- A row of a truth table: the value of the formula and the entries under its signs. -/
structure Row where
  value : UInt8
  entries : List (Option UInt8)
  deriving DecidableEq, Repr

/-- A row as text. -/
def Row.text (row : Row) : String :=
  Evaluation.rowText row.entries

/-- A truth table in the making. The rows are in the order they were first stored in. -/
structure Table where
  text : String
  tree : Option Tree
  scan : Option Scan
  rows : List (List UInt8 × Row)
  verdict : Option Verdict
  deriving DecidableEq, Repr

namespace Table

/-- The table of a text, before anything is known about it. -/
def ofText (text : String) : Table :=
  ⟨text, none, none, [], none⟩

/-- The scan of the text, made unless it is there already. -/
def currentScan (table : Table) : Scan :=
  table.scan.getD (.ofText table.text)

/-- A table that keeps the scan of its text. -/
def scanned (table : Table) : Table :=
  { table with scan := some table.currentScan }

/-- Whether all rows are there. -/
def isComplete (table : Table) : Bool :=
  table.rows.length = table.currentScan.rowCount

/-- Rows with one stored under `key`, in the place of an earlier one for the same key or at the
end. -/
def storeRow (key : List UInt8) (row : Row) : List (List UInt8 × Row) → List (List UInt8 × Row)
  | [] => [(key, row)]
  | (k, old) :: rest =>
    if k = key then (key, row) :: rest else (k, old) :: storeRow key row rest

theorem lookup_storeRow (key : List UInt8) (row : Row) (rows : List (List UInt8 × Row))
    (k : List UInt8) :
    (storeRow key row rows).lookup k = if k = key then some row else rows.lookup k := by
  induction rows with
  | nil =>
    simp only [storeRow, List.lookup_cons, List.lookup_nil]
    split <;> simp_all
  | cons head rest ih =>
    obtain ⟨l, old⟩ := head
    unfold storeRow
    split
    · next same =>
      subst same
      simp only [List.lookup_cons]
      split <;> simp_all
    · simp only [List.lookup_cons, ih]
      split <;> split <;> simp_all

/-- A table with a row stored. -/
def store (table : Table) (key : List UInt8) (row : Row) : Table :=
  { table with rows := storeRow key row table.rows }

/-- The rows in ascending order of their keys, which is that of counting. -/
def sorted (rows : List (List UInt8 × Row)) : List (List UInt8 × Row) :=
  rows.mergeSort fun a b => (Valuation.compareKeys a.1 b.1).isLE

/-- What an operation on a table leads to. -/
structure Outcome (α : Type) where
  result : Except Fault α
  table : Table
  records : List Record

namespace Outcome

variable {α β : Type}

/-- An answer that leaves the table alone. -/
def answer (table : Table) (result : Except Fault α) : Outcome α :=
  ⟨result, table, []⟩

/-- One operation after the other, if the first one succeeds. -/
def andThen (first : Outcome α) (second : α → Table → Outcome β) : Outcome β :=
  match first.result with
  | .error fault => ⟨.error fault, first.table, first.records⟩
  | .ok a =>
    let rest := second a first.table
    { rest with records := first.records ++ rest.records }

/-- An outcome with its answer changed. -/
def map (f : α → β) (outcome : Outcome α) : Outcome β :=
  ⟨outcome.result.map f, outcome.table, outcome.records⟩

end Outcome

/-- The tree of the text, which is read once. -/
def readTree (table : Table) : Outcome Tree :=
  match table.tree with
  | some tree => .answer table (.ok tree)
  | none =>
    match Tree.read table.text with
    | .error fault => .answer table (.error fault)
    | .ok tree => ⟨.ok tree, { table with tree := some tree }, [.read table.text tree]⟩

/-- The value of the formula under a valuation, whose row is stored. A letter without a value is
reported before the text is read. -/
def evaluate (table : Table) (v : Valuation) : Outcome UInt8 :=
  match v.restrict table.currentScan.letters with
  | .error fault => .answer table.scanned (.error fault)
  | .ok restricted =>
    table.scanned.readTree.andThen fun tree next =>
      match tree.evaluate v table.text.length with
      | .error fault => .answer next (.error fault)
      | .ok evaluation =>
        ⟨.ok evaluation.value,
          next.store restricted.key ⟨evaluation.value, evaluation.entries⟩,
          [.evaluated v evaluation.value]⟩

/-- The stored value for a valuation, if its row is there. -/
def get (table : Table) (v : Valuation) : Outcome (Option UInt8) :=
  .answer table.scanned
    (match v.restrict table.currentScan.letters with
    | .error fault => .error fault
    | .ok restricted => .ok ((table.rows.lookup restricted.key).map Row.value))

/-- The evaluation of `count` valuations of some letters, numbered from `index` on. -/
def fill (letters : List Char) (count index : Nat) (table : Table) : Outcome Unit :=
  match count with
  | 0 => .answer table (.ok ())
  | count + 1 =>
    (table.evaluate (Valuation.numbered letters index)).andThen fun _ next =>
      next.fill letters count (index + 1)

/-- A table with all its rows. -/
def complete (table : Table) : Outcome Unit :=
  if table.isComplete then .answer table.scanned (.ok ())
  else
    let scan := table.currentScan
    let filled := table.scanned.fill scan.letters.toList scan.rowCount 0
    { filled with records := .constructing scan.rowCount table.text :: filled.records }

/-- The verdict that the rows of a full table give, and the rows put in order. -/
def classify (table : Table) : Outcome Verdict :=
  let rows := sorted table.rows
  let verdict := Verdict.ofValues (rows.map fun entry => entry.2.value)
  ⟨.ok verdict, { table with rows := rows, verdict := some verdict },
    [.classified table.text verdict]⟩

/-- The verdict on the formula, found once. -/
def construct (table : Table) : Outcome Verdict :=
  match table.verdict with
  | some verdict => .answer table (.ok verdict)
  | none => table.complete.andThen fun _ full => full.classify

/-- The text and under it the rows, one a line. -/
def render (table : Table) : Outcome String :=
  table.construct.andThen fun _ full =>
    .answer full (.ok ("\n".intercalate
      (full.text :: full.rows.map fun entry => entry.2.text)))

end Table

end Sentential
