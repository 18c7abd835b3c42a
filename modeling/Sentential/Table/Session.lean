import Sentential.Table.Basic

/-!
# Sessions with a table

Everything that can be asked of a table is a request, and a session is a list of requests that are
put to one table in turn. A failing request does not end a session.
-/

namespace Sentential.Table

/-- What can be asked of a table. -/
inductive Request
  | text
  | tree
  | dimensions
  | letters
  | columnCount
  | isComplete
  | evaluate (v : Valuation)
  | get (v : Valuation)
  | construct
  | isTautology
  | isContradiction
  | isContingency
  | rows
  | render
  deriving DecidableEq, Repr

/-- What a table answers. -/
inductive Reply
  | text (text : String)
  | tree (tree : Tree)
  | dimensions (rows columns : Nat)
  | letters (letters : Letters)
  | count (count : Nat)
  | flag (holds : Bool)
  | value (value : UInt8)
  | stored (value : Option UInt8)
  | verdict (verdict : Verdict)
  | rows (rows : List (List UInt8 × Row))
  deriving DecidableEq, Repr

/-- The outcome of a request. -/
def perform (table : Table) : Request → Outcome Reply
  | .text => .answer table (.ok (.text table.text))
  | .tree => table.readTree.map .tree
  | .dimensions =>
    let scan := table.currentScan
    .answer table.scanned (.ok (.dimensions scan.rowCount scan.columnCount))
  | .letters => .answer table.scanned (.ok (.letters table.currentScan.letters))
  | .columnCount => .answer table.scanned (.ok (.count table.currentScan.columnCount))
  | .isComplete => .answer table.scanned (.ok (.flag table.isComplete))
  | .evaluate v => (table.evaluate v).map .value
  | .get v => (table.get v).map .stored
  | .construct => table.construct.map .verdict
  | .isTautology => table.construct.map fun verdict => .flag verdict.tautology
  | .isContradiction => table.construct.map fun verdict => .flag verdict.contradiction
  | .isContingency => table.construct.map fun verdict => .flag verdict.contingency
  | .rows => .answer table (.ok (.rows table.rows))
  | .render => table.render.map .text

/-- The outcomes of a session, request by request. -/
def session (table : Table) : List Request → List (Outcome Reply)
  | [] => []
  | request :: rest =>
    let outcome := table.perform request
    outcome :: outcome.table.session rest

/-- The table after a session. -/
def afterSession (table : Table) (requests : List Request) : Table :=
  requests.foldl (fun table request => (table.perform request).table) table

end Sentential.Table
