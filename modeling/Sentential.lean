import Sentential.Main
import Sentential.Table.Session
import Sentential.Text.Classes
import Sentential.Proofs.Meaning
import Sentential.Proofs.Grammar
import Sentential.Reading.Choice
import Sentential.Proofs.OrderedChoice
import Sentential.Proofs.Keys
import Sentential.Proofs.Letters
import Sentential.Proofs.Rows
import Sentential.Proofs.History
import Sentential.Proofs.Verdicts
import Sentential.Proofs.FixedPoint
import Sentential.Proofs.Language
import Sentential.Proofs.RoundTrip
import Sentential.Proofs.NormalForm
import Sentential.Proofs.ViablePrefix
import Sentential.Proofs.Continuations
import Sentential.Proofs.Rereading
import Sentential.Proofs.Equivalents
import Sentential.Proofs.Answers
import Sentential.Proofs.Columns
import Sentential.Proofs.Scans
import Sentential.Proofs.Sections
import Sentential.Proofs.Invocations
import Sentential.Proofs.Arguments
import Sentential.Tree.Subtrees
import Sentential.Truth
import Sentential.Evaluation.Checked
import Sentential.Proofs.Tokens
import Sentential.Proofs.Entries
import Sentential.Proofs.Irreducible
import Sentential.Proofs.Operands
import Sentential.Proofs.SharedColumns
import Sentential.Proofs.Requests
import Sentential.Proofs.Precedence
import Sentential.Proofs.Laziness
import Sentential.Proofs.Applicability
import Sentential.Proofs.Insertions
import Sentential.Valuation.Numbering
import Sentential.Proofs.Counting
import Sentential.Proofs.Assignments
import Sentential.Valuation.Steps
import Sentential.Proofs.FiniteMaps
import Sentential.Tree.Projection.Checked
import Sentential.Proofs.Placements
import Sentential.Proofs.Outlines
import Sentential.Proofs.Similarity
