import Tally.Main
import Tally.Run.Pipeline
import Tally.Run.Trace
import Tally.Proofs.Lexeme
import Tally.Proofs.Segment
import Tally.Proofs.Segmentation
import Tally.Proofs.Canonical
import Tally.Proofs.Expression
import Tally.Proofs.Grammar
import Tally.Proofs.Spelling
import Tally.Proofs.RoundTrip
import Tally.Proofs.Overflow
import Tally.Proofs.Chains
import Tally.Proofs.Evaluation
import Tally.Proofs.Sums
import Tally.Proofs.FirstFault
import Tally.Proofs.Truncation
import Tally.Proofs.Lookahead
import Tally.Proofs.Relocation
import Tally.Proofs.Viability
import Tally.Proofs.Concatenation
import Tally.Proofs.Offsets
import Tally.Proofs.Calls
import Tally.Proofs.Finiteness
import Tally.Proofs.Layout
import Tally.Proofs.Bindings
import Tally.Proofs.Stages
import Tally.Proofs.Cursor
import Tally.Proofs.Obstacle
import Tally.Proofs.Diagnosis
import Tally.Proofs.LexicalErrors
import Tally.Proofs.Names
import Tally.Proofs.Agreement
import Tally.Proofs.Kinds
import Tally.Proofs.Events
import Tally.Proofs.Layers
import Tally.Proofs.Postorder
import Tally.Proofs.LineEnds
import Tally.Proofs.RuleOrder
import Tally.Proofs.Numerals
import Tally.Proofs.Unambiguous
import Tally.Proofs.Excerpts
import Tally.Proofs.Escapes
import Tally.Proofs.Requests
import Tally.Proofs.CarriageReturns
import Tally.Proofs.SignedZero
import Tally.Proofs.Operators
import Tally.Proofs.Positions
