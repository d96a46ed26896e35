import WhileLang.Main
import WhileLang.Proofs.Decimal
import WhileLang.Proofs.Layout
import WhileLang.Proofs.Grammar
import WhileLang.Proofs.Window
import WhileLang.Proofs.Progress
import WhileLang.Proofs.Routines
import WhileLang.Proofs.Limit
import WhileLang.Proofs.Unlimited
import WhileLang.Proofs.Report
import WhileLang.Proofs.Expressions
import WhileLang.Proofs.Statements
import WhileLang.Proofs.Judgement
import WhileLang.Proofs.Reading
import WhileLang.Proofs.Braces
import WhileLang.Proofs.OnDemand
import WhileLang.Proofs.Trace
import WhileLang.Proofs.Composition
import WhileLang.Proofs.Rendering
import WhileLang.Proofs.Relabel
import WhileLang.Proofs.Rereading
import WhileLang.Proofs.Neighbours
import WhileLang.Proofs.RoundTrip
import WhileLang.Proofs.Decomposition
import WhileLang.Proofs.Moves
import WhileLang.Proofs.Tally
import WhileLang.Proofs.Modes
import WhileLang.Proofs.Recovery
import WhileLang.Proofs.Places
import WhileLang.Proofs.SourceOrder
import WhileLang.Proofs.Stratified
import WhileLang.Proofs.Confinement
import WhileLang.Proofs.Unclosed
import WhileLang.Proofs.Safety
import WhileLang.Proofs.BitVectors
import WhileLang.Proofs.Folding
import WhileLang.Proofs.Lockstep
import WhileLang.Proofs.FirstFault
import WhileLang.Proofs.Frame
import WhileLang.Proofs.Sessions
import WhileLang.Proofs.Excerpts
import WhileLang.Proofs.Rejections
import WhileLang.Proofs.Euclid
import WhileLang.Proofs.Collatz
