import LineScript.Main
import LineScript.Library.Sample
import LineScript.World
import LineScript.Proofs.Decimal
import LineScript.Proofs.Grammar
import LineScript.Proofs.Recognition
import LineScript.Proofs.Atomicity
import LineScript.Proofs.Enlargement
import LineScript.Proofs.Progress
import LineScript.Proofs.Labels
import LineScript.Proofs.Relocation
import LineScript.Proofs.DeadLabel
import LineScript.Proofs.FlushBlind
import LineScript.Proofs.Concatenation
import LineScript.Proofs.Literal
import LineScript.Proofs.Lexicon
import LineScript.Proofs.Reading
import LineScript.Proofs.Layout
import LineScript.Proofs.Resemblance
import LineScript.Proofs.LockStep
import LineScript.Proofs.LayoutIndependence
import LineScript.Proofs.RoundTrip
import LineScript.Proofs.LongestLexeme
import LineScript.Proofs.Division
import LineScript.Proofs.Tiling
import LineScript.Proofs.Displacement
import LineScript.Proofs.LineComposition
import LineScript.Proofs.Caret
import LineScript.Proofs.Culprit
import LineScript.Proofs.Containment
import LineScript.Proofs.Footprint
import LineScript.Proofs.Recall
import LineScript.Proofs.LimitedSink
import LineScript.Proofs.ControlFlow
import LineScript.Proofs.Exchange
import LineScript.Proofs.Event
import LineScript.Proofs.FlushDiscipline
import LineScript.Proofs.ForwardJumps
import LineScript.Proofs.Simulation
import LineScript.Proofs.InputStream
import LineScript.Proofs.WordArithmetic
import LineScript.Proofs.Gate
import LineScript.Proofs.Kinds
import LineScript.Proofs.IntegerTokens
import LineScript.Proofs.SourceLines
import LineScript.Proofs.JumpTargets
import LineScript.Proofs.FinalNewline
import LineScript.Proofs.TextLiteral
import LineScript.Proofs.LineEndings
import LineScript.Proofs.OptionMeanings
import LineScript.Proofs.EchoLoop
