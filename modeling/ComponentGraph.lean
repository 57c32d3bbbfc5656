import ComponentGraph.Main
import ComponentGraph.Node.Decode
import ComponentGraph.Proofs.Journal
import ComponentGraph.Proofs.Replay
import ComponentGraph.Proofs.Accounting
import ComponentGraph.Proofs.Reach
import ComponentGraph.Proofs.Judgement
import ComponentGraph.Proofs.History
import ComponentGraph.Proofs.Arguments
import ComponentGraph.Proofs.Ranking
import ComponentGraph.Proofs.Drawing
import ComponentGraph.Proofs.Parallel
import ComponentGraph.Proofs.Focus
import ComponentGraph.Proofs.Packages
import ComponentGraph.Proofs.Depth
import ComponentGraph.Proofs.Contents
import ComponentGraph.Proofs.Isolation
import ComponentGraph.Proofs.OneKey
import ComponentGraph.Proofs.Consistency
import ComponentGraph.Proofs.Repetition
import ComponentGraph.Proofs.Inside
import ComponentGraph.Proofs.Relocation
import ComponentGraph.Proofs.Moving
import ComponentGraph.Proofs.Categories
import ComponentGraph.Proofs.Precedence
import ComponentGraph.Proofs.RoundTrip
import ComponentGraph.Proofs.Initialisation
import ComponentGraph.Proofs.Mentions
import ComponentGraph.Proofs.Occurrences
import ComponentGraph.Proofs.Selection
import ComponentGraph.Proofs.Resolution
import ComponentGraph.Proofs.Nearest
import ComponentGraph.Proofs.Nesting
import ComponentGraph.Proofs.JsonGrammar
import ComponentGraph.Proofs.Decoding
import ComponentGraph.Proofs.Colouring
import ComponentGraph.Proofs.Alignment
