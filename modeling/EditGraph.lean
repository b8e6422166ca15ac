import EditGraph.FileTree
import EditGraph.Main
import EditGraph.Proofs.Furthest
import EditGraph.Proofs.Frontier
import EditGraph.Proofs.Searches
import EditGraph.Proofs.Chain
import EditGraph.Proofs.MiddleSnake
import EditGraph.Proofs.Division
import EditGraph.Proofs.EditDistance
import EditGraph.Proofs.Scripts
import EditGraph.Proofs.Replay
import EditGraph.Proofs.ShortestScript
import EditGraph.Proofs.Safety
import EditGraph.Proofs.TwoRuns
import EditGraph.Proofs.Parts
import EditGraph.Proofs.Reachable
import EditGraph.Proofs.Outcome
import EditGraph.Proofs.Unrolling
import EditGraph.Proofs.Alignment
import EditGraph.Proofs.Replacement
import EditGraph.Proofs.Congruence
import EditGraph.Proofs.NormalForms
import EditGraph.Proofs.NumberedLines
import EditGraph.Proofs.LineReplay
import EditGraph.Proofs.Reports
import EditGraph.Proofs.SavedLines
import EditGraph.Proofs.Bisection
import EditGraph.Proofs.Freshness
import EditGraph.Proofs.Ratio
import EditGraph.Proofs.ForeignReplay
import EditGraph.Proofs.SmallLetters
import EditGraph.Proofs.Overlooked
import EditGraph.Proofs.StableForms
import EditGraph.Proofs.Records
import EditGraph.Proofs.Steps
import EditGraph.Proofs.NestedWindows
import EditGraph.Proofs.Extremes
import EditGraph.Proofs.SignedMap
