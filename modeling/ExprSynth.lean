import ExprSynth.Command
import ExprSynth.Main
import ExprSynth.Expr.Typing
import ExprSynth.Bank.Scan
import ExprSynth.Search.Language
import ExprSynth.Proofs.BankInvariant
import ExprSynth.Proofs.Sorts
import ExprSynth.Proofs.Layers
import ExprSynth.Proofs.SortSoundness
import ExprSynth.Proofs.Completeness
import ExprSynth.Proofs.Soundness
import ExprSynth.Proofs.ScanRefinement
import ExprSynth.Proofs.PolicyDominance
import ExprSynth.Proofs.RestrictedCompleteness
import ExprSynth.Proofs.SolutionDepth
import ExprSynth.Proofs.Statistics
import ExprSynth.Proofs.TieBreaks
import ExprSynth.Proofs.Faults
import ExprSynth.Proofs.JsonText
import ExprSynth.Proofs.ProblemText
import ExprSynth.Proofs.ProblemFiles
import ExprSynth.Proofs.Batches
import ExprSynth.Proofs.Evaluation
import ExprSynth.Proofs.Printing
