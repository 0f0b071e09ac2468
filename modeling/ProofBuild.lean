import ProofBuild.Main
import ProofBuild.Proofs.History
import ProofBuild.Proofs.Acceptance
import ProofBuild.Proofs.Spelling
import ProofBuild.Proofs.Directories
import ProofBuild.Proofs.Markable
import ProofBuild.Proofs.Alike
import ProofBuild.Proofs.Rebuilds
import ProofBuild.Proofs.Subsets
import ProofBuild.Proofs.Reached
import ProofBuild.Proofs.Untouched
import ProofBuild.Proofs.Closures
import ProofBuild.Proofs.Bases
import ProofBuild.Proofs.Trials
import ProofBuild.Proofs.Diagnostics
import ProofBuild.Proofs.Cycles
import ProofBuild.Proofs.Marks
import ProofBuild.Proofs.Tasks
import ProofBuild.Proofs.Bindings
import ProofBuild.Proofs.SearchPaths
import ProofBuild.Proofs.Reloads
import ProofBuild.Proofs.Tallies
import ProofBuild.Proofs.Cleaning
import ProofBuild.Proofs.DryRuns
import ProofBuild.Proofs.Omissions
