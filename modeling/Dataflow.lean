import Dataflow.Graph.Listing
import Dataflow.Pipeline.Run
import Dataflow.Proofs.Constants.Soundness
import Dataflow.Proofs.Pipeline.Agreement
import Dataflow.Solver.FactTable
import Dataflow.Proofs.Liveness.Paths
import Dataflow.Proofs.Solver.FixedPoint
import Dataflow.Proofs.DeadCode.Findings
import Dataflow.Proofs.DeadCode.Skipping
import Dataflow.Proofs.Graph.Search
import Dataflow.Proofs.Reading.Forms
import Dataflow.Proofs.DeadCode.Execution
import Dataflow.Proofs.Graph.Ways
import Dataflow.Proofs.DeadCode.Reachable
import Dataflow.Proofs.DeadCode.Untracked
import Dataflow.Proofs.Constants.Quotients
import Dataflow.Proofs.Liveness.Convergence
import Dataflow.Proofs.Constants.Recorded
import Dataflow.Proofs.Reading.Labels
import Dataflow.Proofs.Constants.Folding
import Dataflow.Proofs.Solver.Recheck
import Dataflow.Proofs.DeadCode.Detection
import Dataflow.Proofs.Constants.Range
import Dataflow.Proofs.Reading.Renaming
import Dataflow.Proofs.Reading.Failures
import Dataflow.Proofs.Graph.Refusals
import Dataflow.Proofs.Graph.History
import Dataflow.Proofs.Solver.SinglePass
import Dataflow.Proofs.Reading.Names
import Dataflow.Proofs.Solver.Turns
import Dataflow.Proofs.Fact.History
