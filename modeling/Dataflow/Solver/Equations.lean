import Dataflow.Solver.Analysis
import Dataflow.Solver.Schedule
/-!
# Systems of equations

An analysis on a graph is a system of equations, the same for both directions: what arrives at a node is
merged from what leaves its sources, and what leaves it is the effect of the node on that. The root has
no equations; what leaves it is given.
-/
namespace Dataflow

structure Equations (F : Type) (n : Nat) where
  /-- The nodes that a node's fact is merged from, as often as there are edges. -/
  sources : Fin n → List (Fin n)
  /-- The nodes whose facts are merged from a node's, as often as there are edges. -/
  dependents : Fin n → List (Fin n)
  root : Fin n
  boundary : F
  initial : F
  merge : F → F → F
  transfer : Fin n → F → F → Except EvalError (F × Bool)

/-- The fact that arrives at every node and the fact that leaves it. -/
structure Flow (F : Type) (n : Nat) where
  arriving : Vector F n
  leaving : Vector F n

/-- Where a run stands. -/
structure Progress (F : Type) (n : Nat) where
  flow : Flow F n
  schedule : Schedule n
  visits : Nat

inductive SolveError where
  /-- The bound on visits was met while nodes were still pending. -/
  | diverged (visits pending : Nat)
  | effect (e : EvalError)
  deriving DecidableEq

/-- How a failed run is reported. -/
def SolveError.divergence (visits pending : Nat) : String :=
  "Dataflow analysis did not converge in " ++ Decimal.text visits ++ " iterations (" ++
    Decimal.text pending ++ " nodes still pending)"

namespace Equations

variable {F : Type} {n : Nat}

/-- Every node except the root. -/
def inner (s : Equations F n) : List (Fin n) := (List.finRange n).filter (· ≠ s.root)

/-- The flow a run starts from. -/
def start (s : Equations F n) : Flow F n where
  arriving := Vector.replicate n s.initial
  leaving := (Vector.replicate n s.initial).setIfInBounds s.root s.boundary

/-- What arrives at a node, merged from what leaves its sources. -/
def gather (s : Equations F n) (flow : Flow F n) (p : Fin n) : F :=
  (s.sources p).foldl (fun acc q => s.merge (flow.leaving.get q) acc) s.initial

/-- Applies the equations of a node, and says whether what leaves it counts as changed. -/
def visit (s : Equations F n) (flow : Flow F n) (p : Fin n) : Except EvalError (Flow F n × Bool) :=
  let arriving := s.gather flow p
  match s.transfer p arriving (flow.leaving.get p) with
  | .error e => .error e
  | .ok (leaving, changed) =>
    .ok (⟨flow.arriving.setIfInBounds p arriving, flow.leaving.setIfInBounds p leaving⟩, changed)

/-- A visit of `p`, where `schedule` is what remains after taking `p` from it. -/
def advance (s : Equations F n) (r : Progress F n) (p : Fin n) (schedule : Schedule n) :
    Except EvalError (Progress F n) :=
  match s.visit r.flow p with
  | .error e => .error e
  | .ok (flow, changed) =>
    .ok ⟨flow, schedule.report changed (s.dependents p), r.visits + 1⟩

/-- Visits nodes until the schedule is done, but `budget` of them at most. -/
def run (s : Equations F n) : Nat → Progress F n → Except SolveError (Progress F n)
  | 0, r =>
    match r.schedule.next? with
    | none => .ok r
    | some (_, rest) => .error (.diverged r.visits rest.pending)
  | budget + 1, r =>
    match r.schedule.next? with
    | none => .ok r
    | some (p, rest) =>
      match s.advance r p rest with
      | .error e => .error (.effect e)
      | .ok r => run s budget r

/-- Applies the equations of every inner node once, in order, and counts the nodes that changed. -/
def recheck (s : Equations F n) (flow : Flow F n) : Except EvalError Nat := do
  let (_, changed) ← s.inner.foldlM (fun (flow, count) p => do
    let (flow, changed) ← s.visit flow p
    return (flow, if changed then count + 1 else count)) (flow, 0)
  return changed

end Equations

end Dataflow
