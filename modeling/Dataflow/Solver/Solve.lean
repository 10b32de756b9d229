import Dataflow.Solver.Equations
/-!
# Solving an analysis on a graph
-/
namespace Dataflow

/-- The fact before every node of a graph and the fact after it. -/
structure Facts (F : Type) (n : Nat) where
  ins : Vector F n
  outs : Vector F n

/-- The facts a run ended with, and the number of visits it took. -/
structure Solution (F : Type) (n : Nat) extends Facts F n where
  direction : Direction
  visits : Nat

namespace Analysis

variable {F : Type}

/-- The equations of an analysis on a graph. -/
def equations (a : Analysis F) (g : Graph) : Equations F g.size where
  sources := match a.direction with | .forward => g.preds | .backward => g.succs
  dependents := match a.direction with | .forward => g.succs | .backward => g.preds
  root := match a.direction with | .forward => g.entry | .backward => g.exit
  boundary := a.boundary g.routine
  initial := a.initial
  merge := a.merge
  transfer p := a.transfer (g.point p)

/-- What arrives at a node is the fact before it or the fact after it, as the direction goes. -/
def facts {n : Nat} (a : Analysis F) (flow : Flow F n) : Facts F n :=
  match a.direction with
  | .forward => ⟨flow.arriving, flow.leaving⟩
  | .backward => ⟨flow.leaving, flow.arriving⟩

def flow {n : Nat} (a : Analysis F) (facts : Facts F n) : Flow F n :=
  match a.direction with
  | .forward => ⟨facts.ins, facts.outs⟩
  | .backward => ⟨facts.outs, facts.ins⟩

/-- Sweeps are for backward analyses only. -/
def sweeps (a : Analysis F) (settings : Settings) : Bool :=
  a.direction = .backward && settings.backward = .sweeps

/-- The schedule a run starts with: all inner nodes are to be visited, and sweeps go from the last node
to the first, so that facts move along with them. -/
def schedule (a : Analysis F) (g : Graph) (settings : Settings) : Schedule g.size :=
  let inner := (a.equations g).inner
  if a.sweeps settings then .sweep inner.reverse inner.reverse false
  else .worklist (Worklist.pushAll { strategy := settings.strategy, rank := fun p => p.val } inner)

/-- What the schedule is called. -/
def scheduleName (a : Analysis F) (settings : Settings) : String :=
  if a.sweeps settings then BackwardMode.sweeps.name else settings.strategy.name

/-- Where a run starts. -/
def begin (a : Analysis F) (g : Graph) (settings : Settings) : Progress F g.size :=
  ⟨(a.equations g).start, a.schedule g settings, 0⟩

/-- Runs an analysis to a flow that satisfies its equations. -/
def solve (a : Analysis F) (g : Graph) (settings : Settings := {}) :
    Except SolveError (Solution F g.size) :=
  match (a.equations g).run settings.maxVisits (a.begin g settings) with
  | .error e => .error e
  | .ok r => .ok { a.facts r.flow with direction := a.direction, visits := r.visits }

/-- The number of nodes whose fact changes when every equation is applied once more, in order. -/
def resolve (a : Analysis F) (g : Graph) (facts : Facts F g.size) : Except EvalError Nat :=
  (a.equations g).recheck (a.flow facts)

/-! ## Monotonicity on samples -/

/-- The effect at a point on a fact, recorded over the initial one. -/
def effect (a : Analysis F) (p : Point) (fact : F) : Except EvalError F :=
  (a.transfer p fact a.initial).map (·.1)

/-- For every two samples in order, the effects are in order. -/
def monotoneOn (a : Analysis F) (p : Point) (samples : List F) : Except EvalError Bool :=
  samples.allM fun x => samples.allM fun y =>
    if a.le x y then return a.le (← a.effect p x) (← a.effect p y) else return true

end Analysis

end Dataflow
