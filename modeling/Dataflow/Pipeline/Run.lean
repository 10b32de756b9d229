import Dataflow.Analyses.DeadCode
import Dataflow.Graph.Build
import Dataflow.Pipeline.Journal
import Dataflow.Reading.Read
/-!
# The pipeline

Runs the analyses that a client asks for on one routine. Dead statements need constants and live
variables, so asking for them asks for those too.
-/
namespace Dataflow.Pipeline

inductive Failure where
  | reading (e : Reading.ReadError)
  | building (e : BuildError)
  | settings (problems : List Settings.Problem)
  | solving (e : SolveError)
  | detecting (e : DeadCode.DetectError)
  | unknownAnalysis (given : Datum)

/-! ## What is asked for -/

inductive Task where
  | constants
  | liveness
  | deadCode
  deriving DecidableEq

namespace Task

/-- Every task comes after those it needs. -/
def all : List Task := [constants, liveness, deadCode]

def id : Task → String
  | constants => Constants.analysis.id
  | liveness => Liveness.analysis.id
  | deadCode => DeadCode.id

def ofId? (s : String) : Option Task := all.find? (·.id = s)

/-- The task itself and those it needs. -/
def withNeeds : Task → List Task
  | deadCode => [deadCode, constants, liveness]
  | task => [task]

end Task

def unknownAnalysis (given : Datum) : Except NoText String :=
  return "unknown analysis " ++ (← given.shown) ++ "; valid ids: " ++
    ", ".intercalate (Task.all.map Task.id)

def task (given : Datum) : Except Failure Task :=
  match given with
  | .text s => (Task.ofId? s).elim (.error (.unknownAnalysis given)) .ok
  | _ => .error (.unknownAnalysis given)

/-- The tasks to run, in order; without a request all of them. -/
def tasks (requested : Option (List Datum)) : Except Failure (List Task) :=
  match requested with
  | none => .ok Task.all
  | some given => do
    let wanted := (← given.mapM task).flatMap Task.withNeeds
    return Task.all.filter (· ∈ wanted)

/-! ## Stages with their notes -/

abbrev Journal := Journalled Failure

/-- Reads a routine. -/
def read (text name : String) : Journal Routine := do
  let r ← .silent ((Reading.read text name).mapError .reading)
  .note .debug .reading
    ("Parsed " ++ r.title ++ " with " ++ Decimal.text r.vars.length ++ " variables")
  return r

/-- Builds the flow graph of a routine. -/
def build (r : Routine) : Journal Graph := do
  let g ← .silent ((Graph.build r).mapError .building)
  .note .debug .graph
    ("Built " ++ g.title ++ " (" ++ Decimal.text g.unreachableCount ++
      " nodes not reachable from entry)")
  return g

/-- Solves an analysis under the settings of a draft. The note leaves the time open, which is not
measured here. -/
def solve {F : Type} (a : Analysis F) (g : Graph) (draft : Settings.Draft) :
    Journal (Solution F g.size) := do
  let settings ← .silent (draft.check.mapError .settings)
  let solution ← .silent ((a.solve g settings).mapError .solving)
  .note .debug .solver
    (a.title ++ " on " ++ g.title ++ ": " ++ Decimal.text solution.visits ++ " iterations (" ++
      a.scheduleName settings ++ "), T ms")
  return solution

/-- Detects dead statements. A statement without a text goes unnoted. -/
def detect (g : Graph) (constants : Facts Env g.size) (live : Facts VarSet g.size) :
    Journal (List DeadCode.Finding) := do
  let findings ← .silent ((DeadCode.analyze g .same constants live).mapError .detecting)
  for f in findings do
    let reason := match f.reason with
      | .unreachable => "unreachable"
      | .useless => "useless assignment"
    if let .ok tag := (g.statement (.stmt f.index)).tag f.index then
      .note .debug .deadCode ("dead (" ++ reason ++ "): " ++ tag)
  .note .info .pipeline
    (g.routine.name ++ ": " ++ Decimal.text findings.length ++ " dead statement(s)")
  return findings

/-! ## All of it -/

/-- What the tasks found on a graph; what was not asked for is missing. -/
structure Report where
  graph : Graph
  ran : List Task
  constants : Option (Solution Env graph.size)
  live : Option (Solution VarSet graph.size)
  dead : Option (List DeadCode.Finding)

/-- Runs the tasks requested on a routine. Settings are only looked at when there is something to
solve. -/
def run (r : Routine) (draft : Settings.Draft) (requested : Option (List Datum)) :
    Journal Report := do
  let ran ← .silent (tasks requested)
  let graph ← build r
  .note .info .pipeline
    ("Analysing " ++ r.title ++ ": " ++ ", ".intercalate (ran.map Task.id))
  let constants ← if .constants ∈ ran then some <$> solve Constants.analysis graph draft else pure none
  let live ← if .liveness ∈ ran then some <$> solve Liveness.analysis graph draft else pure none
  let dead ← match constants, live with
    | some c, some l =>
      if .deadCode ∈ ran then some <$> detect graph c.toFacts l.toFacts else pure none
    | _, _ => pure none
  return { graph, ran, constants, live, dead }

end Dataflow.Pipeline
