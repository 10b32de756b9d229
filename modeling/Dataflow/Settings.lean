import Dataflow.Datum
/-!
# Settings of a solver run

A draft is what a client wrote; checking it gives the settings or the list of all that is wrong with it.
-/
namespace Dataflow

/-- The order in which pending nodes are taken up. -/
inductive Strategy where
  /-- The node that has waited longest. -/
  | fifo
  /-- The node that came last. -/
  | lifo
  /-- The node of the smallest rank. -/
  | priority
  deriving DecidableEq

/-- How a backward analysis is scheduled. -/
inductive BackwardMode where
  | worklist
  /-- Rounds over all nodes, from the last to the first. -/
  | sweeps
  deriving DecidableEq

structure Settings where
  strategy : Strategy := .fifo
  /-- The number of node visits that a run may take. -/
  maxVisits : Nat := 1000000
  backward : BackwardMode := .worklist
  positive : 0 < maxVisits := by decide

namespace Strategy

def all : List Strategy := [fifo, lifo, priority]

def name : Strategy → String
  | fifo => "fifo"
  | lifo => "lifo"
  | priority => "priority"

def ofName? (s : String) : Option Strategy := all.find? (·.name = s)

end Strategy

namespace BackwardMode

def all : List BackwardMode := [worklist, sweeps]

def name : BackwardMode → String
  | worklist => "worklist"
  | sweeps => "round-robin"

def ofName? (s : String) : Option BackwardMode := all.find? (·.name = s)

end BackwardMode

/-! ## Drafts -/

inductive Settings.Problem where
  | strategy (given : Datum)
  | boundType (given : Datum)
  | boundSign
  | backward

namespace Settings.Problem

def message : Problem → Except NoText String
  | strategy given => return "unknown worklist strategy " ++ (← given.shown)
  | boundType given => return "max_iterations must be an int, got " ++ (← given.shown)
  | boundSign => .ok "max_iterations must be positive"
  | backward =>
    .ok ("backward_mode must be one of " ++ ", ".intercalate (BackwardMode.all.map BackwardMode.name))

end Settings.Problem

structure Settings.Draft where
  strategy : Datum := .text "fifo"
  maxVisits : Datum := .int 1000000
  backward : Datum := .text "worklist"

namespace Settings.Draft

def strategy? (d : Draft) : Except Problem Strategy :=
  match d.strategy with
  | .text s => (Strategy.ofName? s).elim (.error (.strategy d.strategy)) .ok
  | given => .error (.strategy given)

def maxVisits? (d : Draft) : Except Problem { n : Nat // 0 < n } :=
  match d.maxVisits with
  | .int n => if h : 0 < n then .ok ⟨n.toNat, Int.pos_iff_toNat_pos.1 h⟩ else .error .boundSign
  | given => .error (.boundType given)

def backward? (d : Draft) : Except Problem BackwardMode :=
  match d.backward with
  | .text s => (BackwardMode.ofName? s).elim (.error .backward) .ok
  | _ => .error .backward

/-- The settings a draft stands for, or all its problems. -/
def check (d : Draft) : Except (List Problem) Settings :=
  match d.strategy?, d.maxVisits?, d.backward? with
  | .ok strategy, .ok bound, .ok backward =>
    .ok { strategy, maxVisits := bound.1, backward, positive := bound.2 }
  | s, b, m => .error (fault s ++ fault b ++ fault m)
where
  fault {α : Type} : Except Problem α → List Problem
    | .error p => [p]
    | .ok _ => []

def problems (d : Draft) : List Problem :=
  match d.check with
  | .error ps => ps
  | .ok _ => []

end Settings.Draft

/-- How a refused draft is reported. -/
def Settings.refusal (problems : List Settings.Problem) : Except NoText String :=
  return "Invalid solver configuration: " ++ "; ".intercalate (← problems.mapM Problem.message)

end Dataflow
