import Dataflow.Solver.Solve
/-!
# Tables of facts

A table collects facts by node and can be frozen; a frozen table takes no more. Nodes are numbers here,
in the order of their graph.
-/
namespace Dataflow

structure FactTable (F : Type) where
  direction : Direction
  ins : List (Nat × F) := []
  outs : List (Nat × F) := []
  visits : Nat := 0
  converged : Bool := false
  frozen : Bool := false

/-- A frozen table was written to. -/
inductive FactTable.Frozen where
  | frozen

def FactTable.Frozen.message (_ : Frozen) : String := "dataflow result is read-only once solved"

namespace FactTable

variable {F : Type}

/-- Overwrites an entry in its place, or adds one at the end. -/
def put : List (Nat × F) → Nat → F → List (Nat × F)
  | [], p, x => [(p, x)]
  | (q, y) :: rest, p, x => if q = p then (q, x) :: rest else (q, y) :: put rest p x

def getIn? (t : FactTable F) (p : Nat) : Option F := t.ins.lookup p

def getOut? (t : FactTable F) (p : Nat) : Option F := t.outs.lookup p

def setIn (t : FactTable F) (p : Nat) (x : F) : Except Frozen (FactTable F) :=
  if t.frozen then .error .frozen else .ok { t with ins := put t.ins p x }

def setOut (t : FactTable F) (p : Nat) (x : F) : Except Frozen (FactTable F) :=
  if t.frozen then .error .frozen else .ok { t with outs := put t.outs p x }

def freeze (t : FactTable F) : FactTable F := { t with frozen := true }

/-- How messages speak of the table. -/
def title (t : FactTable F) : String :=
  "DataflowResult(" ++ t.direction.name ++ ", nodes=" ++ Decimal.text t.ins.length ++
    ", iterations=" ++ Decimal.text t.visits ++
    ", converged=" ++ (if t.converged then "True" else "False") ++ ")"

end FactTable

/-- The table of a solution: complete and frozen. -/
def Solution.table {F : Type} {n : Nat} (s : Solution F n) : FactTable F where
  direction := s.direction
  ins := s.ins.toList.zipIdx.map fun (x, p) => (p, x)
  outs := s.outs.toList.zipIdx.map fun (x, p) => (p, x)
  visits := s.visits
  converged := true
  frozen := true

end Dataflow
