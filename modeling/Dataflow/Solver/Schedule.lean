import Dataflow.Solver.Worklist
/-!
# Schedules

A schedule says which node is visited next. A worklist takes up the dependents of every node whose fact
changed; sweeps go over all nodes in one order until a whole sweep changes nothing.
-/
namespace Dataflow

inductive Schedule (n : Nat) where
  | worklist (w : Worklist n)
  /-- The order of a sweep, what is left of this one, and whether it has changed anything. -/
  | sweep (order rest : List (Fin n)) (changed : Bool)

namespace Schedule

variable {n : Nat}

/-- The next node, unless all is settled. -/
def next? : Schedule n → Option (Fin n × Schedule n)
  | worklist w => w.pop?.map fun (p, w) => (p, worklist w)
  | sweep order (p :: rest) changed => some (p, sweep order rest changed)
  | sweep _ [] false => none
  | sweep order [] true =>
    match order with
    | [] => none
    | p :: rest => some (p, sweep order rest false)

/-- Takes notice of a visit: whether it changed the node's fact, and which nodes depend on that. -/
def report (changed : Bool) (dependents : List (Fin n)) : Schedule n → Schedule n
  | worklist w => worklist (if changed then w.pushAll dependents else w)
  | sweep order rest before => sweep order rest (before || changed)

/-- The number of nodes that count as pending: in sweeps, all of them. -/
def pending : Schedule n → Nat
  | worklist w => w.size
  | sweep order _ _ => order.length

end Schedule

end Dataflow
