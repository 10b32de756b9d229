import Dataflow.Graph.Basic
/-!
# Reachable nodes

A search from one place, breadth first. What a place leads to may fail to be known; the search then ends
with that failure.
-/
namespace Dataflow.Graph

/-- Of the places given, those that are not found yet, each once. -/
def fresh {n : Nat} (found : List (Fin n)) : List (Fin n) → List (Fin n)
  | [] => []
  | p :: rest => if p ∈ found then fresh found rest else p :: fresh (p :: found) rest

/-- Takes up to `rounds` places off the queue and appends what they newly lead to. -/
def search {n : Nat} {ε : Type} (next : Fin n → Except ε (List (Fin n))) :
    Nat → List (Fin n) → List (Fin n) → Except ε (List (Fin n))
  | 0, found, _ => .ok found
  | _, found, [] => .ok found
  | rounds + 1, found, p :: queue => do
    let new := fresh found (← next p)
    search next rounds (found ++ new) (queue ++ new)

/-- All that a place leads to, itself included, in the order of discovery. No place is queued twice, so
there are at most as many rounds as places. -/
def explore {n : Nat} {ε : Type} (next : Fin n → Except ε (List (Fin n))) (start : Fin n) :
    Except ε (List (Fin n)) :=
  search next n [start] [start]

/-- Successors are always known. -/
def reachableFrom (g : Graph) (p : Fin g.size) : List (Fin g.size) :=
  match explore (ε := Empty) (fun q => .ok (g.succs q)) p with
  | .ok found => found

end Dataflow.Graph
