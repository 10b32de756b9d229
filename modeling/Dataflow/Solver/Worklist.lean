import Dataflow.Settings
/-!
# Worklists

The nodes that are still to be visited. A node is pending at most once: pushing a pending node changes
nothing. Under `fifo` and `lifo` the nodes wait in a queue, in the order in which they leave it; under
`priority` their ranks wait in ascending order, and a rank stands for the last node that has it.
-/
namespace Dataflow

structure Worklist (n : Nat) where
  strategy : Strategy
  rank : Fin n → Int
  queue : List (Fin n) := []
  ranks : List Int := []
  pending : List (Fin n) := []

namespace Worklist

variable {n : Nat}

/-- Puts a rank before the first that is not smaller. -/
def insertRank (r : Int) : List Int → List Int
  | [] => [r]
  | s :: rest => if r ≤ s then r :: s :: rest else s :: insertRank r rest

def size (w : Worklist n) : Nat := w.pending.length

/-- The last node of a rank. -/
def holder? (w : Worklist n) (r : Int) : Option (Fin n) :=
  (List.finRange n).reverse.find? (w.rank · = r)

def push (w : Worklist n) (p : Fin n) : Worklist n :=
  if w.pending.contains p then w
  else
    let w := { w with pending := p :: w.pending }
    match w.strategy with
    | .fifo => { w with queue := w.queue ++ [p] }
    | .lifo => { w with queue := p :: w.queue }
    | .priority => { w with ranks := insertRank (w.rank p) w.ranks }

/-- The next node and the worklist without it. -/
def pop? (w : Worklist n) : Option (Fin n × Worklist n) :=
  match w.strategy with
  | .fifo | .lifo =>
    match w.queue with
    | [] => none
    | p :: queue => some (p, { w with queue, pending := w.pending.erase p })
  | .priority =>
    match w.ranks with
    | [] => none
    | r :: ranks => (w.holder? r).map fun p => (p, { w with ranks, pending := w.pending.erase p })

def pushAll (w : Worklist n) (ps : List (Fin n)) : Worklist n := ps.foldl push w

end Worklist

end Dataflow
