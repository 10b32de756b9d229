import Dataflow.Graph.Reach
/-!
# The flow graph of a routine

A statement passes control to the next one, or to the exit after the last one, unless it jumps or
returns. A jump must name a statement of its own routine.
-/
namespace Dataflow

namespace Graph

/-- Where a statement may pass control, and how. -/
structure Way where
  target : Node
  kind : EdgeKind
  caseValue : Option Int := none
  deriving DecidableEq

/-- The node after statement `i`. -/
def after (r : Routine) (i : Nat) : Node := if i + 1 < r.size then .stmt (i + 1) else .exit

/-- The node a jump of statement `i` goes to. -/
def destination (r : Routine) (i : Nat) (s : Statement) (target : Option Target) :
    Except BuildError Node :=
  let refused := .error (.showing (.outside i) s.text)
  match target with
  | some (.stmt j) => if j < r.size then .ok (.stmt j) else refused
  | _ => refused

/-- The ways out of statement `i`, in order. -/
def ways (r : Routine) (i : Nat) (s : Statement) : Except BuildError (List Way) :=
  match s with
  | .goto target => return [⟨← destination r i s target, .goto, none⟩]
  | .branch _ target => return [⟨← destination r i s target, .ifTrue, none⟩, ⟨after r i, .ifFalse, none⟩]
  | .switch _ cases default =>
    if cases.isEmpty ∧ default.isNone then .error (.malformed (.noTargets i))
    else do
      let arms ← cases.mapM fun (n, target) =>
        return ⟨← destination r i s target, .switchCase, some n⟩
      let last ← default.toList.mapM fun target =>
        return ⟨← destination r i s (some target), .switchDefault, none⟩
      return arms ++ last
  | .return _ => return [⟨.exit, .return, none⟩]
  | .assign .. | .invoke .. | .nop => return [⟨after r i, .fallThrough, none⟩]

/-- Adds the edges of several ways out of one node. -/
def addWays (g : Graph) (source : Node) (ways : List Way) : Except BuildError Graph :=
  ways.foldlM (fun g w =>
    match g.addEdge source w.target w.kind w.caseValue with
    | .ok (g, _) => .ok g
    | .error e => .error e) g

/-- The flow graph of a routine. -/
def build (r : Routine) : Except BuildError Graph := do
  let first := if 0 < r.size then .stmt 0 else .exit
  let g ← (empty r).addWays .entry [⟨first, .entry, none⟩]
  r.body.toList.zipIdx.foldlM (fun g (line, i) => do g.addWays (.stmt i) (← ways r i line.stmt)) g

/-- The number of nodes that no path from the entry reaches. -/
def unreachableCount (g : Graph) : Nat := g.size - (g.reachableFrom g.entry).length

end Graph

end Dataflow
