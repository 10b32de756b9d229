import Dataflow.Fact.VarSet
import Dataflow.Solver.Analysis
/-!
# Live variables

A variable is live at a point if some path from there reads it before it writes it.
-/
namespace Dataflow.Liveness

/-- What is live before a statement: all it reads, and what is live after it but for the variable it
defines. -/
def effect (s : Statement) (after : VarSet) : VarSet :=
  s.uses.foldl VarSet.insert (s.defined?.elim after after.erase)

def analysis : Analysis VarSet where
  id := "livevar"
  label := "LiveVariableAnalysis"
  direction := .backward
  boundary _ := .empty
  initial := .empty
  merge source target := target.union source
  transfer p after before := .ok (before.replace (effect p.stmt after))
  le := VarSet.subset

end Dataflow.Liveness
