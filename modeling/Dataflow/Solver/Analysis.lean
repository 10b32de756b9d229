import Dataflow.Graph.Basic
/-!
# Analyses

An analysis is a lattice of facts and an effect of every statement on them. A forward analysis computes
what holds after a node from what holds before it, a backward one the other way round.
-/
namespace Dataflow

inductive Direction where
  | forward
  | backward
  deriving DecidableEq

namespace Direction

def all : List Direction := [forward, backward]

def name : Direction → String
  | forward => "forward"
  | backward => "backward"

def ofName? (s : String) : Option Direction := all.find? (·.name = s)

end Direction

/-- Why an effect cannot be computed: a divisor that is not zero as it is written is zero in 32 bits. -/
inductive EvalError where
  | divisionByZero
  deriving DecidableEq

/-- A statement at its index; the entry and the exit of a graph count as `nop`. -/
structure Point where
  index : Int
  stmt : Statement

structure Analysis (F : Type) where
  id : String
  label : String
  direction : Direction
  /-- The fact at the node where the analysis starts. -/
  boundary : Routine → F
  /-- The fact that every other node starts from, and that merging starts from. -/
  initial : F
  /-- Merges the first fact into the second. -/
  merge : F → F → F
  /-- The effect at a point: from the fact that flows in and the fact recorded so far, the fact to be
  recorded, and whether that counts as a change. -/
  transfer : Point → F → F → Except EvalError (F × Bool)
  /-- The order of the facts. -/
  le : F → F → Bool

/-- How messages speak of the analysis. -/
def Analysis.title {F : Type} (a : Analysis F) : String :=
  a.label ++ "(id=" ++ Text.quoted a.id ++ ")"

/-- The statement at a place of a graph, with its index. -/
def Graph.point (g : Graph) (p : Fin g.size) : Point := ⟨g.index (g.node p), g.statement (g.node p)⟩

end Dataflow
