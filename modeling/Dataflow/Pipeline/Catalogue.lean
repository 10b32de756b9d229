/-!
# The catalogue of the library

What clients see of the library: its version, its components, and the names that every component offers.
The label of a component also names the channel of its journal notes.
-/
namespace Dataflow

inductive Component where
  | faults | settings | routine | graph | reading | facts | solver | analyses | deadCode | pipeline
  deriving DecidableEq

namespace Component

def all : List Component :=
  [faults, settings, routine, graph, reading, facts, solver, analyses, deadCode, pipeline]

def label : Component → String
  | faults => "errors"
  | settings => "config"
  | routine => "ir"
  | graph => "ctrlflow_graph"
  | reading => "ir_parser"
  | facts => "abstract_domains"
  | solver => "dataflow_engine"
  | analyses => "dataflow_analyses"
  | deadCode => "dead_code"
  | pipeline => "pipeline"

def channel (c : Component) : String := "flowfacts." ++ c.label

def offers : Component → List String
  | faults =>
    ["FlowFactsError", "MalformedCFGError", "SolverDivergenceError", "ResultFrozenError",
     "IRSyntaxError", "UnknownAnalysisError"]
  | settings => ["SolverConfig", "WorklistStrategy"]
  | routine => ["IR", "Var", "PrimitiveType", "can_hold_int"]
  | graph => ["CFG", "CFGEdge", "EdgeKind", "build_cfg", "cfg_summary"]
  | reading => ["parse_ir"]
  | facts => ["Value", "UNDEF", "NAC", "meet_value", "CPFact", "SetFact"]
  | solver =>
    ["Direction", "DataflowAnalysis", "DataflowResult", "WorklistSolver", "solve",
     "check_monotonicity"]
  | analyses => ["ConstantPropagation", "LiveVariableAnalysis"]
  | deadCode => ["DeadCodeDetection", "detect", "has_no_side_effect"]
  | pipeline => ["AnalysisResults", "run_all_analyses"]

end Component

namespace Catalogue

def version : String := "0.1.0"

def sorted (names : List String) : List String := names.mergeSort fun a b => decide (a ≤ b)

/-- The labels of the components, in order. -/
def components : List String := sorted (Component.all.map Component.label)

/-- Every name that is offered, those of the components included, in order. -/
def names : List String := sorted (Component.all.flatMap fun c => c.offers ++ [c.label])

end Catalogue

end Dataflow
