import Dataflow.Graph.Basic
/-!
# Listings and drawings of a graph

Both show every statement and the case value of every edge, as far as these have texts.
-/
namespace Dataflow.Graph

/-- What stands for a node in the listing. -/
def caption (g : Graph) (n : Node) : Except NoText String :=
  match n with
  | .entry => .ok "[entry]"
  | .exit => .ok "[exit]"
  | n => (g.statement n).text

/-- One line a node, with the nodes it leads to and those that lead to it. -/
def summary (g : Graph) : Except NoText String := do
  let rows ← g.positions.mapM fun p => do
    let n := g.node p
    let succ ← (g.outgoing.get p).toList.mapM fun e =>
      return Decimal.text (g.index e.target) ++ "(" ++ e.kind.name ++ (← e.caseText " ") ++ ")"
    let pred := (g.incoming.get p).toList.map fun e => Decimal.text (g.index e.source)
    return "  " ++ Decimal.text (g.index n) ++ ": " ++ (← g.caption n) ++
      "  succ=[" ++ ", ".intercalate succ ++ "]  pred=[" ++ ", ".intercalate pred ++ "]"
  return "\n".intercalate (g.title :: rows)

/-! ## DOT -/

/-- The identifier of a node in a drawing. -/
def dotName (g : Graph) : Node → String
  | .entry => "ENTRY"
  | .exit => "EXIT"
  | n => "S" ++ Decimal.text (g.index n)

/-- A text with its double quotes escaped. -/
def dotEscaped (s : String) : String :=
  String.ofList (s.toList.flatMap fun c => if c = '\x22' then ['\\', c] else [c])

def dotNode (g : Graph) (dead : List Node) (n : Node) : Except NoText String := do
  let caption ← g.caption n
  let (label, style) := match n with
    | .entry => (caption, ", style=filled, fillcolor=\"#ccffcc\"")
    | .exit => (caption, ", style=filled, fillcolor=\"#ffcccc\"")
    | n =>
      (dotEscaped (Decimal.text (g.index n) ++ ": " ++ caption),
        if n ∈ dead then ", style=filled, fillcolor=\"#dddddd\", fontcolor=\"#777777\"" else "")
  return "  " ++ g.dotName n ++ " [label=\"" ++ label ++ "\"" ++ style ++ "];"

def dotEdge (g : Graph) (e : Edge) : Except NoText String := do
  let extra ← e.caseText ": "
  let style := match e.kind with
    | .ifTrue => ", color=green, fontcolor=green"
    | .ifFalse => ", color=red, fontcolor=red"
    | .switchDefault => ", style=dashed"
    | _ => ""
  return "  " ++ g.dotName e.source ++ " -> " ++ g.dotName e.target ++ " [label=\"" ++ e.kind.name ++
    extra ++ "\"" ++ style ++ "];"

/-- A drawing of the graph for Graphviz; the statements in `dead` are greyed out. An empty title is left
out. -/
def dot (g : Graph) (title : String) (dead : List Node) : Except NoText String := do
  let nodes ← g.positions.mapM fun p => g.dotNode dead (g.node p)
  let edges ← g.edges.toList.mapM g.dotEdge
  let head := if title.isEmpty then [] else ["  label=\"" ++ title ++ "\";"]
  return "\n".intercalate
    (["digraph CFG \x7b"] ++ head ++ ["  node [shape=box, fontname=monospace, fontsize=10];"] ++
      nodes ++ edges ++ ["\x7d"])

end Dataflow.Graph
