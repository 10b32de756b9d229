import Dataflow.Routine.Basic
/-!
# Flow graphs

The nodes of a flow graph are the statements of a routine between an entry and an exit; its edges say how
control may pass from one to the next. The edges are kept in the order in which they were added, and once
more at either end.
-/
namespace Dataflow

inductive Node where
  | entry
  | stmt (i : Nat)
  | exit
  /-- A lone `nop` that is a node of no graph. -/
  | detached
  deriving DecidableEq

inductive EdgeKind where
  | entry | fallThrough | goto | ifTrue | ifFalse | switchCase | switchDefault | return
  deriving DecidableEq

namespace EdgeKind

def all : List EdgeKind :=
  [entry, fallThrough, goto, ifTrue, ifFalse, switchCase, switchDefault, .return]

def name : EdgeKind → String
  | entry => "entry"
  | fallThrough => "fall-through"
  | goto => "goto"
  | ifTrue => "if-true"
  | ifFalse => "if-false"
  | switchCase => "switch-case"
  | switchDefault => "switch-default"
  | .return => "return"

def ofName? (s : String) : Option EdgeKind := all.find? (·.name = s)

end EdgeKind

/-- An edge; the case value is the constant that a `switchCase` edge is taken for. -/
structure Edge where
  source : Node
  target : Node
  kind : EdgeKind
  caseValue : Option Int
  deriving DecidableEq

/-- The case value after a lead, where there is one. -/
def Edge.caseText (e : Edge) (lead : String) : Except NoText String :=
  match e.caseValue with
  | none => .ok ""
  | some n => return lead ++ (← Decimal.shown n)

structure Graph where
  routine : Routine
  edges : Array Edge
  outgoing : Vector (Array Edge) (routine.size + 2)
  incoming : Vector (Array Edge) (routine.size + 2)

/-! ## What can be wrong with a graph -/

inductive Malformed where
  | outside (index : Nat) (text : String)
  | noTargets (index : Nat)
  | foreignEndpoint (node graph : String)
  | exitAsSource
  | entryAsTarget
  | caseMismatch (kind : EdgeKind) (source target : Int) (caseValue : String)
  | noMatchingCase (index : Int) (scrutinee : String)
  | otherRoutine (graph routine : String)
  deriving DecidableEq

namespace Malformed

def message : Malformed → String
  | outside index text =>
    "statement " ++ Decimal.text index ++ " (" ++ text ++ ") jumps outside its routine"
  | noTargets index => "switch at " ++ Decimal.text index ++ " has no targets"
  | foreignEndpoint node graph => "edge endpoint " ++ node ++ " is not a node of " ++ graph
  | exitAsSource => "the exit node cannot have successors"
  | entryAsTarget => "the entry node cannot have predecessors"
  | caseMismatch kind source target caseValue =>
    kind.name ++ " edge " ++ Decimal.text source ++ "->" ++ Decimal.text target ++ ": case value " ++
      caseValue ++ " is inconsistent with the edge kind"
  | noMatchingCase index scrutinee =>
    "switch at " ++ Decimal.text index ++ " on constant " ++ scrutinee ++
      " has no matching case and no default edge"
  | otherRoutine graph routine => graph ++ " was not built from " ++ routine

end Malformed

/-- Why a graph is not built or not changed. -/
inductive BuildError where
  | malformed (fault : Malformed)
  /-- The message of a fault would have to show what has no text. -/
  | noText (why : NoText)
  deriving DecidableEq

/-- A fault whose message shows a text, where there is one. -/
def BuildError.showing (fault : String → Malformed) (text : Except NoText String) : BuildError :=
  match text with
  | .ok t => .malformed (fault t)
  | .error why => .noText why

namespace Graph

/-! ## Nodes -/

/-- The number of nodes. -/
abbrev size (g : Graph) : Nat := g.routine.size + 2

/-- The place of a node in the order entry, statements, exit. -/
def position? (g : Graph) : Node → Option (Fin g.size)
  | .entry => some ⟨0, Nat.succ_pos _⟩
  | .stmt i => if h : i < g.routine.size then some ⟨i + 1, Nat.succ_lt_succ (Nat.lt_succ_of_lt h)⟩ else none
  | .exit => some ⟨g.routine.size + 1, Nat.lt_succ_self _⟩
  | .detached => none

def contains (g : Graph) (n : Node) : Bool := (g.position? n).isSome

def node (g : Graph) (p : Fin g.size) : Node :=
  if p.val = 0 then .entry else if p.val = g.routine.size + 1 then .exit else .stmt (p.val - 1)

def entry (g : Graph) : Fin g.size := ⟨0, Nat.succ_pos _⟩

def exit (g : Graph) : Fin g.size := ⟨g.routine.size + 1, Nat.lt_succ_self _⟩

def positions (g : Graph) : List (Fin g.size) := List.finRange g.size

/-- The index of a node: -1 for the entry and for what is in no graph, the number of statements for the
exit. -/
def index (g : Graph) : Node → Int
  | .entry | .detached => -1
  | .stmt i => i
  | .exit => g.routine.size

/-- What a node does; only statements do anything. -/
def statement (g : Graph) : Node → Statement
  | .stmt i => (g.routine.stmt? i).getD .nop
  | _ => .nop

/-- How messages speak of the graph. -/
def title (g : Graph) : String :=
  "CFG(method=" ++ Text.quoted g.routine.name ++ ", nodes=" ++ Decimal.text g.size ++
    ", edges=" ++ Decimal.text g.edges.size ++ ")"

/-- How messages speak of a node outside the graph. -/
def foreignTag (g : Graph) (n : Node) : String :=
  "<Nop " ++ Decimal.text (g.index n) ++ ": nop>"

@[simp] theorem position?_node (g : Graph) (p : Fin g.size) : g.position? (g.node p) = some p := by
  obtain ⟨p, hp⟩ := p
  unfold node
  split
  next h => simp only [position?, Option.some.injEq, Fin.mk.injEq]; exact h.symm
  next =>
    split
    next h => simp only [position?, Option.some.injEq, Fin.mk.injEq]; exact h.symm
    next h₀ h =>
      simp only at h₀ h
      have hlt : p - 1 < g.routine.size := by simp only [size] at hp; omega
      simp only [position?, hlt, dite_true, Option.some.injEq, Fin.mk.injEq]
      omega

theorem node_of_position? {g : Graph} {n : Node} {p : Fin g.size} (h : g.position? n = some p) :
    g.node p = n := by
  cases n with
  | entry => simp only [position?, Option.some.injEq] at h; subst h; simp [node]
  | exit => simp only [position?, Option.some.injEq] at h; subst h; simp [node]
  | detached => simp [position?] at h
  | stmt i =>
    simp only [position?] at h
    split at h
    next hi =>
      simp only [Option.some.injEq] at h
      subst h
      simp [node, show i ≠ g.routine.size by omega]
    next => simp at h

/-! ## Edges -/

/-- The graph without edges. -/
def empty (r : Routine) : Graph where
  routine := r
  edges := #[]
  outgoing := Vector.replicate _ #[]
  incoming := Vector.replicate _ #[]

/-- An edge between two nodes; it carries a case value exactly if its kind asks for one. -/
def edge (g : Graph) (source target : Node) (kind : EdgeKind) (caseValue : Option Int) :
    Except BuildError Edge :=
  if decide (kind = .switchCase) = caseValue.isSome then .ok ⟨source, target, kind, caseValue⟩
  else
    .error (.showing (.caseMismatch kind (g.index source) (g.index target))
      (caseValue.elim (.ok "None") Decimal.shown))

/-- Adds an edge at the end and at its two nodes. -/
def insert (g : Graph) (e : Edge) (source target : Fin g.size) : Graph where
  routine := g.routine
  edges := g.edges.push e
  outgoing := g.outgoing.setIfInBounds source ((g.outgoing.get source).push e)
  incoming := g.incoming.setIfInBounds target ((g.incoming.get target).push e)

/-- A change of a graph in place. What has been written before a fault stays written. -/
abbrev Edit := EStateM BuildError Graph

namespace Edit

/-- Refuses what is no node of the graph. -/
def demand (n : Node) : Edit Unit := do
  let g ← get
  unless g.contains n do throw (.malformed (.foreignEndpoint (g.foreignTag n) g.title))

/-- Writes an edge at the end of the list. -/
def list (e : Edge) : Edit Unit := modify fun g => { g with edges := g.edges.push e }

/-- Writes an edge at its source. -/
def leave (e : Edge) : Edit Unit := modify fun g =>
  match g.position? e.source with
  | none => g
  | some s => { g with outgoing := g.outgoing.setIfInBounds s ((g.outgoing.get s).push e) }

/-- Writes an edge at its target. -/
def enter (e : Edge) : Edit Unit := modify fun g =>
  match g.position? e.target with
  | none => g
  | some t => { g with incoming := g.incoming.setIfInBounds t ((g.incoming.get t).push e) }

/-- The edge that is asked for, unless an end is foreign, it leaves the exit, it enters the entry, or its
case value does not suit its kind; of several faults the first counts. -/
def allow (source target : Node) (kind : EdgeKind) (caseValue : Option Int) : Edit Edge := do
  demand source
  demand target
  if source = .exit then throw (.malformed .exitAsSource)
  else if target = .entry then throw (.malformed .entryAsTarget)
  else
    match (← get).edge source target kind caseValue with
    | .error e => throw e
    | .ok e => return e

def addEdge (source target : Node) (kind : EdgeKind) (caseValue : Option Int) : Edit Edge := do
  let e ← allow source target kind caseValue
  list e
  leave e
  enter e
  return e

end Edit

/-- The graph with one edge more, and the edge. -/
def addEdge (g : Graph) (source target : Node) (kind : EdgeKind) (caseValue : Option Int) :
    Except BuildError (Graph × Edge) :=
  match (Edit.addEdge source target kind caseValue).run g with
  | .ok e g => .ok (g, e)
  | .error e _ => .error e

/-! ## Queries -/

/-- The edges that leave a node, unless it is foreign. -/
def outEdges? (g : Graph) (n : Node) : Option (Array Edge) := (g.position? n).map g.outgoing.get

/-- The edges that enter a node, unless it is foreign. -/
def inEdges? (g : Graph) (n : Node) : Option (Array Edge) := (g.position? n).map g.incoming.get

/-- The targets of the edges that leave a place, as often as there are edges to them. -/
def succs (g : Graph) (p : Fin g.size) : List (Fin g.size) :=
  (g.outgoing.get p).toList.filterMap fun e => g.position? e.target

/-- The sources of the edges that enter a place, as often as there are edges from them. -/
def preds (g : Graph) (p : Fin g.size) : List (Fin g.size) :=
  (g.incoming.get p).toList.filterMap fun e => g.position? e.source

/-- The number of edges, counting equal ones once. -/
def distinctEdges (g : Graph) : Nat := g.edges.toList.eraseDups.length

/-- The place of the first equal edge. -/
def indexOf? (g : Graph) (e : Edge) : Option Nat := g.edges.findIdx? (· = e)

/-- How messages speak of an edge. -/
def edgeTag (g : Graph) (e : Edge) : Except NoText String := do
  let extra ← e.caseText ", case="
  return "CFGEdge(" ++ Decimal.text (g.index e.source) ++ " -> " ++ Decimal.text (g.index e.target) ++
    ", kind=" ++ Text.quoted e.kind.name ++ extra ++ ")"

end Graph

end Dataflow
