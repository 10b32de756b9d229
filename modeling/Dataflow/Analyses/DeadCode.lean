import Dataflow.Analyses.Constants
import Dataflow.Analyses.Liveness
import Dataflow.Graph.Reach
import Dataflow.Solver.Solve
/-!
# Dead statements

A statement is dead if no path of feasible edges reaches it, or if it assigns a variable that is not live
afterwards a value whose evaluation nobody notices. An edge is feasible unless the constant that decides
its branch is known and decides for another one.
-/
namespace Dataflow.DeadCode

inductive DetectError where
  | malformed (fault : Malformed)
  | effect (e : EvalError)
  /-- The message of a fault would have to show what has no text. -/
  | noText (why : NoText)
  deriving DecidableEq

/-- What is reported of a switch on a constant that no edge out of it is for. -/
def DetectError.noArm (index n : Int) : DetectError :=
  match Decimal.shown n with
  | .ok shown => .malformed (.noMatchingCase index shown)
  | .error why => .noText why

@[simp] theorem DetectError.noArm_ne_effect (index n : Int) (e : EvalError) : noArm index n ≠ .effect e := by
  unfold noArm
  split <;> simp

/-- Why a statement is dead. -/
inductive Reason where
  | unreachable
  | useless
  deriving DecidableEq

structure Finding where
  index : Nat
  reason : Reason
  deriving DecidableEq

/-- Of the edges out of a switch, the first for a constant: the first edge of that case, or else the first
default edge. -/
def armFor? (edges : List Edge) (n : Int) : Option Edge :=
  (edges.find? fun e => e.kind = .switchCase ∧ e.caseValue = some n).or
    (edges.find? (·.kind = .switchDefault))

/-- The edges out of a node that the facts after it leave open. -/
def feasible (index : Int) (s : Statement) (env : Env) (edges : List Edge) :
    Except DetectError (List Edge) :=
  match s with
  | .branch condition _ =>
    match Constants.evaluate env condition with
    | .error e => .error (.effect e)
    | .ok (.const n) =>
      .ok (edges.filter (·.kind = if n = 0 then .ifFalse else .ifTrue))
    | .ok _ => .ok edges
  | .switch scrutinee _ _ =>
    match env.get scrutinee with
    | .const n =>
      match armFor? edges n with
      | some e => .ok [e]
      | none => .error (.noArm index n)
    | _ => .ok edges
  | _ => .ok edges

variable (g : Graph)

/-- Where the feasible edges out of a place lead. -/
def feasibleSuccs (constants : Facts Env g.size) (p : Fin g.size) :
    Except DetectError (List (Fin g.size)) :=
  let point := g.point p
  (feasible point.index point.stmt (constants.outs.get p) (g.outgoing.get p).toList).map
    fun edges => edges.filterMap fun e => g.position? e.target

/-- The places that feasible edges reach from the entry. -/
def reachable (constants : Facts Env g.size) : Except DetectError (List (Fin g.size)) :=
  Graph.explore (feasibleSuccs g constants) g.entry

/-- An assignment to a variable that is not live afterwards, of a value that is not missed. -/
def isUseless (s : Statement) (liveAfter : VarSet) : Bool :=
  match s with
  | .assign target value =>
    target.var?.any fun v => value.isPure && !liveAfter.contains v
  | _ => false

/-- Why the statement at a place is dead, if it is. -/
def reason? (reached : List (Fin g.size)) (live : Facts VarSet g.size) (p : Fin g.size) :
    Option Reason :=
  if p ∉ reached then some .unreachable
  else if isUseless (g.point p).stmt (live.outs.get p) then some .useless
  else none

/-- The dead statements, in the order of their indexes. -/
def detect (constants : Facts Env g.size) (live : Facts VarSet g.size) :
    Except DetectError (List Finding) := do
  let reached ← reachable g constants
  return g.positions.filterMap fun p =>
    match g.node p with
    | .stmt i => (reason? g reached live p).map (⟨i, ·⟩)
    | _ => none

/-! ## On behalf of a routine -/

/-- The routine that a client asks about: the one the graph was built from, or another one. -/
inductive Owner where
  | same
  | other (r : Routine)

def id : String := "deadcode"

def title : String := "DeadCodeDetection(id=" ++ Text.quoted id ++ ")"

/-- Detects dead statements for a client; another routine than the graph's own is refused, even if it
reads the same. -/
def analyze (owner : Owner) (constants : Facts Env g.size) (live : Facts VarSet g.size) :
    Except DetectError (List Finding) :=
  match owner with
  | .same => detect g constants live
  | .other r => .error (.malformed (.otherRoutine g.title r.title))

end Dataflow.DeadCode
