import Dataflow.Analyses.Int32
import Dataflow.Fact.Env
/-!
# Constant propagation

What is known of every variable that holds an integer, at every point. Only definitions of such variables
change an environment.
-/
namespace Dataflow.Constants

def operand (env : Env) : Operand → Value
  | .literal n => .const n
  | .var v => env.get v

/-- An operation on known operands is carried out. A divisor that is known to be zero leaves nothing to
be known; otherwise an operand that may vary makes the result vary. -/
def binary (op : BinOp) (a b : Value) : Except EvalError Value :=
  if op.divides && b = .const 0 then .ok .undefined
  else match a, b with
    | .nac, _ | _, .nac => .ok .nac
    | .const m, .const n => (Int32.fold op m n).map .const
    | _, _ => .ok .undefined

/-- The value of an expression. Literals count as they are written, and what is neither an operand nor an
operation may be anything. -/
def evaluate (env : Env) : Expr → Except EvalError Value
  | .operand o => .ok (operand env o)
  | .binary op l r => binary op (operand env l) (operand env r)
  | _ => .ok .nac

/-- The definition that a statement makes of a variable that holds an integer, if it makes one. -/
def definition? (s : Statement) : Option (Var × Expr) :=
  match s.defined?, s.value? with
  | some v, some e => if v.holdsInt then some (v, e) else none
  | _, _ => none

/-- The environment after a statement. -/
def effect (s : Statement) (env : Env) : Except EvalError Env :=
  match definition? s with
  | some (v, e) => (evaluate env e).map (env.set v)
  | none => .ok env

/-- At the start every parameter that holds an integer may be any. -/
def boundary (r : Routine) : Env :=
  (r.params.filter Var.holdsInt).foldl (fun env v => env.set v .nac) .empty

def analysis : Analysis Env where
  id := "constprop"
  label := "ConstantPropagation"
  direction := .forward
  boundary := boundary
  initial := .empty
  merge source target := (source.mergeInto target).1
  transfer p before after := (effect p.stmt before).map after.replace
  le := Env.le

end Dataflow.Constants
