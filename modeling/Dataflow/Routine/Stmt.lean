import Dataflow.Routine.Expr
/-!
# Statements

A statement is written over the type of its jump targets: a reader first knows them as labels, a
routine as positions. A target that is not known yet is `none`.
-/
namespace Dataflow

inductive Stmt (τ : Type) where
  | assign (target value : Expr)
  | invoke (call : Expr) (result : Option Var)
  | branch (condition : Expr) (target : Option τ)
  | goto (target : Option τ)
  | switch (scrutinee : Var) (cases : List (Int × Option τ)) (default : Option τ)
  | return (value : Option Operand)
  | nop
  deriving DecidableEq

namespace Stmt

variable {τ υ : Type}

/-- What a statement is called where it is shown. -/
def kind : Stmt τ → String
  | assign .. => "AssignStmt"
  | invoke .. => "Invoke"
  | branch .. => "If"
  | goto _ => "Goto"
  | switch .. => "SwitchStmt"
  | .return _ => "Return"
  | nop => "Nop"

/-- The place written, if any. -/
def target? : Stmt τ → Option Expr
  | assign target _ => some target
  | invoke _ result => result.map .var
  | _ => none

/-- The variable written, if any. A store through a field or an element writes none. -/
def defined? (s : Stmt τ) : Option Var := s.target?.bind Expr.var?

/-- What a definition computes. -/
def value? : Stmt τ → Option Expr
  | assign _ value => some value
  | invoke call _ => some call
  | _ => none

/-- The variables read, in order, as often as they are read. A store through a field or an element
reads what says where. -/
def uses : Stmt τ → List Var
  | assign target value => value.uses ++ (if target.var?.isSome then [] else target.uses)
  | invoke call _ => call.uses
  | branch condition _ => condition.uses
  | goto _ => []
  | switch scrutinee _ _ => [scrutinee]
  | .return value => value.elim [] Operand.uses
  | nop => []

/-- The targets named, the arms of a switch first. -/
def targets : Stmt τ → List τ
  | branch _ target | goto target => target.toList
  | switch _ cases default => cases.filterMap (·.2) ++ default.toList
  | _ => []

/-- Puts a target in the place of every known one, in the order of `targets`. -/
def mapTargets {ε : Type} (f : τ → Except ε υ) : Stmt τ → Except ε (Stmt υ)
  | assign target value => .ok (assign target value)
  | invoke call result => .ok (invoke call result)
  | branch condition target => return branch condition (← target.mapM f)
  | goto target => return goto (← target.mapM f)
  | switch scrutinee cases default => do
    let cases ← cases.mapM fun (n, target) => return (n, ← target.mapM f)
    return switch scrutinee cases (← default.mapM f)
  | .return value => .ok (.return value)
  | nop => .ok nop

end Stmt

/-! ## Statements of a routine -/

/-- Where a jump goes: to a statement of its routine, or to a lone `nop` that stands in none. -/
inductive Target where
  | stmt (i : Nat)
  | detached
  deriving DecidableEq

/-- What stands in no routine has the index -1. -/
def Target.index : Target → Int
  | stmt i => i
  | detached => -1

abbrev Statement := Stmt Target

namespace Stmt

/-- A destination, with a question mark for one that is not known. -/
def destination (target : Option Target) : String :=
  target.elim "?" fun t => Decimal.text t.index

/-- The arm of a switch; its target must be known. -/
def arm : Int × Option Target → Except NoText String
  | (n, target) => do
    let value ← Decimal.shown n
    match target with
    | some t => return "case " ++ value ++ ": goto " ++ Decimal.text t.index ++ ";"
    | none => .error .missing

/-- The text of a statement. There is none where an integer in it is too long or an arm of a switch lacks
its target; of several such faults the first counts. -/
def text : Statement → Except NoText String
  | assign target value => return (← target.text) ++ " = " ++ (← value.text)
  | invoke call none => call.text
  | invoke call (some v) => return v.name ++ " = " ++ (← call.text)
  | branch condition target =>
    return "if (" ++ (← condition.text) ++ ") goto " ++ destination target
  | goto target => .ok ("goto " ++ destination target)
  | switch scrutinee cases default => do
    let arms ← cases.mapM arm
    let last := default.toList.map fun t => "default: goto " ++ Decimal.text t.index ++ ";"
    return "switch (" ++ scrutinee.name ++ ") \x7b" ++ " ".intercalate (arms ++ last) ++ "\x7d"
  | .return none => .ok "return"
  | .return (some o) => return "return " ++ (← o.text)
  | nop => .ok "nop"

/-- The text of a statement with its kind and its index, in angle brackets. -/
def tag (index : Int) (s : Statement) : Except NoText String :=
  return "<" ++ s.kind ++ " " ++ Decimal.text index ++ ": " ++ (← s.text) ++ ">"

end Stmt

end Dataflow
