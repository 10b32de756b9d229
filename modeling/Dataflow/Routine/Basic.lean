import Dataflow.Routine.Stmt
import Dataflow.Text.Quoted
/-!
# Routines

A routine is its parameters and its statements in order; a statement is known by its position.
-/
namespace Dataflow

/-- A statement and the line of the text it was read from. -/
structure Line where
  stmt : Statement
  number : Option Nat := none
  deriving DecidableEq

structure Routine where
  name : String
  params : List Var
  body : Array Line
  /-- The variables, in the order in which they become known. -/
  vars : List Var
  deriving DecidableEq

namespace Routine

/-- Adds what is not there yet at the end. -/
def addVar (known : List Var) (v : Var) : List Var :=
  if v ∈ known then known else known ++ [v]

/-- The variables that statements mention, after those given: of each statement first the one it
defines, then those it reads. -/
def mentioned (given : List Var) (stmts : List Statement) : List Var :=
  stmts.foldl (fun known s => (s.defined?.toList ++ s.uses).foldl addVar known)
    (given.foldl addVar [])

/-- A routine that comes from no text. -/
def ofStmts (name : String) (params : List Var) (stmts : List Statement)
    (vars : Option (List Var)) : Routine where
  name
  params
  body := (stmts.map fun stmt => ⟨stmt, none⟩).toArray
  vars := vars.getD (mentioned params stmts)

def size (r : Routine) : Nat := r.body.size

def stmt? (r : Routine) (i : Nat) : Option Statement := r.body[i]?.map (·.stmt)

/-- The first variable of a name. -/
def var? (r : Routine) (name : String) : Option Var := r.vars.find? (·.name = name)

/-- How messages speak of the routine. -/
def title (r : Routine) : String :=
  "IR(method=" ++ Text.quoted r.name ++ ", stmts=" ++ Decimal.text r.size ++ ")"

/-- The head and the numbered statements, a line each. -/
def listing (r : Routine) : Except NoText String := do
  let head := ", ".intercalate (r.params.map fun p => p.type.name ++ " " ++ p.name)
  let rows ← r.body.toList.zipIdx.mapM fun (line, i) =>
    return "  " ++ Decimal.text i ++ ": " ++ (← line.stmt.text)
  return "\n".intercalate ((r.name ++ "(" ++ head ++ ")") :: rows)

end Routine

end Dataflow
