import Dataflow.Reading.Form
import Dataflow.Routine.Stmt
import Dataflow.Text.Quoted
/-!
# Names and variables

While lines are read in order, a scope holds the variables known so far. A variable enters it when it is
declared or first mentioned; one that was never declared is an `int`.
-/
namespace Dataflow.Reading

/-- What can be wrong with a line. -/
inductive SyntaxFault where
  | unreadable (text : String) (column : Nat)
  | literalRange (text : String)
  | duplicateLabel (name : String)
  | unknownLabel (name : String)
  | duplicateParam (name : String)
  | redeclared (name : String) (type known : Ty)
  | duplicateCase (n : Int)
  deriving DecidableEq

def SyntaxFault.message : SyntaxFault → String
  | unreadable text column =>
    "cannot parse " ++ Text.quoted text ++ " (column " ++ Decimal.text column ++ ")"
  | literalRange text => "integer literal " ++ text ++ " does not fit in 32 bits"
  | duplicateLabel name => "duplicate label " ++ Text.quoted name
  | unknownLabel name => "unknown label " ++ Text.quoted name
  | duplicateParam name => "duplicate parameter " ++ Text.quoted name
  | redeclared name type known =>
    "variable " ++ Text.quoted name ++ " redeclared as " ++ type.name ++
      " (already " ++ known.name ++ ")"
  | duplicateCase n => "duplicate case " ++ Decimal.text n

inductive ReadError where
  | atLine (line : Nat) (fault : SyntaxFault)
  /-- A literal has more digits than are converted to a number. -/
  | literalTooLong
  deriving DecidableEq

structure Scope where
  vars : List Var := []
  params : List Var := []

abbrev Scoped := StateT Scope (Except ReadError)

namespace Scope

def find? (s : Scope) (name : String) : Option Var := s.vars.find? (·.name = name)

def push (s : Scope) (v : Var) : Scope := { s with vars := s.vars ++ [v] }

end Scope

/-- The variable of a name, which becomes known here if it is not yet. -/
def mention (name : String) : Scoped Var := do
  let scope ← get
  match scope.find? name with
  | some v => return v
  | none =>
    let v : Var := { name }
    set (scope.push v)
    return v

section
variable (line : Nat)

/-- The variable of a name with the type it is declared of. -/
def declare (type : Ty) (name : String) : Scoped Var := do
  let scope ← get
  match scope.find? name with
  | some v =>
    if v.type = type then return v
    else throw (.atLine line (.redeclared name type v.type))
  | none =>
    let v : Var := { name, type }
    set (scope.push v)
    return v

/-- The number a literal stands for, if it fits in 32 bits. -/
def Numeral.read (n : Numeral) : Scoped Int :=
  if n.digits.length > Decimal.maxDigits then throw .literalTooLong
  else if -0x80000000 ≤ n.value ∧ n.value < 0x80000000 then return n.value
  else throw (.atLine line (.literalRange n.text))

def Atom.read : Atom → Scoped Operand
  | number n => return .literal (← n.read line)
  | name s => return .var (← mention s)

/-- The base of a field is a variable only if one of its name is already known. -/
def readField (base name : String) : Scoped Expr := do
  match (← get).find? base with
  | some v => return .field v name
  | none => return .staticField base name

def Place.read : Place → Scoped Expr
  | element array index => do
    let index ← index.read line
    return .element (← mention array) index
  | field base member => readField base member
  | name s => return .var (← mention s)

def Source.read : Source → Scoped Expr
  | allocate type => return .allocate (.ofName type)
  | cast type value => return .cast (.ofName type) (← value.read line)
  | binary left op right => do
    let left ← left.read line
    return .binary op left (← right.read line)
  | negate name => return .negate (← mention name)
  | number n => return .literal (← n.read line)
  | place p => p.read line

/-- The first number that has been seen before. -/
def repeated? (seen : List Int) : List Int → Option Int
  | [] => none
  | n :: rest => if n ∈ seen then some n else repeated? (n :: seen) rest

/-- The statement of a form, over the names of labels; a declaration has none. -/
def Form.read : Form → Scoped (Option (Stmt String))
  | param type name => do
    if (← get).params.any (·.name = name) then throw (.atLine line (.duplicateParam name))
    let v ← Reading.declare line (.ofName type) name
    modify fun scope => { scope with params := scope.params ++ [v] }
    return none
  | declare type names => do
    names.forM fun name => discard (Reading.declare line (.ofName type) name)
    return none
  | branch left op right label => do
    let left ← left.read line
    let right ← right.read line
    return some (.branch (.binary (.compare op) left right) (some label))
  | goto label => return some (.goto (some label))
  | switch scrutinee arms default => do
    let arms ← arms.mapM fun (n, label) => return (← n.read line, some label)
    let v ← mention scrutinee
    match repeated? [] (arms.map (·.1)) with
    | some n => throw (.atLine line (.duplicateCase n))
    | none => return some (.switch v arms default)
  | .return value => return some (.return (← value.mapM (·.read line)))
  | nop => return some .nop
  | invoke result method args => do
    let args ← args.mapM (·.read line)
    return some (.invoke (.call method args) (← result.mapM mention))
  | assign place source => do
    let target ← place.read line
    return some (.assign target (← source.read line))

end

end Dataflow.Reading
