import Dataflow.Decimal.Integer
import Dataflow.Routine.Ty
import Dataflow.Text.Quoted
/-!
# Expressions

The operands of an expression are variables and integer literals, so no expression nests another.
-/
namespace Dataflow

inductive Operand where
  | var (v : Var)
  /-- An integer of any size: what fits in 32 bits is the reader's concern. -/
  | literal (n : Int)
  deriving DecidableEq

namespace Operand

def uses : Operand → List Var
  | var v => [v]
  | literal _ => []

def text : Operand → Except NoText String
  | var v => .ok v.name
  | literal n => Decimal.shown n

end Operand

/-! ## Operators -/

inductive ArithOp where
  | add | sub | mul | div | rem
  deriving DecidableEq

inductive CompareOp where
  | eq | ne | lt | gt | le | ge
  deriving DecidableEq

inductive ShiftOp where
  /-- To the left, to the right with the sign, to the right with zeros. -/
  | left | right | rightZero
  deriving DecidableEq

inductive BitOp where
  | or | and | xor
  deriving DecidableEq

inductive BinOp where
  | arith (op : ArithOp)
  | compare (op : CompareOp)
  | shift (op : ShiftOp)
  | bits (op : BitOp)
  deriving DecidableEq

namespace BinOp

def all : List BinOp :=
  [arith .add, arith .sub, arith .mul, arith .div, arith .rem,
   compare .eq, compare .ne, compare .lt, compare .gt, compare .le, compare .ge,
   shift .left, shift .right, shift .rightZero, bits .or, bits .and, bits .xor]

def symbol : BinOp → String
  | arith .add => "+"
  | arith .sub => "-"
  | arith .mul => "*"
  | arith .div => "/"
  | arith .rem => "%"
  | compare .eq => "=="
  | compare .ne => "!="
  | compare .lt => "<"
  | compare .gt => ">"
  | compare .le => "<="
  | compare .ge => ">="
  | shift .left => "<<"
  | shift .right => ">>"
  | shift .rightZero => ">>>"
  | bits .or => "|"
  | bits .and => "&"
  | bits .xor => "^"

def ofSymbol? (s : String) : Option BinOp := all.find? (·.symbol = s)

/-- How a symbol of no operator is reported. -/
def unknown (s : String) : String := "Unknown binary operator " ++ Text.quoted s

/-- Division and remainder, the operators that a divisor can defeat. -/
def divides : BinOp → Bool
  | arith .div | arith .rem => true
  | _ => false

end BinOp

/-! ## Expressions -/

inductive Expr where
  | operand (o : Operand)
  | binary (op : BinOp) (left right : Operand)
  | negate (v : Var)
  /-- A new object or array. -/
  | allocate (type : Ty)
  | cast (type : Ty) (value : Operand)
  | field (base : Var) (name : String)
  | staticField (owner name : String)
  | element (array : Var) (index : Operand)
  | call (method : String) (args : List Operand)
  deriving DecidableEq

namespace Expr

abbrev var (v : Var) : Expr := operand (.var v)

abbrev literal (n : Int) : Expr := operand (.literal n)

/-- The variables read, in order, as often as they are read. -/
def uses : Expr → List Var
  | operand o => o.uses
  | binary _ l r => l.uses ++ r.uses
  | negate v => [v]
  | allocate _ => []
  | cast _ o => o.uses
  | field base _ => [base]
  | staticField _ _ => []
  | element array index => array :: index.uses
  | call _ args => args.flatMap Operand.uses

def text : Expr → Except NoText String
  | operand o => o.text
  | binary op l r => return (← l.text) ++ " " ++ op.symbol ++ " " ++ (← r.text)
  | negate v => .ok ("-" ++ v.name)
  | allocate t => .ok ("new " ++ t.name)
  | cast t o => return "(" ++ t.name ++ ") " ++ (← o.text)
  | field base name => .ok (base.name ++ "." ++ name)
  | staticField owner name => .ok (owner ++ "." ++ name)
  | element array index => return array.name ++ "[" ++ (← index.text) ++ "]"
  | call method args =>
    return "invoke " ++ method ++ "(" ++ ", ".intercalate (← args.mapM Operand.text) ++ ")"

/-- The variable an expression is, if it is nothing else. -/
def var? : Expr → Option Var
  | operand (.var v) => some v
  | _ => none

/-- Evaluation can be left out unnoticed. Allocation, casts, accesses and division may run code or
fail; a call stands in statements of its own, which are never left out. -/
def isPure : Expr → Bool
  | allocate _ | cast _ _ | field _ _ | staticField _ _ | element _ _ => false
  | binary op _ _ => !op.divides
  | operand _ | negate _ | call _ _ => true

end Expr

end Dataflow
