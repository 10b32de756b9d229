import Dataflow.Routine.Expr
import Dataflow.Solver.Analysis
/-!
# Integers of 32 bits

Operations take integers of any size, reduce them to 32 bits with a sign, and give such an integer back.
Sums and products wrap, division truncates towards zero, a remainder has the sign of the dividend, and a
shift goes by the low five bits of its distance.
-/
namespace Dataflow.Int32

/-- The integer of 32 bits with a sign that is equal up to a multiple of 2 ^ 32. -/
def wrap (n : Int) : Int := n.bmod 0x100000000

/-- The same 32 bits without a sign. -/
def unsigned (n : Int) : Nat := (n % 0x100000000).toNat

/-- The distance of a shift. -/
def distance (n : Int) : Nat := (n % 32).toNat

def truth (b : Bool) : Int := if b then 1 else 0

def arith (op : ArithOp) (a b : Int) : Except EvalError Int :=
  match op with
  | .add => .ok (a + b)
  | .sub => .ok (a - b)
  | .mul => .ok (a * b)
  | .div => if b = 0 then .error .divisionByZero else .ok (a.tdiv b)
  | .rem => if b = 0 then .error .divisionByZero else .ok (a.tmod b)

def compare (op : CompareOp) (a b : Int) : Bool :=
  match op with
  | .eq => a = b
  | .ne => a ≠ b
  | .lt => a < b
  | .gt => a > b
  | .le => a ≤ b
  | .ge => a ≥ b

def shift (op : ShiftOp) (a b : Int) : Int :=
  match op with
  | .left => a <<< distance b
  | .right => a >>> distance b
  | .rightZero => unsigned a >>> distance b

def bits (op : BitOp) (a b : Int) : Nat :=
  match op with
  | .or => unsigned a ||| unsigned b
  | .and => unsigned a &&& unsigned b
  | .xor => unsigned a ^^^ unsigned b

/-- An operation on operands that fit in 32 bits; the result need not fit. -/
def apply (op : BinOp) (a b : Int) : Except EvalError Int :=
  match op with
  | .arith op => arith op a b
  | .compare op => .ok (truth (compare op a b))
  | .shift op => .ok (shift op a b)
  | .bits op => .ok (bits op a b)

/-- An operation on the 32 bits of its operands. It fails where a divisor is zero in 32 bits. -/
def fold (op : BinOp) (a b : Int) : Except EvalError Int :=
  (apply op (wrap a) (wrap b)).map wrap

theorem wrap_range (n : Int) : -0x80000000 ≤ wrap n ∧ wrap n < 0x80000000 := by
  have := Int.le_bmod (x := n) (m := 0x100000000) (by decide)
  have := Int.bmod_lt (x := n) (m := 0x100000000) (by decide)
  unfold wrap
  omega

end Dataflow.Int32
