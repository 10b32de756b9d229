import Dataflow.Datum
/-!
# Abstract values

What is known of an integer variable at a point: nothing yet (`undefined`), that it is one constant, or
that it may vary (`nac`). The order is flat, with the constants side by side between the two.
-/
namespace Dataflow

inductive Value where
  | undefined
  | const (n : Int)
  | nac
  deriving DecidableEq

namespace Value

def le : Value → Value → Bool
  | undefined, _ | _, nac => true
  | const m, const n => m = n
  | _, _ => false

/-- The least value above both: equal constants survive, different ones do not. -/
def join : Value → Value → Value
  | nac, _ | _, nac => nac
  | undefined, v | v, undefined => v
  | const m, const n => if m = n then const m else nac

def constant? : Value → Option Int
  | const n => some n
  | _ => none

/-- The constant that an untyped value is, if it is an integer. -/
def ofDatum? : Datum → Option Value
  | .int n => some (const n)
  | _ => none

def text : Value → Except NoText String
  | undefined => .ok "UNDEF"
  | const n => Decimal.shown n
  | nac => .ok "NAC"

/-- How a value that is no constant is reported. -/
def notConstant (v : Value) : Except NoText String := return (← v.text) ++ " is not a constant"

/-- How a given constant that is no integer is reported. -/
def notInteger (given : Datum) : Except NoText String :=
  return "constant must be an int, got " ++ (← given.shown)

/-! ## A join semilattice -/

theorem le_refl (v : Value) : v.le v = true := by cases v <;> simp [le]

theorem le_trans {u v w : Value} (h : u.le v = true) (h' : v.le w = true) : u.le w = true := by
  cases u <;> cases v <;> cases w <;> simp_all [le]

theorem le_antisymm {u v : Value} (h : u.le v = true) (h' : v.le u = true) : u = v := by
  cases u <;> cases v <;> simp_all [le]

theorem undefined_le (v : Value) : undefined.le v = true := by simp [le]

theorem le_undefined {v : Value} : v.le undefined = true ↔ v = undefined := by cases v <;> simp [le]

theorem le_join_left (u v : Value) : u.le (u.join v) = true := by
  cases u <;> cases v <;> grind [le, join]

theorem join_comm (u v : Value) : u.join v = v.join u := by
  cases u <;> cases v <;> grind [join]

theorem join_le {u v w : Value} (h : u.le w = true) (h' : v.le w = true) : (u.join v).le w = true := by
  cases u <;> cases v <;> cases w <;> grind [le, join]

end Value

end Dataflow
