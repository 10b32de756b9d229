/-!
# Types and variables
-/
namespace Dataflow

inductive Primitive where
  | byte | short | int | char | boolean | long | float | double
  deriving DecidableEq

namespace Primitive

def all : List Primitive := [byte, short, int, char, boolean, long, float, double]

def name : Primitive → String
  | byte => "byte"
  | short => "short"
  | int => "int"
  | char => "char"
  | boolean => "boolean"
  | long => "long"
  | float => "float"
  | double => "double"

/-- The values of the type fit in 32 bits and are integers. -/
def holdsInt : Primitive → Bool
  | byte | short | int | char | boolean => true
  | long | float | double => false

theorem mem_all (p : Primitive) : p ∈ all := by cases p <;> decide

end Primitive

inductive Ty where
  | primitive (p : Primitive)
  /-- A class or an array, known by its name. -/
  | reference (name : String)
  deriving DecidableEq

namespace Ty

def name : Ty → String
  | primitive p => p.name
  | reference n => n

def holdsInt : Ty → Bool
  | primitive p => p.holdsInt
  | reference _ => false

/-- The type a name stands for: a primitive one where the name is its own, else a reference. -/
def ofName (s : String) : Ty :=
  match Primitive.all.find? (·.name = s) with
  | some p => primitive p
  | none => reference s

theorem name_ofName (s : String) : (ofName s).name = s := by
  unfold ofName
  split
  next p h => show p.name = s; simpa using List.find?_some h
  next => rfl

end Ty

/-- A local variable or a parameter. Two variables of one name and different types are different. -/
structure Var where
  name : String
  type : Ty := .primitive .int
  deriving DecidableEq

/-- The variable's declared type holds an integer of at most 32 bits. -/
def Var.holdsInt (v : Var) : Bool := v.type.holdsInt

end Dataflow
