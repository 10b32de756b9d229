import Dataflow.Decimal.Integer
import Dataflow.Routine.Expr
/-!
# Forms

What a line says, before names stand for variables and labels for statements.
-/
namespace Dataflow.Reading

/-- An integer literal as it is written. -/
structure Numeral where
  negative : Bool
  digits : String
  deriving DecidableEq

namespace Numeral

def text (n : Numeral) : String := (if n.negative then "-" else "") ++ n.digits

def value (n : Numeral) : Int :=
  let magnitude : Int := Decimal.value n.digits.toList
  if n.negative then -magnitude else magnitude

end Numeral

inductive Atom where
  | number (n : Numeral)
  | name (s : String)
  deriving DecidableEq

/-- What can stand on the left of an assignment. -/
inductive Place where
  | element (array : String) (index : Atom)
  | field (base name : String)
  | name (s : String)
  deriving DecidableEq

/-- What can stand on the right of an assignment. -/
inductive Source where
  | allocate (type : String)
  | cast (type : String) (value : Atom)
  | binary (left : Atom) (op : BinOp) (right : Atom)
  | negate (name : String)
  | number (n : Numeral)
  | place (p : Place)
  deriving DecidableEq

inductive Form where
  | param (type name : String)
  | declare (type : String) (names : List String)
  | branch (left : Atom) (op : CompareOp) (right : Atom) (label : String)
  | goto (label : String)
  | switch (scrutinee : String) (arms : List (Numeral × String)) (default : Option String)
  | return (value : Option Atom)
  | nop
  | invoke (result : Option String) (method : String) (args : List Atom)
  | assign (place : Place) (source : Source)
  deriving DecidableEq

structure SourceLine where
  label : Option String
  form : Option Form
  deriving DecidableEq

end Dataflow.Reading
