import Dataflow.Decimal.Shortest
import Dataflow.Text.Quoted
/-!
# Untyped values

Settings and constants arrive from outside as values of any type. A message that refuses one shows it.
-/
namespace Dataflow

inductive Datum where
  | null
  | bool (b : Bool)
  | int (n : Int)
  /-- The number `mantissa / 10 ^ places`. -/
  | decimal (mantissa : Int) (places : Nat)
  | text (s : String)
  | list (items : List Datum)
  | record (fields : List (String × Datum))
  deriving Inhabited

namespace Datum

mutual

/-- The text of a value in a message. -/
def shown : Datum → Except NoText String
  | null => .ok "None"
  | bool true => .ok "True"
  | bool false => .ok "False"
  | int n => Decimal.shown n
  | decimal mantissa places => .ok (Decimal.shortest mantissa places)
  | text s => .ok (Text.quoted s)
  | list items => return "[" ++ ", ".intercalate (← shownItems items) ++ "]"
  | record fields => return "\x7b" ++ ", ".intercalate (← shownFields fields) ++ "\x7d"

def shownItems : List Datum → Except NoText (List String)
  | [] => .ok []
  | d :: rest => return (← shown d) :: (← shownItems rest)

def shownFields : List (String × Datum) → Except NoText (List String)
  | [] => .ok []
  | (key, d) :: rest => return (Text.quoted key ++ ": " ++ (← shown d)) :: (← shownFields rest)

end

end Datum

end Dataflow
