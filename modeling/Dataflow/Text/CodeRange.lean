/-!
# Character classes as code ranges
-/
namespace Dataflow.Text

/-- A set of characters, as ascending ranges of code points with both ends included. -/
abbrev CodeRanges := List (Nat × Nat)

/-- The ranges ascend, so the first one that does not end before the code decides. -/
def CodeRanges.contains : CodeRanges → Nat → Bool
  | [], _ => false
  | (low, high) :: rest, code => if code ≤ high then low ≤ code else contains rest code

end Dataflow.Text
