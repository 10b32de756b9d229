/-!
# Integers in decimal

An integer that is given is converted to text only up to a number of digits. The numbers that a program
counts itself are far below that.
-/
namespace Dataflow

/-- Why a text that is asked for cannot be given. -/
inductive NoText where
  /-- It would show an integer of too many digits. -/
  | tooLong
  /-- It would show something that is not there. -/
  | missing
  deriving DecidableEq

namespace Decimal

/-- The digits of a number, the most significant first. -/
def digits (n : Nat) : List Char := Nat.toDigits 10 n

/-- The number a run of digits stands for. -/
def value (cs : List Char) : Nat := Nat.ofDigitChars 10 cs 0

/-- An integer: its digits, after a minus sign where it is negative. -/
def integer : Int → List Char
  | .ofNat n => digits n
  | .negSucc n => '-' :: digits (n + 1)

/-- The text of an integer that is counted. -/
def text (n : Int) : String := String.ofList (integer n)

/-- The most digits that are converted between integers and text. -/
def maxDigits : Nat := 4300

def Short (n : Int) : Prop := (digits n.natAbs).length ≤ maxDigits

instance (n : Int) : Decidable (Short n) := inferInstanceAs (Decidable (_ ≤ _))

/-- The text of an integer that is given. -/
def shown (n : Int) : Except NoText String := if Short n then .ok (text n) else .error .tooLong

theorem value_digits (n : Nat) : value (digits n) = n :=
  Nat.ofDigitChars_toDigits (by decide) (by decide)

theorem isDigit_of_mem_digits {n : Nat} {c : Char} (h : c ∈ digits n) : c.isDigit = true :=
  Nat.isDigit_of_mem_toDigits (by decide) (by decide) h

theorem length_digits_le_iff {n k : Nat} (hk : 0 < k) : (digits n).length ≤ k ↔ n < Nat.pow 10 k :=
  Nat.length_toDigits_le_iff (by decide) hk

theorem lt_length_digits_pow {m k : Nat} (hm : 0 < m) (h : m ≤ k) : m < (digits (Nat.pow 10 k)).length := by
  rw [← Nat.not_le, length_digits_le_iff hm]
  exact Nat.not_lt.2 (Nat.pow_le_pow_right (by decide) h)

theorem not_short_pow {k : Nat} (h : maxDigits ≤ k) : ¬ Short (.ofNat (Nat.pow 10 k)) :=
  Nat.not_le.2 (lt_length_digits_pow (by decide) h)

@[simp] theorem shown_of_short {n : Int} (h : Short n) : shown n = .ok (text n) := if_pos h

@[simp] theorem shown_of_not_short {n : Int} (h : ¬ Short n) : shown n = .error .tooLong := if_neg h

end Decimal

end Dataflow
