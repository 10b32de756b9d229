import Dataflow.Decimal.Integer
/-!
# Shortest decimals

A fraction is rounded to a binary floating-point number of 53 bits, and that number is written with the
fewest digits that round back to it. All comparisons are between natural numbers.
-/
namespace Dataflow.Decimal

/-- The number `num / den`, with a positive `den`. -/
structure Fraction where
  num : Nat
  den : Nat

namespace Fraction

/-- `n` times a power of `base`. -/
def scaled (n base : Nat) : Int → Fraction
  | .ofNat k => ⟨n * base.pow k, 1⟩
  | .negSucc k => ⟨n, base.pow (k + 1)⟩

def le (a b : Fraction) : Bool := a.num * b.den ≤ b.num * a.den

def lt (a b : Fraction) : Bool := a.num * b.den < b.num * a.den

def div (a b : Fraction) : Fraction := ⟨a.num * b.den, a.den * b.num⟩

def floor (a : Fraction) : Nat := a.num / a.den

/-- The nearest integer; a half goes to the even one. -/
def round (a : Fraction) : Nat :=
  let below := a.num / a.den
  let twice := 2 * (a.num % a.den)
  if twice < a.den ∨ (twice = a.den ∧ below % 2 = 0) then below else below + 1

/-- The exponent of the leading decimal digit of a positive fraction. -/
def leading (a : Fraction) : Int :=
  if a.den ≤ a.num then (digits a.floor).length - 1
  else
    let drop := (List.range (digits a.den).length).find? fun j => a.den ≤ a.num * Nat.pow 10 (j + 1)
    .negSucc (drop.getD 0)

end Fraction

/-! ## Binary floating-point numbers -/

/-- The number `mantissa * 2 ^ exponent`. -/
structure Binary where
  mantissa : Nat
  exponent : Int

/-- The nearest number with 53 bits and an exponent of at least -1074, unless it is too large. -/
def Binary.ofFraction? (a : Fraction) : Option Binary :=
  let guess : Int := Nat.log2 a.num - Nat.log2 a.den
  let top := if (Fraction.scaled 1 2 guess).le a then guess else guess - 1
  let exponent := max (top - 52) (-1074)
  let mantissa := (a.div (.scaled 1 2 exponent)).round
  let rounded : Binary :=
    if mantissa = Nat.pow 2 53 then ⟨Nat.pow 2 52, exponent + 1⟩ else ⟨mantissa, exponent⟩
  if rounded.exponent ≤ 971 then some rounded else none

/-- What rounds to the number: the middle to either neighbour, ends included where the mantissa is even.
Below a power of two the neighbour is twice as near. -/
def Binary.rounds (b : Binary) (a : Fraction) : Bool :=
  let near := b.mantissa = Nat.pow 2 52 ∧ b.exponent ≠ -1074
  let low := Fraction.scaled (4 * b.mantissa - if near then 1 else 2) 2 (b.exponent - 2)
  let high := Fraction.scaled (4 * b.mantissa + 2) 2 (b.exponent - 2)
  if b.mantissa % 2 = 0 then low.le a && a.le high else low.lt a && a.lt high

/-! ## Fewest digits -/

/-- Of the two neighbours of a positive number on the grid of `count` digits, the nearer that rounds to
it, as a multiple of the grid's step with the exponent of the step. -/
def Binary.onGrid? (b : Binary) (count : Nat) : Option (Nat × Int) :=
  let exact := Fraction.scaled b.mantissa 2 b.exponent
  let step := exact.leading - (count - 1)
  let quotient := exact.div (.scaled 1 10 step)
  let below := quotient.floor
  let nearest := quotient.round
  let other := if nearest = below then below + 1 else below
  ([nearest, other].find? fun n => b.rounds (.scaled n 10 step)).map (·, step)

/-- The fewest digits that round back, and the exponent of the last of them. -/
def Binary.shortest (b : Binary) : Nat × Int :=
  ((List.range 17).findSome? fun k => b.onGrid? (k + 1)).getD (0, 0)

/-- Drops the zeros at the end of a number. -/
def dropZeros : Nat → Nat × Int → Nat × Int
  | 0, r => r
  | fuel + 1, (n, e) => if n ≠ 0 ∧ n % 10 = 0 then dropZeros fuel (n / 10, e + 1) else (n, e)

/-- Digits with a leading exponent from -4 to 15 are written in place, others with an exponent of at
least two digits. -/
def layout (n : Nat) (step : Int) : List Char :=
  let ds := digits n
  let lead : Int := step + ds.length - 1
  if lead < -4 ∨ 16 ≤ lead then
    let exponent := digits lead.natAbs
    ds.take 1 ++ (if ds.length = 1 then [] else '.' :: ds.drop 1) ++
      'e' :: (if lead < 0 then '-' else '+') ::
      (List.replicate (2 - exponent.length) '0' ++ exponent)
  else if 0 ≤ step then ds ++ List.replicate step.toNat '0' ++ ['.', '0']
  else if 0 ≤ lead then ds.take (lead.toNat + 1) ++ '.' :: ds.drop (lead.toNat + 1)
  else '0' :: '.' :: (List.replicate (-lead - 1).toNat '0' ++ ds)

/-- The shortest text of the floating-point number nearest to `mantissa / 10 ^ places`. -/
def shortest (mantissa : Int) (places : Nat) : String :=
  let magnitude :=
    if mantissa = 0 then ['0', '.', '0']
    else match Binary.ofFraction? ⟨mantissa.natAbs, Nat.pow 10 places⟩ with
      | none => ['i', 'n', 'f']
      | some b =>
        if b.mantissa = 0 then ['0', '.', '0']
        else
          let (n, step) := b.shortest
          let (n, step) := dropZeros 17 (n, step)
          layout n step
  String.ofList (if mantissa < 0 then '-' :: magnitude else magnitude)

end Dataflow.Decimal
