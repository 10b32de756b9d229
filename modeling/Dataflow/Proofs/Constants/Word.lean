import Dataflow.Analyses.Int32
/-!
# Words

The operations of constant propagation are the operations on words of 32 bits, in two's complement. Integers take the
place of words where a result is reduced to 32 bits again, and division by zero has no result.
-/
namespace Dataflow

abbrev Word := BitVec 32

namespace Word

/-- The result of a comparison. -/
def truth (b : Bool) : Word := if b then 1 else 0

def compare (op : CompareOp) (a b : Word) : Bool :=
  match op with
  | .eq => a = b
  | .ne => a ≠ b
  | .lt => a.slt b
  | .gt => b.slt a
  | .le => a.sle b
  | .ge => b.sle a

/-- A shift goes by the low five bits of the second word. -/
def shift (op : ShiftOp) (a b : Word) : Word :=
  match op with
  | .left => a <<< (b.toNat % 32)
  | .right => a.sshiftRight (b.toNat % 32)
  | .rightZero => a >>> (b.toNat % 32)

def bits (op : BitOp) (a b : Word) : Word :=
  match op with
  | .or => a ||| b
  | .and => a &&& b
  | .xor => a ^^^ b

/-- The result of an operation, unless it divides by zero. -/
def apply (op : BinOp) (a b : Word) : Option Word :=
  match op with
  | .arith .add => some (a + b)
  | .arith .sub => some (a - b)
  | .arith .mul => some (a * b)
  | .arith .div => if b = 0 then none else some (a.sdiv b)
  | .arith .rem => if b = 0 then none else some (a.srem b)
  | .compare op => some (truth (compare op a b))
  | .shift op => some (shift op a b)
  | .bits op => some (bits op a b)

/-! ## Integers in the place of words -/

theorem wrap_eq (n : Int) : Int32.wrap n = (BitVec.ofInt 32 n).toInt := by
  rw [BitVec.toInt_ofInt]
  rfl

theorem ofInt_eq {n : Int} {a : Word} (h : n.bmod 0x100000000 = a.toInt) : BitVec.ofInt 32 n = a :=
  BitVec.eq_of_toInt_eq (by rw [BitVec.toInt_ofInt, h])

theorem toInt_eq_zero_iff {a : Word} : a.toInt = 0 ↔ a = 0 := by
  rw [← BitVec.toInt_inj]
  rfl

theorem unsigned_toInt (a : Word) : Int32.unsigned a.toInt = a.toNat := by
  have h : (BitVec.ofInt 32 a.toInt).toNat = (a.toInt % 0x100000000).toNat := BitVec.toNat_ofInt a.toInt
  rw [Int32.unsigned, ← h, BitVec.ofInt_toInt]

theorem distance_toInt (a : Word) : Int32.distance a.toInt = a.toNat % 32 := by
  have h := unsigned_toInt a
  unfold Int32.unsigned at h
  unfold Int32.distance
  omega

theorem ofInt_truth (b : Bool) : BitVec.ofInt 32 (Int32.truth b) = truth b := by cases b <;> rfl

theorem compare_toInt (op : CompareOp) (a b : Word) : Int32.compare op a.toInt b.toInt = compare op a b := by
  cases op with
  | eq | ne => simp only [Int32.compare, compare, ne_eq, BitVec.toInt_inj]
  | lt | gt | le | ge => rfl

theorem ofInt_shift (op : ShiftOp) (a b : Word) :
    BitVec.ofInt 32 (Int32.shift op a.toInt b.toInt) = shift op a b := by
  cases op with
  | left =>
    have hpow : BitVec.ofInt 32 (2 ^ (b.toNat % 32) : Nat) = BitVec.twoPow 32 (b.toNat % 32) := by
      rw [BitVec.ofInt_natCast]
      exact BitVec.eq_of_toNat_eq (by rw [BitVec.toNat_ofNat, BitVec.toNat_twoPow])
    simp only [Int32.shift, shift, distance_toInt]
    rw [Int.shiftLeft_eq', BitVec.ofInt_mul, BitVec.ofInt_toInt, hpow, BitVec.shiftLeft_eq_mul_twoPow]
  | right =>
    simp only [Int32.shift, shift, distance_toInt]
    rw [← BitVec.toInt_sshiftRight, BitVec.ofInt_toInt]
  | rightZero =>
    simp only [Int32.shift, shift, distance_toInt, unsigned_toInt]
    rw [← BitVec.toNat_ushiftRight, BitVec.ofInt_natCast, BitVec.ofNat_toNat, BitVec.setWidth_eq]

theorem ofInt_bits (op : BitOp) (a b : Word) : BitVec.ofInt 32 (Int32.bits op a.toInt b.toInt) = bits op a b := by
  have hnat : (Int32.bits op a.toInt b.toInt : Int) = ((bits op a b).toNat : Int) := by
    cases op with
    | or => rw [Int32.bits, bits, BitVec.toNat_or, unsigned_toInt, unsigned_toInt]
    | and => rw [Int32.bits, bits, BitVec.toNat_and, unsigned_toInt, unsigned_toInt]
    | xor => rw [Int32.bits, bits, BitVec.toNat_xor, unsigned_toInt, unsigned_toInt]
  rw [hnat, BitVec.ofInt_natCast, BitVec.ofNat_toNat, BitVec.setWidth_eq]

theorem arith_toInt (op : ArithOp) (a b : Word) :
    (Int32.arith op a.toInt b.toInt).map (BitVec.ofInt 32) =
      (apply (.arith op) a b).elim (.error .divisionByZero) .ok := by
  cases op with
  | add => exact congrArg _ (ofInt_eq (BitVec.toInt_add a b).symm)
  | sub => exact congrArg _ (ofInt_eq BitVec.toInt_sub.symm)
  | mul => exact congrArg _ (ofInt_eq (BitVec.toInt_mul a b).symm)
  | div =>
    simp only [Int32.arith, apply, toInt_eq_zero_iff]
    split
    · rfl
    · exact congrArg _ (ofInt_eq (BitVec.toInt_sdiv a b).symm)
  | rem =>
    simp only [Int32.arith, apply, toInt_eq_zero_iff]
    split
    · rfl
    · refine congrArg _ (ofInt_eq ?_)
      rw [← BitVec.toInt_srem]
      exact (BitVec.toInt_ofInt _).symm.trans (congrArg BitVec.toInt BitVec.ofInt_toInt)

/-- An operation on the integers that two words stand for gives, up to 32 bits, what it gives for the words. -/
theorem apply_toInt (op : BinOp) (a b : Word) :
    (Int32.apply op a.toInt b.toInt).map (BitVec.ofInt 32) =
      (apply op a b).elim (.error .divisionByZero) .ok := by
  rcases op with op | op | op | op
  · exact arith_toInt op a b
  · simp only [Int32.apply, apply, Except.map, ofInt_truth, compare_toInt, Option.elim]
  · simp only [Int32.apply, apply, Except.map, ofInt_shift, Option.elim]
  · simp only [Int32.apply, apply, Except.map, ofInt_bits, Option.elim]

/-- Folding two integers is the operation on their words. -/
theorem fold_eq (op : BinOp) (m n : Int) :
    Int32.fold op m n =
      (apply op (BitVec.ofInt 32 m) (BitVec.ofInt 32 n)).elim (.error .divisionByZero) fun a => .ok a.toInt := by
  have h := apply_toInt op (BitVec.ofInt 32 m) (BitVec.ofInt 32 n)
  rw [Int32.fold, wrap_eq, wrap_eq]
  cases hfold : Int32.apply op (BitVec.ofInt 32 m).toInt (BitVec.ofInt 32 n).toInt with
  | error e =>
    rw [hfold] at h
    cases hword : apply op (BitVec.ofInt 32 m) (BitVec.ofInt 32 n) with
    | none =>
      rw [hword] at h
      cases h
      rfl
    | some a =>
      rw [hword] at h
      cases h
  | ok c =>
    rw [hfold] at h
    cases hword : apply op (BitVec.ofInt 32 m) (BitVec.ofInt 32 n) with
    | none =>
      rw [hword] at h
      cases h
    | some a =>
      rw [hword] at h
      cases h
      exact congrArg _ (wrap_eq c)

end Word

end Dataflow
