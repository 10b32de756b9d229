import Dataflow.Proofs.Constants.Monotone
import Dataflow.Proofs.Constants.Word
/-!
# Integers of any size

Folding reduces its operands to words before anything else, so nothing but a divisor whose word is zero can defeat it
(`Int32.fold_eq_toInt`). Evaluation looks for a zero divisor earlier, among the integers as they are written. A divisor
that is zero as a word only gets past that test, and `Constants.zeroSafe_iff` says when this does harm.
-/
namespace Dataflow

namespace Int32

variable {op : BinOp} {m n : Int}

theorem wrap_eq_zero_iff : wrap n = 0 ↔ (0x100000000 : Int) ∣ n :=
  (Int.dvd_iff_bmod_eq_zero (a := 0x100000000)).symm

theorem fold_of_dvd (hdiv : op.divides = true) (hn : (0x100000000 : Int) ∣ n) :
    fold op m n = .error .divisionByZero := by
  unfold fold
  rw [wrap_eq_zero_iff.2 hn]
  rcases BinOp.divides_iff.1 hdiv with rfl | rfl <;> rfl

/-- Whatever the size of its operands, folding is the operation on their words, in two's complement, and its result is
an integer of 32 bits. -/
theorem fold_eq_toInt (op : BinOp) (a b : Int) (hb : op.divides = true → ¬ (0x100000000 : Int) ∣ b) :
    ∃ w, Word.apply op (BitVec.ofInt 32 a) (BitVec.ofInt 32 b) = some w ∧ fold op a b = .ok w.toInt ∧
      -0x80000000 ≤ w.toInt ∧ w.toInt < 0x80000000 := by
  obtain ⟨c, hc, hfits⟩ := exists_fold (a := a) fun hdiv => mt wrap_eq_zero_iff.1 (hb hdiv)
  rw [Word.fold_eq] at hc ⊢
  cases hw : Word.apply op (BitVec.ofInt 32 a) (BitVec.ofInt 32 b) with
  | none =>
    rw [hw] at hc
    cases hc
  | some w =>
    rw [hw] at hc
    cases hc
    exact ⟨w, rfl, rfl, hfits⟩

/-- Operands out of range that stand for the least integer and for minus one: their quotient wraps. -/
theorem fold_eq_toInt_least :
    ¬ (0x100000000 : Int) ∣ 0xFFFFFFFF ∧ fold (.arith .div) 0x80000000 0xFFFFFFFF = .ok (-0x80000000) := by
  have hb : ¬ (0x100000000 : Int) ∣ 0xFFFFFFFF := by decide
  have hword : Word.apply (.arith .div) (BitVec.ofInt 32 0x80000000) (BitVec.ofInt 32 0xFFFFFFFF) =
      some 0x80000000 := by decide
  obtain ⟨w, hw, hfold, -⟩ := fold_eq_toInt (.arith .div) 0x80000000 0xFFFFFFFF fun _ => hb
  rw [hword] at hw
  cases hw
  exact ⟨hb, hfold⟩

end Int32

namespace Constants

variable {op : BinOp} {a b : Value} {env : Env} {e : Expr}

/-! ## Evaluation -/

theorem binary_of_zero (hdiv : op.divides = true) (a : Value) : binary op a (.const 0) = .ok .undefined := by
  simp [binary, hdiv]

/-- A divisor that is zero as a word, but not as it is written, is like any other until both operands are known. -/
theorem binary_of_dvd (hdiv : op.divides = true) {n : Int} (hn : (0x100000000 : Int) ∣ n) (hzero : n ≠ 0) (a : Value) :
    binary op a (.const n) =
      match a with
      | .undefined => .ok .undefined
      | .const _ => .error .divisionByZero
      | .nac => .ok .nac := by
  have hguard : ¬ (op.divides && decide (Value.const n = .const 0)) = true := by simp [hzero]
  unfold binary
  rw [if_neg hguard]
  cases a with
  | undefined | nac => rfl
  | const m =>
    simp only [Int32.fold_of_dvd hdiv hn]
    rfl

theorem binary_eq_undefined_iff (hdiv : op.divides = true) {n : Int} (hn : (0x100000000 : Int) ∣ n) :
    binary op a (.const n) = .ok .undefined ↔ n = 0 ∨ a = .undefined := by
  by_cases hzero : n = 0
  · simp [hzero, binary_of_zero hdiv]
  · rw [binary_of_dvd hdiv hn hzero]
    cases a <;> simp [hzero]

/-- Nothing but a divisor that is zero as a word can make an operation fail. -/
theorem exists_binary_of_not_dvd (h : ∀ n, op.divides = true → b = .const n → ¬ (0x100000000 : Int) ∣ n) :
    ∃ v, binary op a b = .ok v := by
  unfold binary
  split
  · exact ⟨.undefined, rfl⟩
  next hguard =>
    split
    · exact ⟨.nac, rfl⟩
    · exact ⟨.nac, rfl⟩
    next m n =>
      obtain ⟨c, hc, -⟩ := Int32.exists_fold (a := m) fun hdiv => mt Int32.wrap_eq_zero_iff.1 (h n hdiv rfl)
      exact ⟨.const c, by rw [hc]; rfl⟩
    · exact ⟨.undefined, rfl⟩

/-- Evaluation has a value, and where a divisor is known to be zero as a word, it is that nothing is known. -/
def ZeroSafe (env : Env) (e : Expr) : Prop :=
  (∃ v, evaluate env e = .ok v) ∧
    ∀ op l r n, e = .binary op l r → op.divides = true → operand env r = .const n → (0x100000000 : Int) ∣ n →
      evaluate env e = .ok .undefined

/-- Evaluation is safe from zero divisors exactly if every divisor that is known to be zero as a word is zero itself, or
nothing is known of the dividend either. -/
theorem zeroSafe_iff (env : Env) (e : Expr) :
    ZeroSafe env e ↔
      ∀ op l r n, e = .binary op l r → op.divides = true → operand env r = .const n → (0x100000000 : Int) ∣ n →
        n = 0 ∨ operand env l = .undefined := by
  constructor
  · rintro ⟨-, hundefined⟩ op l r n rfl hdiv hr hn
    have h := hundefined op l r n rfl hdiv hr hn
    rw [evaluate, hr] at h
    exact (binary_eq_undefined_iff hdiv hn).1 h
  · intro h
    have hundefined : ∀ op l r n, e = .binary op l r → op.divides = true → operand env r = .const n →
        (0x100000000 : Int) ∣ n → evaluate env e = .ok .undefined := by
      rintro op l r n rfl hdiv hr hn
      rw [evaluate, hr]
      exact (binary_eq_undefined_iff hdiv hn).2 (h op l r n rfl hdiv hr hn)
    refine ⟨?_, hundefined⟩
    cases e with
    | operand o => exact ⟨_, rfl⟩
    | binary op l r =>
      by_cases hsafe : ∀ n, op.divides = true → operand env r = .const n → ¬ (0x100000000 : Int) ∣ n
      · exact exists_binary_of_not_dvd hsafe
      · push Not at hsafe
        obtain ⟨n, hdiv, hr, hn⟩ := hsafe
        exact ⟨_, hundefined op l r n rfl hdiv hr hn⟩
    | negate | allocate | cast | field | staticField | element | call => exact ⟨_, rfl⟩

/-- One divided by 2 ^ 32 has no value. -/
theorem not_zeroSafe_literal : ¬ ZeroSafe .empty (.binary (.arith .div) (.literal 1) (.literal 0x100000000)) := by
  rintro ⟨⟨v, hv⟩, -⟩
  have hfails : evaluate .empty (.binary (.arith .div) (.literal 1) (.literal 0x100000000)) =
      .error .divisionByZero := by decide
  rw [hfails] at hv
  cases hv

end Constants

end Dataflow
