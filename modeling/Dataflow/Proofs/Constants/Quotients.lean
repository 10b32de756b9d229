import Dataflow.Proofs.Constants.Monotone
/-!
# The statements that are not monotone

On all environments whose constants are integers of 32 bits, also on those that no run of a routine meets: every statement
keeps the order, with the exception of quotients and remainders of two different variables (`monotone_iff`). So a check on
samples finds nothing wrong with any other statement.
-/
namespace Dataflow.Constants

/-- The statement gives a variable that holds an integer the quotient or the remainder of two different variables. -/
def DividesVars (s : Statement) : Prop :=
  ∃ v op u w, definition? s = some (v, .binary op (.var u) (.var w)) ∧ op.divides = true ∧ u ≠ w

/-- The effect at a point does not fail on environments of constants of 32 bits, and it keeps their order. -/
def MonotoneAt (p : Point) : Prop :=
  ∀ x y : Env, x.Fits → y.Fits → x.le y = true →
    ∃ x' y', analysis.effect p x = .ok x' ∧ analysis.effect p y = .ok y' ∧ x'.le y' = true

variable {p : Point} {s : Statement} {x y : Env} {u v w : Var} {op : BinOp}

theorem exists_effect (hlit : ∀ n ∈ p.stmt.literals, Int32.Fits n) (hx : x.Fits) :
    ∃ x', analysis.effect p x = .ok x' ∧ ∀ v, x'.get v = (after p.stmt x).get v := by
  obtain ⟨heffect, -⟩ := fits_after hx hlit
  refine ⟨(Env.empty.replace (after p.stmt x)).1, ?_, (Env.replace_spec _ _).1⟩
  change ((effect p.stmt x).map Env.empty.replace).map (·.1) = _
  rw [heffect]
  rfl

/-- Effects do not fail here, so what is at stake is only whether `after` keeps the order. -/
theorem monotoneAt_iff (hlit : ∀ n ∈ p.stmt.literals, Int32.Fits n) :
    MonotoneAt p ↔
      ∀ x y : Env, x.Fits → y.Fits → x.le y = true → (after p.stmt x).le (after p.stmt y) = true := by
  unfold MonotoneAt
  refine forall₅_congr fun x y hx hy _ => ?_
  obtain ⟨x', hx', hgetx⟩ := exists_effect hlit hx
  obtain ⟨y', hy', hgety⟩ := exists_effect hlit hy
  simp [hx', hy', Env.le_iff, hgetx, hgety]

/-! ## All statements but quotients -/

theorem after_mono_of_not_dividesVars (hs : ¬ DividesVars s) (hxy : x.le y = true) :
    (after s x).le (after s y) = true := by
  refine after_mono hxy fun v op u w hd hdivides hnac hundef => ?_
  -- One variable divided by itself is not both varying and unknown.
  by_cases huw : u = w
  · subst huw
    rw [hnac] at hundef
    cases hundef
  · exact absurd ⟨v, op, u, w, hd, hdivides, huw⟩ hs

/-- What is monotone passes every check on samples. -/
theorem MonotoneAt.monotoneOn (h : MonotoneAt p) {samples : List Env} (hsamples : ∀ x ∈ samples, x.Fits) :
    analysis.monotoneOn p samples = .ok true := by
  refine allM_eq_true fun x hx => allM_eq_true fun y hy => ?_
  split
  next hxy =>
    obtain ⟨x', y', hx', hy', hle⟩ := h x y (hsamples x hx) (hsamples y hy) hxy
    rw [hx', hy']
    exact congrArg Except.ok hle
  next => rfl

/-! ## Quotients -/

/-- One variable may vary, and nothing is known of any other. -/
def varying (u : Var) : Env := Env.empty.set u .nac

theorem fits_varying (u : Var) : (varying u).Fits := by
  intro v
  rw [varying, Env.get_set]
  split <;> trivial

theorem fits_set {n : Int} (hx : x.Fits) (hn : Int32.Fits n) (w : Var) : (x.set w (.const n)).Fits := by
  intro v
  rw [Env.get_set]
  split
  · exact hn
  · exact hx v

theorem varying_le_set (huw : u ≠ w) (a : Value) : (varying u).le ((varying u).set w a) = true := by
  refine Env.le_iff.2 fun v => ?_
  rw [Env.get_set]
  split
  next hwv =>
    subst hwv
    simp [varying, huw, Value.undefined_le]
  next => exact Value.le_refl _

theorem value_quotient_varying (huw : u ≠ w) : value (varying u) (.binary op (.var u) (.var w)) = .nac := by
  rw [value_binary]
  refine combine_nac (fun hzero => ?_) (.inl ?_)
  · simp [operand, varying, huw] at hzero
  · simp [operand, varying]

theorem value_quotient_zero (hdivides : op.divides = true) :
    value ((varying u).set w (.const 0)) (.binary op (.var u) (.var w)) = .undefined := by
  rw [value_binary]
  simp only [operand, Env.get_set, if_true]
  exact combine_zero hdivides _

/-- The quotient may vary until the divisor is known to be zero; from then on nothing is known of it. -/
theorem not_monotoneAt_of_dividesVars (hlit : ∀ n ∈ p.stmt.literals, Int32.Fits n) (hp : DividesVars p.stmt) :
    ¬ MonotoneAt p := by
  obtain ⟨v, op, u, w, hd, hdivides, huw⟩ := hp
  intro h
  have hle := (monotoneAt_iff hlit).1 h _ _ (fits_varying u) (fits_set (fits_varying u) (n := 0) (by decide) w)
    (varying_le_set huw _)
  have hv := Env.le_iff.1 hle v
  simp only [get_after, hd, Option.elim, if_true, value_quotient_varying huw, value_quotient_zero hdivides] at hv
  cases hv

/-- A statement of literals of 32 bits is monotone, on all environments of constants of 32 bits, exactly if it does not
give a variable that holds an integer a quotient or a remainder of two different variables; and if it is, every check on
samples passes. -/
theorem monotone_iff (p : Point) (hlit : ∀ n ∈ p.stmt.literals, Int32.Fits n) :
    (MonotoneAt p ↔ ¬ DividesVars p.stmt) ∧
      (¬ DividesVars p.stmt → ∀ samples : List Env, (∀ x ∈ samples, x.Fits) →
        analysis.monotoneOn p samples = .ok true) := by
  have hof : ¬ DividesVars p.stmt → MonotoneAt p := by
    intro hp
    exact (monotoneAt_iff hlit).2 fun x y _ _ hxy => after_mono_of_not_dividesVars hp hxy
  refine ⟨⟨fun h hp => not_monotoneAt_of_dividesVars hlit hp h, hof⟩, ?_⟩
  intro hp samples hsamples
  exact (hof hp).monotoneOn hsamples

/-- Six divided by a variable is monotone, whatever is known of the variable; the quotient of two variables is not. -/
theorem monotone_iff_six :
    MonotoneAt ⟨0, .assign (.var { name := "x" }) (.binary (.arith .div) (.literal 6) (.var { name := "b" }))⟩ ∧
      ¬ MonotoneAt ⟨0, .assign (.var { name := "x" }) (.binary (.arith .div) (.var { name := "a" })
        (.var { name := "b" }))⟩ := by
  constructor
  · refine (monotone_iff _ (by decide)).1.2 ?_
    rintro ⟨v, op, u, w, hd, -, -⟩
    cases hd
  · intro h
    exact (monotone_iff _ (by decide)).1.1 h ⟨_, _, _, _, rfl, rfl, by decide⟩

end Dataflow.Constants
