import Dataflow.Proofs.Places
import Dataflow.Solver.Equations
/-!
# Runs

A run goes from state to state, a visit at a time. `Equations.Reaches` relates the states of a run, and every
outcome of `Equations.run` is one of them with a reason to stop there: nothing is due, the bound is met, or an
effect cannot be computed.
-/
namespace Dataflow

variable {F : Type} {n : Nat}

namespace Flow

/-- Other facts at one node. -/
def put (flow : Flow F n) (p : Fin n) (x y : F) : Flow F n :=
  ⟨flow.arriving.setIfInBounds p x, flow.leaving.setIfInBounds p y⟩

theorem arriving_put (flow : Flow F n) (p q : Fin n) (x y : F) :
    (flow.put p x y).arriving.get q = if p = q then x else flow.arriving.get q :=
  get_setIfInBounds flow.arriving p q x

theorem leaving_put (flow : Flow F n) (p q : Fin n) (x y : F) :
    (flow.put p x y).leaving.get q = if p = q then y else flow.leaving.get q :=
  get_setIfInBounds flow.leaving p q y

end Flow

namespace Equations

variable {s : Equations F n}

theorem arriving_start (s : Equations F n) (p : Fin n) : s.start.arriving.get p = s.initial := get_replicate s.initial p

theorem leaving_start (s : Equations F n) (p : Fin n) :
    s.start.leaving.get p = if s.root = p then s.boundary else s.initial := by
  unfold start
  rw [get_setIfInBounds, get_replicate]

/-- The states of the run from `r` on. -/
inductive Reaches (s : Equations F n) (r : Progress F n) : Progress F n → Prop
  | refl : Reaches s r r
  | visit {r₁ r₂ : Progress F n} {p : Fin n} {rest : Schedule n} :
      Reaches s r r₁ → r₁.schedule.next? = some (p, rest) → s.advance r₁ p rest = .ok r₂ → Reaches s r r₂

/-- What every visit keeps holds in every state of a run. -/
theorem Reaches.keeps {I : Progress F n → Prop}
    (step : ∀ r p rest r', I r → r.schedule.next? = some (p, rest) → s.advance r p rest = .ok r' → I r')
    {r r' : Progress F n} (h : s.Reaches r r') (hr : I r) : I r' := by
  induction h with
  | refl => exact hr
  | visit _ hnext hadvance ih => exact step _ _ _ _ ih hnext hadvance

theorem Reaches.trans {r r₁ r₂ : Progress F n} (h : s.Reaches r r₁) (h' : s.Reaches r₁ r₂) : s.Reaches r r₂ := by
  induction h' with
  | refl => exact h
  | visit _ hnext hadvance ih => exact ih.visit hnext hadvance

/-- A visit replaces the facts of its node, by what arrives there and by what the effect makes of it. -/
theorem visit_eq_ok {flow flow' : Flow F n} {p : Fin n} {changed : Bool} (h : s.visit flow p = .ok (flow', changed)) :
    ∃ x, s.transfer p (s.gather flow p) (flow.leaving.get p) = .ok (x, changed) ∧
      flow' = flow.put p (s.gather flow p) x := by
  simp only [visit] at h
  cases htransfer : s.transfer p (s.gather flow p) (flow.leaving.get p) with
  | error e =>
    rw [htransfer] at h
    cases h
  | ok result =>
    rw [htransfer] at h
    cases h
    exact ⟨result.1, rfl, rfl⟩

theorem advance_eq_ok {r r' : Progress F n} {p : Fin n} {rest : Schedule n} (h : s.advance r p rest = .ok r') :
    ∃ x changed, s.transfer p (s.gather r.flow p) (r.flow.leaving.get p) = .ok (x, changed) ∧
      r' = ⟨r.flow.put p (s.gather r.flow p) x, rest.report changed (s.dependents p), r.visits + 1⟩ := by
  simp only [advance] at h
  cases hvisit : s.visit r.flow p with
  | error e =>
    rw [hvisit] at h
    cases h
  | ok result =>
    rw [hvisit] at h
    cases h
    obtain ⟨x, htransfer, hflow⟩ := visit_eq_ok hvisit
    exact ⟨x, result.2, htransfer, by rw [hflow]⟩

theorem advance_eq_error {r : Progress F n} {p : Fin n} {rest : Schedule n} {e : EvalError}
    (h : s.advance r p rest = .error e) :
    s.transfer p (s.gather r.flow p) (r.flow.leaving.get p) = .error e := by
  simp only [advance, visit] at h
  cases htransfer : s.transfer p (s.gather r.flow p) (r.flow.leaving.get p) with
  | error e' => rfl
  | ok result =>
    rw [htransfer] at h
    cases h

/-! ## How a run ends -/

/-- Some state of the run from `r` on ends it with an outcome, and with a reason. -/
theorem run_outcome (s : Equations F n) (budget : Nat) (r : Progress F n) :
    ∃ r', s.Reaches r r' ∧
      ((s.run budget r = .ok r' ∧ r'.schedule.next? = none) ∨
        ∃ p rest, r'.schedule.next? = some (p, rest) ∧
          ((r'.visits = r.visits + budget ∧ s.run budget r = .error (.diverged r'.visits rest.pending)) ∨
            ∃ e, s.advance r' p rest = .error e ∧ s.run budget r = .error (.effect e))) := by
  induction budget generalizing r with
  | zero =>
    -- No visit is left, so the run ends here, for one reason or the other.
    refine ⟨r, .refl, ?_⟩
    cases hnext : r.schedule.next? with
    | none => exact .inl ⟨by simp [run, hnext], rfl⟩
    | some next => exact .inr ⟨next.1, next.2, rfl, .inl ⟨rfl, by simp [run, hnext]⟩⟩
  | succ budget ih =>
    cases hnext : r.schedule.next? with
    | none => exact ⟨r, .refl, .inl ⟨by simp [run, hnext], hnext⟩⟩
    | some next =>
      obtain ⟨p, rest⟩ := next
      cases hadvance : s.advance r p rest with
      | error e => exact ⟨r, .refl, .inr ⟨p, rest, hnext, .inr ⟨e, hadvance, by simp [run, hnext, hadvance]⟩⟩⟩
      | ok r₁ =>
        have hrun : s.run (budget + 1) r = s.run budget r₁ := by simp [run, hnext, hadvance]
        have hvisits : r₁.visits = r.visits + 1 := by
          obtain ⟨x, changed, -, rfl⟩ := advance_eq_ok hadvance
          rfl
        obtain ⟨r', hreach, hout⟩ := ih r₁
        refine ⟨r', (Reaches.visit .refl hnext hadvance).trans hreach, ?_⟩
        rw [hrun, show r.visits + (budget + 1) = r₁.visits + budget by omega]
        exact hout

theorem run_eq_ok {budget : Nat} {r r' : Progress F n} (h : s.run budget r = .ok r') :
    s.Reaches r r' ∧ r'.schedule.next? = none := by
  obtain ⟨r₁, hreach, ⟨hok, hnone⟩ | ⟨p, rest, -, ⟨-, herr⟩ | ⟨e, -, herr⟩⟩⟩ := s.run_outcome budget r
  · rw [h] at hok
    cases hok
    exact ⟨hreach, hnone⟩
  · rw [h] at herr
    cases herr
  · rw [h] at herr
    cases herr

/-- If every visit keeps an invariant under which no effect fails and a node is due only below a bound, a run ends within
that bound, unless it may not take that many visits. -/
theorem run_within {I : Progress F n → Prop} {bound : Nat}
    (step : ∀ r p rest r', I r → r.schedule.next? = some (p, rest) → s.advance r p rest = .ok r' → I r')
    (below : ∀ r p rest, I r → r.schedule.next? = some (p, rest) → r.visits < bound)
    (total : ∀ r p rest e, I r → s.advance r p rest ≠ .error e) {r : Progress F n} (hr : I r) (hstart : r.visits = 0)
    (budget : Nat) :
    (∃ r', s.run budget r = .ok r' ∧ r'.visits ≤ bound) ∨
      (budget < bound ∧ ∃ pending, s.run budget r = .error (.diverged budget pending)) := by
  have hkept : ∀ {r'}, s.Reaches r r' → I r' := fun h => h.keeps step hr
  obtain ⟨r', hreach, ⟨hok, -⟩ | ⟨p, rest, hnext, ⟨hbudget, herror⟩ | ⟨e, herror, -⟩⟩⟩ := s.run_outcome budget r
  · refine .inl ⟨r', hok, ?_⟩
    -- The last visit, if there was one, was made below the bound.
    cases hreach with
    | refl => omega
    | visit hreach hnext hadvance =>
      have hbelow := below _ _ _ (hkept hreach) hnext
      obtain ⟨x, changed, -, rfl⟩ := advance_eq_ok hadvance
      exact hbelow
  · have hbelow := below _ _ _ (hkept hreach) hnext
    rw [hstart, Nat.zero_add] at hbudget
    rw [hbudget] at hbelow herror
    exact .inr ⟨hbelow, rest.pending, herror⟩
  · exact absurd herror (total _ _ _ _ (hkept hreach))

end Equations

end Dataflow
