import Dataflow.Analyses.DeadCode
import Dataflow.Proofs.Fold
/-!
# What is found to be dead

Detection looks at every place of the graph on its own: what is found of a statement is the reason why it is dead, and
nothing else is found.
-/
namespace Dataflow.DeadCode

variable {g : Graph} {constants : Facts Env g.size} {live : Facts VarSet g.size} {findings : List Finding}

theorem detect_eq_ok (h : detect g constants live = .ok findings) :
    ∃ reached, reachable g constants = .ok reached ∧
      ∀ f, f ∈ findings ↔ ∃ p, g.node p = .stmt f.index ∧ reason? g reached live p = some f.reason := by
  obtain ⟨reached, hreached, hfindings⟩ := bind_ok_iff.1 h
  cases hfindings
  refine ⟨reached, hreached, fun f => ?_⟩
  rw [List.mem_filterMap]
  constructor
  · rintro ⟨p, -, hp⟩
    split at hp
    next i hi =>
      obtain ⟨reason, hreason, rfl⟩ := Option.map_eq_some_iff.1 hp
      exact ⟨p, hi, hreason⟩
    next => cases hp
  · rintro ⟨p, hp, hreason⟩
    refine ⟨p, List.mem_finRange p, ?_⟩
    simp only [hp, hreason]
    rfl

/-- What is found of a statement is the reason why it is dead. -/
theorem reason?_of_mem (h : detect g constants live = .ok findings) {f : Finding} (hf : f ∈ findings) {p : Fin g.size}
    (hp : g.node p = .stmt f.index) :
    ∃ reached, reachable g constants = .ok reached ∧ reason? g reached live p = some f.reason := by
  obtain ⟨reached, hreached, hfindings⟩ := detect_eq_ok h
  obtain ⟨q, hq, hreason⟩ := (hfindings f).1 hf
  have hpq : p = q := by
    rw [← Option.some.injEq, ← g.position?_node p, ← g.position?_node q, hp, hq]
  exact ⟨reached, hreached, hpq ▸ hreason⟩

theorem reason?_eq_unreachable {reached : List (Fin g.size)} {p : Fin g.size}
    (h : reason? g reached live p = some .unreachable) : p ∉ reached := by
  unfold reason? at h
  split at h
  next hp => exact hp
  next => split at h <;> cases h

theorem reason?_eq_useless {reached : List (Fin g.size)} {p : Fin g.size}
    (h : reason? g reached live p = some .useless) : isUseless (g.point p).stmt (live.outs.get p) = true := by
  unfold reason? at h
  split at h
  · cases h
  · split at h
    next huseless => exact huseless
    next => cases h

/-- A useless statement is a pure assignment to a variable that is not live after it. -/
theorem isUseless_iff {s : Statement} {after : VarSet} :
    isUseless s after = true ↔ ∃ v value, s = .assign (.var v) value ∧ value.isPure = true ∧ v ∉ after := by
  cases s with
  | assign target value =>
    simp only [isUseless, Option.any_eq_true, Bool.and_eq_true, Bool.not_eq_true', ← Bool.not_eq_true,
      VarSet.contains_iff]
    constructor
    · rintro ⟨v, hv, hpure, hlive⟩
      unfold Expr.var? at hv
      split at hv <;> cases hv
      exact ⟨v, value, rfl, hpure, hlive⟩
    · rintro ⟨v, _, heq, hpure, hlive⟩
      cases heq
      exact ⟨v, rfl, hpure, hlive⟩
  | invoke | branch | goto | switch | «return» | nop =>
    constructor
    · intro h
      cases h
    · rintro ⟨_, _, heq, -⟩
      cases heq

/-- A useless statement defines no variable that is live after it. -/
theorem defined?_ne_of_isUseless {s : Statement} {after : VarSet} (h : isUseless s after = true) {v : Var}
    (hv : v ∈ after) : s.defined? ≠ some v := by
  obtain ⟨w, value, rfl, -, hdead⟩ := isUseless_iff.1 h
  intro hdefined
  have hwv : w = v := Option.some.inj hdefined
  exact hdead (hwv ▸ hv)

end Dataflow.DeadCode
