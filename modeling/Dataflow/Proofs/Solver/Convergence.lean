import Dataflow.Proofs.Solver.Solution
import Dataflow.Proofs.Solver.Sweeps
/-!
# When a monotone analysis converges

The bounds on runs of a system of equations, in terms of the graph: with heights up to `top`, a worklist takes a visit
for every inner node and `top` for every edge, and sweeps are at most one more than the rises of all inner nodes.
-/
namespace Dataflow.Analysis

variable {F : Type} {a : Analysis F} {g : Graph} {D : F → Prop} {effect : Fin g.size → F → F} {height : F → Nat}
  {top : Nat} {settings : Settings}

theorem visitBound_equations (a : Analysis F) (hg : g.Wired) (top : Nat) :
    (a.equations g).visitBound top = (g.size - 1) + top * g.edges.size := by
  have hdependents : ∑ p, ((a.equations g).dependents p).length = g.edges.size := by
    cases hd : a.direction with
    | forward =>
      simp only [equations, hd]
      exact hg.sum_length_succs
    | backward =>
      simp only [equations, hd]
      exact hg.sum_length_preds
  rw [Equations.visitBound, Equations.length_inner, hdependents]

theorem schedule_worklist (a : Analysis F) (g : Graph) (h : a.sweeps settings = false) :
    ∃ w, a.schedule g settings = .worklist w ∧ w.size ≤ (a.equations g).inner.length := by
  refine ⟨_, if_neg (by rw [h]; exact Bool.false_ne_true), ?_⟩
  -- At first every inner node is pending.
  refine (Worklist.size_pushAll_le _ _).trans ?_
  simp [Worklist.size]

theorem endsWithin_worklist (hg : g.Wired) (ha : a.Lawful) (h : (a.equations g).Computes D a.Same effect)
    (hm : Equations.Monotone D (fun x y => a.le x y = true) effect)
    (hc : (a.equations g).Climbs D (fun x y => a.le x y = true) height top) (hsweeps : a.sweeps settings = false) :
    a.EndsWithin g settings ((g.size - 1) + top * g.edges.size) := by
  have hconsistent := schedule_consistent a g settings
  have hdue := fun p => schedule_due a g settings (p := p)
  refine endsWithin_of_run ?_
  obtain ⟨w, hw, hsize⟩ := schedule_worklist a g hsweeps
  unfold begin
  rw [hw] at hconsistent hdue ⊢
  rw [← visitBound_equations a hg]
  exact Equations.run_bounded h (linked a hg) (ha.ordered g) hm hc hconsistent hdue hsize settings.maxVisits

theorem endsWithin_sweeps (hg : g.Wired) (ha : a.Lawful) (h : (a.equations g).Computes D a.Same effect)
    (hm : Equations.Monotone D (fun x y => a.le x y = true) effect)
    (hc : (a.equations g).Climbs D (fun x y => a.le x y = true) height top) (hsweeps : a.sweeps settings = true) :
    a.EndsWithin g settings ((g.size - 1) * (top * (g.size - 1) + 1)) := by
  have hconsistent := schedule_consistent a g settings
  refine endsWithin_of_run ?_
  have hschedule : a.schedule g settings = .sweep (a.equations g).inner.reverse (a.equations g).inner.reverse false :=
    if_pos hsweeps
  unfold begin
  rw [hschedule] at hconsistent ⊢
  rw [← (a.equations g).length_inner]
  exact Equations.run_sweeps_bounded h (linked a hg) (ha.ordered g) hm hc hconsistent List.length_reverse
    settings.maxVisits

end Dataflow.Analysis
