import Dataflow.Graph.Build
import Dataflow.Proofs.Liveness.Order
/-!
# All schedules agree

On every graph, and under every schedule and bound under which a run comes to an end, a monotone analysis ends in
the least solution of its dataflow equations. So queues, stacks, priorities and sweeps find the same facts.
-/
namespace Dataflow.Analysis

variable {F : Type} {a : Analysis F} {g : Graph} {D : F → Prop} {effect : Fin g.size → F → F}

theorem solves_of_solve (hg : g.Wired) (h : (a.equations g).Computes D a.Same effect) {settings : Settings}
    {sol : Solution F g.size} (hsol : a.solve g settings = .ok sol) :
    Equations.Flow.Within D (a.flow sol.toFacts) ∧ (a.equations g).Solves a.Same effect (a.flow sol.toFacts) := by
  obtain ⟨r, hrun, hflow, -⟩ := solve_eq_ok hsol
  rw [hflow]
  exact Equations.solves_of_run h (linked a hg) (schedule_consistent a g settings)
    (fun _ hp => schedule_due a g settings hp) hrun

/-- Where effects are monotone on the facts of a domain, a run ends below every solution in it. -/
theorem below_of_solve (hg : g.Wired) (ha : a.Lawful) (h : (a.equations g).Computes D a.Same effect)
    (hm : Equations.Monotone D (fun x y => a.le x y = true) effect) {settings : Settings} {sol : Solution F g.size}
    (hsol : a.solve g settings = .ok sol) {f : Facts F g.size}
    (hf : (a.equations g).Solves a.Same effect (a.flow f)) (hfD : Equations.Flow.Within D (a.flow f)) :
    a.Below sol.toFacts f := by
  obtain ⟨r, hrun, hflow, -⟩ := solve_eq_ok hsol
  rw [below_iff, hflow]
  exact Equations.below_of_run h (linked a hg) (ha.ordered g) hm (schedule_consistent a g settings)
    (fun _ hp => schedule_due a g settings hp) hrun hf hfD

theorem same_of_solve (hg : g.Wired) (ha : a.Lawful) (h : (a.equations g).Computes D a.Same effect)
    (hm : Equations.Monotone D (fun x y => a.le x y = true) effect) {settings settings' : Settings}
    {sol sol' : Solution F g.size} (hsol : a.solve g settings = .ok sol) (hsol' : a.solve g settings' = .ok sol')
    (p : Fin g.size) : a.Same (sol.ins.get p) (sol'.ins.get p) ∧ a.Same (sol.outs.get p) (sol'.outs.get p) := by
  obtain ⟨hwithin, hsolves⟩ := solves_of_solve hg h hsol
  obtain ⟨hwithin', hsolves'⟩ := solves_of_solve hg h hsol'
  -- Both are solutions, and each run ends below the other's.
  have hle := below_of_solve hg ha h hm hsol hsolves' hwithin' p
  have hge := below_of_solve hg ha h hm hsol' hsolves hwithin p
  exact ⟨⟨hle.1, hge.1⟩, ⟨hle.2, hge.2⟩⟩

/-- A run that ends has found the least solution of the dataflow equations, so any two runs that end have found
equal facts at every node. -/
theorem solve_isLeast (hg : g.Built) (ha : a.Lawful) (he : a.Transfers g effect) :
    (∀ settings sol, a.solve g settings = .ok sol →
      a.Solves g effect sol.toFacts ∧ ∀ f, a.Solves g effect f → a.Below sol.toFacts f) ∧
    ∀ settings settings' sol sol', a.solve g settings = .ok sol → a.solve g settings' = .ok sol' →
      ∀ p : Fin g.size, a.Same (sol.ins.get p) (sol'.ins.get p) ∧ a.Same (sol.outs.get p) (sol'.outs.get p) := by
  have hcomputes := he.computes ha
  have hmonotone : Equations.Monotone (fun _ => True) (fun x y => a.le x y = true) effect := by
    intro p x y _ _ hle
    exact he.monotone hle
  constructor
  · intro settings sol h
    obtain ⟨-, hsolves⟩ := solves_of_solve hg.wired hcomputes h
    refine ⟨ha.solves_iff.2 hsolves, ?_⟩
    intro f hf
    exact below_of_solve hg.wired ha hcomputes hmonotone h (ha.solves_iff.1 hf) ⟨fun _ => trivial, fun _ => trivial⟩
  · intro settings settings' sol sol' h h'
    exact same_of_solve hg.wired ha hcomputes hmonotone h h'

/-- Counts a variable down in a loop that it may leave in two ways. -/
def countdown : Routine :=
  .ofStmts "countdown" [⟨"x", .primitive .int⟩]
    [.branch (.binary (.compare .le) (.var ⟨"x", .primitive .int⟩) (.literal 0)) (some (.stmt 4)),
     .assign (.var ⟨"y", .primitive .int⟩) (.var ⟨"x", .primitive .int⟩),
     .assign (.var ⟨"x", .primitive .int⟩) (.binary (.arith .sub) (.var ⟨"x", .primitive .int⟩) (.literal 1)),
     .switch ⟨"x", .primitive .int⟩ [(7, some (.stmt 4)), (9, some (.stmt 3))] (some (.stmt 0)),
     .return (some (.var ⟨"y", .primitive .int⟩))] none

/-- Live variables of a loop with a self loop and parallel ways out, by a stack and by sweeps. -/
theorem solve_isLeast_countdown :
    ∃ g, Graph.build countdown = .ok g ∧ ∃ sol sol',
      Liveness.analysis.solve g { strategy := .lifo } = .ok sol ∧
      Liveness.analysis.solve g { backward := .sweeps } = .ok sol' ∧
      Liveness.analysis.Solves g (fun p => Liveness.effect (g.point p).stmt) sol.toFacts ∧
      ∀ p : Fin g.size, Liveness.analysis.Same (sol.ins.get p) (sol'.ins.get p) := by
  have hruns : ((Graph.build countdown).toOption.bind fun g =>
      (Liveness.analysis.solve g { strategy := .lifo }).toOption.bind fun _ =>
        (Liveness.analysis.solve g { backward := .sweeps }).toOption.map fun _ => ()).isSome = true := by
    decide +kernel
  obtain ⟨u, hu⟩ := Option.isSome_iff_exists.1 hruns
  obtain ⟨g, hg, hu⟩ := Option.bind_eq_some_iff.1 hu
  obtain ⟨sol, hsol, hu⟩ := Option.bind_eq_some_iff.1 hu
  obtain ⟨sol', hsol', -⟩ := Option.map_eq_some_iff.1 hu
  rw [toOption_eq_some] at hg hsol hsol'
  obtain ⟨hleast, hsame⟩ := solve_isLeast (Graph.built_build hg).1 Liveness.lawful (Liveness.transfers g)
  exact ⟨g, hg, sol, sol', hsol, hsol', (hleast _ sol hsol).1, fun p => (hsame _ _ sol sol' hsol hsol' p).1⟩

end Dataflow.Analysis
