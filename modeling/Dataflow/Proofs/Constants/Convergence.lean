import Dataflow.Graph.Build
import Dataflow.Proofs.Constants.Monotone
import Dataflow.Proofs.Reading.Read
import Dataflow.Proofs.Solver.Convergence
/-!
# When constant propagation converges

A routine that divides no variable by another has been solved after as many visits as it has inner nodes, and two
more for every edge and variable that holds an integer. A division by a variable can break that: facts may then fall
as well as rise, and with a queue a fall and a rise can chase each other round a loop.
-/
namespace Dataflow.Constants

/-- The most visits that it takes to solve a graph of monotone effects. -/
def visitBound (g : Graph) : Nat := (g.size - 1) + 2 * (intVars g.routine).length * g.edges.size

/-- A run ends within the bound, unless it may not take that many visits. -/
def Converges (g : Graph) (settings : Settings) : Prop := analysis.EndsWithin g settings (visitBound g)

variable {g : Graph} {settings : Settings}

/-! ## Without divisions of one variable by another -/

theorem converges_of_not_combines (hg : g.Wired) (hr : g.routine.Fits) (hdiv : ¬ Combines g.routine (.arith .div))
    (hrem : ¬ Combines g.routine (.arith .rem)) (settings : Settings) : Converges g settings :=
  Analysis.endsWithin_worklist hg lawful (computes hr) (monotone_after hdiv hrem) (climbs hr) rfl

/-! ## With one -/

/-- A routine that divides one variable by another. In a queue the zero of `b` and the quotient by an unknown `b` go
round the loop one after the other. -/
def chase (symbol : String) : String :=
  "param int a\ngoto C\nC: b = x\nD: x = a " ++ symbol ++
    " b\nb = 0\nif (a == 0) goto D\nif (a == 0) goto C\nif (a == 0) goto D"

theorem run_chase : ∀ op ∈ [ArithOp.div, ArithOp.rem],
    ((Reading.read (chase (BinOp.arith op).symbol)).toOption.bind fun r => (Graph.build r).toOption.map fun g =>
      (r.body.toList.all fun line => (combined? line.stmt).all (· = .arith op)) && decide (visitBound g = 74) &&
        match analysis.solve g { maxVisits := 74 } with
        | .error e => decide (e = .diverged 74 2)
        | .ok _ => false) = some true := by
  decide +kernel

theorem chase_ok {op : ArithOp} (hop : op ∈ [ArithOp.div, ArithOp.rem]) :
    ∃ r g, Reading.read (chase (BinOp.arith op).symbol) = .ok r ∧ Graph.build r = .ok g ∧ visitBound g = 74 ∧
      (∀ op', Combines r op' → op' = .arith op) ∧
      analysis.solve g { maxVisits := 74 } = .error (.diverged 74 2) := by
  obtain ⟨r, hr, h⟩ := Option.bind_eq_some_iff.1 (run_chase op hop)
  obtain ⟨g, hg, h⟩ := Option.map_eq_some_iff.1 h
  rw [toOption_eq_some] at hr hg
  simp only [Bool.and_eq_true, decide_eq_true_eq, List.all_eq_true] at h
  obtain ⟨⟨hcombines, hbound⟩, hsolve⟩ := h
  refine ⟨r, g, hr, hg, hbound, ?_, ?_⟩
  · rintro op' ⟨line, hline, hop'⟩
    simpa [hop'] using hcombines line (Array.mem_toList_iff.2 hline)
  · split at hsolve
    next e he => rw [he, of_decide_eq_true hsolve]
    next => cases hsolve

/-- Runs may fail to converge because one variable may be divided by another: if the operations on two different
variables are confined to some operators, all routines converge, in every order and under every bound on visits, exactly
if neither of the two that divide is among these operators. -/
theorem converges_iff (ops : Set BinOp) :
    (∀ text name r g settings, Reading.read text name = .ok r → Graph.build r = .ok g →
      (∀ op, Combines r op → op ∈ ops) → Converges g settings) ↔
      .arith .div ∉ ops ∧ .arith .rem ∉ ops := by
  constructor
  · intro h
    have hnot : ∀ op ∈ [ArithOp.div, ArithOp.rem], .arith op ∉ ops := by
      intro op hop hmem
      obtain ⟨r, g, hr, hg, hbound, hcombines, hdiverged⟩ := chase_ok hop
      -- The run has failed at the bound, and no run within it has come to an end.
      have hconverges := h _ _ r g { maxVisits := 74 } hr hg fun op' hop' => hcombines op' hop' ▸ hmem
      rcases hconverges with ⟨sol, hsol, -⟩ | ⟨hlt, -⟩
      · rw [hdiverged] at hsol
        cases hsol
      · rw [hbound] at hlt
        exact absurd hlt (Nat.lt_irrefl _)
    exact ⟨hnot .div (by decide), hnot .rem (by decide)⟩
  · rintro ⟨hdiv, hrem⟩ text name r g settings hr hg hops
    obtain ⟨hbuilt, rfl⟩ := Graph.built_build hg
    exact converges_of_not_combines hbuilt.wired (Reading.fits_read hr) (fun hc => hdiv (hops _ hc))
      (fun hc => hrem (hops _ hc)) settings

/-- A run that has not come to rest when the bound for its routine is met. -/
theorem chase_diverges :
    ∃ r g, Reading.read (chase "/") "main" = .ok r ∧ Graph.build r = .ok g ∧ visitBound g = 74 ∧
      ∃ pending, analysis.solve g { strategy := .fifo, maxVisits := 74 } = .error (.diverged 74 pending) := by
  have hdiv : ArithOp.div ∈ [ArithOp.div, ArithOp.rem] := by decide
  obtain ⟨r, g, hr, hg, hbound, -, hdiverged⟩ := chase_ok hdiv
  exact ⟨r, g, hr, hg, hbound, 2, hdiverged⟩

end Dataflow.Constants
