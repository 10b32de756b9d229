import Dataflow.Proofs.Liveness.Order
import Dataflow.Proofs.Routine.Fits
import Dataflow.Proofs.Solver.Agreement
import Dataflow.Proofs.Solver.Convergence
/-!
# When the analysis of live variables converges

Only variables that some statement reads are ever live, so every fact can grow as often as there are such variables.
That bounds the visits of a worklist by the edges, and the visits of sweeps by the number of sweeps (`solve_converges`).
-/
namespace Dataflow.Liveness

/-- The variables that statements read. -/
def used (r : Routine) : VarSet := .ofList (r.body.toList.flatMap fun line => line.stmt.uses)

/-- The most visits that it takes to solve a graph. -/
def visitBound (g : Graph) : BackwardMode → Nat
  | .worklist => (g.size - 1) + (used g.routine).size * g.edges.size
  | .sweeps => (g.size - 1) * ((used g.routine).size * (g.size - 1) + 1)

variable {g : Graph} {x y : VarSet}

theorem mem_used {v : Var} {p : Fin g.size} (h : v ∈ (g.point p).stmt.uses) : v ∈ used g.routine := by
  rcases g.exists_line p with hnop | ⟨line, hline, heq⟩
  · rw [hnop] at h
    cases h
  · exact VarSet.mem_ofList.2 (List.mem_flatMap.2 ⟨line, Array.mem_toList_iff.2 hline, heq ▸ h⟩)

theorem effect_subset_used {p : Fin g.size} (hx : x.subset (used g.routine) = true) :
    (effect (g.point p).stmt x).subset (used g.routine) = true := by
  rw [VarSet.subset_iff] at hx ⊢
  intro v hv
  rcases mem_effect.1 hv with huse | ⟨hv, -⟩
  · exact mem_used huse
  · exact hx v hv

theorem empty_subset (x : VarSet) : VarSet.empty.subset x = true := lawful.initial_le x

/-- All facts stay within the variables that are read. -/
theorem computes (g : Graph) :
    (analysis.equations g).Computes (fun x => x.subset (used g.routine) = true) analysis.Same
      fun p => effect (g.point p).stmt where
  equivalence := (lawful.ordered g).equivalence
  boundary := empty_subset _
  initial := empty_subset _
  merge hx hy := lawful.merge_le_iff.2 ⟨hx, hy⟩
  merge_same := (lawful.ordered g).merge_same
  transfer := by
    intro p x y z changed hx _ h
    obtain ⟨hz, hchanged⟩ := (transfers g).transfer h
    exact ⟨VarSet.subset_trans hz.1 (effect_subset_used hx), hz, hchanged⟩

theorem climbs (g : Graph) :
    (analysis.equations g).Climbs (fun x => x.subset (used g.routine) = true) (fun x y => analysis.le x y = true)
      VarSet.size (used g.routine).size where
  height_le := VarSet.size_le
  height_mono _ _ h := VarSet.size_le h
  height_lt _ _ h hne := VarSet.size_lt h hne
  total := by
    intro p x y _ _
    exact ⟨y.replace (effect (g.point p).stmt x), rfl⟩

/-- On every graph, and in every order of visits, a run ends within the bound of its mode, unless it may not take that
many visits. -/
theorem solve_converges (hg : g.Built) (settings : Settings) :
    analysis.EndsWithin g settings (visitBound g settings.backward) := by
  have hmonotone : Equations.Monotone (fun x => x.subset (used g.routine) = true) (fun x y => analysis.le x y = true)
      fun p => effect (g.point p).stmt := fun _ _ h => effect_mono h
  cases hmode : settings.backward with
  | worklist =>
    exact Analysis.endsWithin_worklist hg.wired lawful (computes g) hmonotone (climbs g) (by
      simp [Analysis.sweeps, hmode])
  | sweeps =>
    exact Analysis.endsWithin_sweeps hg.wired lawful (computes g) hmonotone (climbs g) (by
      simp [Analysis.sweeps, hmode, analysis])

/-- A loop with a self loop and parallel edges: a stack that may take 24 visits does not fail, nor do sweeps that may
take 78. -/
theorem solve_converges_countdown :
    ∃ g, Graph.build Analysis.countdown = .ok g ∧
      (∃ sol, analysis.solve g { strategy := .lifo, maxVisits := 24 } = .ok sol ∧ sol.visits ≤ 24) ∧
      ∃ sol, analysis.solve g { backward := .sweeps, maxVisits := 78 } = .ok sol ∧ sol.visits ≤ 78 := by
  have hbounds : ((Graph.build Analysis.countdown).toOption.map fun g =>
      (visitBound g .worklist, visitBound g .sweeps)) = some (24, 78) := by
    decide +kernel
  obtain ⟨g, hg, hbounds⟩ := Option.map_eq_some_iff.1 hbounds
  obtain ⟨hworklist, hsweeps⟩ := Prod.mk.inj hbounds
  rw [toOption_eq_some] at hg
  have hbuilt := (Graph.built_build hg).1
  have hstack := solve_converges hbuilt { strategy := .lifo, maxVisits := 24 }
  have hrounds := solve_converges hbuilt { backward := .sweeps, maxVisits := 78 }
  rw [hworklist] at hstack
  rw [hsweeps] at hrounds
  -- Both may take as many visits as the bound, so neither fails to end.
  exact ⟨g, hg, hstack.resolve_right fun h => Nat.lt_irrefl _ h.1, hrounds.resolve_right fun h => Nat.lt_irrefl _ h.1⟩

end Dataflow.Liveness
