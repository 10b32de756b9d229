import Dataflow.Proofs.Constants.Convergence
import Dataflow.Proofs.Solver.Agreement
/-!
# Results are fixed points

Nothing is asked of effects here but that they overwrite: equal facts flowing in leave equal facts, whatever was
recorded before. Whenever a run ends, each fact then satisfies its equation, and applying all equations once more
changes nothing (`Analysis.solve_fixedPoint`). A run may fail to end, but it never ends too early.
-/
namespace Dataflow

namespace Equations

variable {F : Type} {n : Nat}

/-- Merging and transfers do not tell equal facts apart. A transfer overwrites the fact that was recorded, and reports a
change exactly if it left another one. -/
structure Overwrites (s : Equations F n) (same : F → F → Prop) : Prop where
  equivalence : Equivalence same
  merge_same : ∀ {x x' y y'}, same x x' → same y y' → same (s.merge x y) (s.merge x' y')
  transfer_same : ∀ {p x x' y z changed} y', same x x' → s.transfer p x y = .ok (z, changed) →
    ∃ z' changed', s.transfer p x' y' = .ok (z', changed') ∧ same z z'
  changed_iff : ∀ {p x y z changed}, s.transfer p x y = .ok (z, changed) → (changed = true ↔ ¬ same z y)

/-- Every fact satisfies its equation. -/
structure FixedPoint (s : Equations F n) (same : F → F → Prop) (flow : Flow F n) : Prop where
  arriving_root : same (flow.arriving.get s.root) s.initial
  leaving_root : same (flow.leaving.get s.root) s.boundary
  gathered : ∀ p, p ≠ s.root → same (flow.arriving.get p) (s.gather flow p)
  transferred : ∀ p, p ≠ s.root → ∀ y, ∃ z changed, s.transfer p (flow.arriving.get p) y = .ok (z, changed) ∧
    same (flow.leaving.get p) z

/-- At every node that is not due some transfer of what arrives there has been computed. -/
def Applied (s : Equations F n) (r : Progress F n) : Prop :=
  ∀ p, p ≠ s.root → ¬ r.schedule.Due p → ∃ y z, s.transfer p (r.flow.arriving.get p) y = .ok z

/-- What a transfer leaves over the initial fact; where it fails, the initial fact itself. -/
def result (s : Equations F n) (p : Fin n) (x : F) : F :=
  ((s.transfer p x s.initial).map (·.1)).toOption.getD s.initial

variable {s : Equations F n} {same : F → F → Prop} {flow flow' : Flow F n} {p : Fin n}

theorem Overwrites.same_result (h : s.Overwrites same) {x y z : F} {changed : Bool}
    (htransfer : s.transfer p x y = .ok (z, changed)) : same z (s.result p x) := by
  obtain ⟨z', changed', hinitial, hz⟩ := h.transfer_same s.initial (h.equivalence.refl x) htransfer
  rw [result, hinitial]
  exact hz

theorem Overwrites.computes (h : s.Overwrites same) : s.Computes (fun _ => True) same s.result where
  equivalence := h.equivalence
  boundary := trivial
  initial := trivial
  merge _ _ := trivial
  merge_same := h.merge_same
  transfer _ _ htransfer := ⟨trivial, h.same_result htransfer, h.changed_iff htransfer⟩

/-! ## The end of a run -/

theorem Applied.advance {r r' : Progress F n} {rest : Schedule n} (h : s.Applied r)
    (hschedule : r.schedule.Consistent s.root) (hnext : r.schedule.next? = some (p, rest))
    (hadvance : s.advance r p rest = .ok r') : s.Applied r' := by
  obtain ⟨x, changed, htransfer, rfl⟩ := advance_eq_ok hadvance
  intro q hq hndue
  rw [Flow.arriving_put]
  by_cases hpq : p = q
  · subst hpq
    rw [if_pos rfl]
    exact ⟨_, _, htransfer⟩
  · rw [if_neg hpq]
    exact h q hq (hschedule.not_due_of_report hnext hq (Ne.symm hpq) hndue)

theorem fixedPoint_of_run (h : s.Overwrites same) (hs : s.Linked) {schedule : Schedule n}
    (hschedule : schedule.Consistent s.root) (hdue : ∀ p, p ≠ s.root → schedule.Due p) {budget : Nat}
    {r : Progress F n} (hrun : s.run budget ⟨s.start, schedule, 0⟩ = .ok r) : s.FixedPoint same r.flow := by
  obtain ⟨hreach, hnone⟩ := run_eq_ok hrun
  have hcomputes := h.computes
  obtain ⟨hsound, happlied⟩ : s.Sound (fun _ => True) same s.result r ∧ s.Applied r :=
    hreach.keeps (I := fun r => s.Sound (fun _ => True) same s.result r ∧ s.Applied r)
      (fun _ _ _ _ hr hnext hadvance =>
        ⟨hr.1.advance hcomputes hs hnext hadvance, hr.2.advance hr.1.schedule hnext hadvance⟩)
      ⟨sound_start hcomputes hschedule hdue, fun p hp hndue => absurd (hdue p hp) hndue⟩
  have hsolves := hsound.solves hcomputes hnone
  refine ⟨hsolves.arriving_root, hsolves.leaving_root, fun p hp => (hsolves.settled p hp).1, ?_⟩
  intro p hp y
  -- The transfer of what arrives was computed at the last visit, so it has a result over any recorded fact.
  obtain ⟨y', ⟨z', changed'⟩, hz'⟩ := happlied p hp (hsound.schedule.not_due_of_next?_none hnone hp)
  obtain ⟨z, changed, hz, -⟩ := h.transfer_same y (h.equivalence.refl _) hz'
  exact ⟨z, changed, hz, h.equivalence.trans (hsolves.settled p hp).2 (h.equivalence.symm (h.same_result hz))⟩

/-! ## Applying all equations once more -/

/-- What leaves a node is the effect on what is merged there, whatever is said to arrive. -/
def Carried (s : Equations F n) (same : F → F → Prop) (flow : Flow F n) (p : Fin n) : Prop :=
  ∃ z changed, s.transfer p (s.gather flow p) (flow.leaving.get p) = .ok (z, changed) ∧ same (flow.leaving.get p) z

theorem FixedPoint.carried (h : s.Overwrites same) (hf : s.FixedPoint same flow) (hp : p ≠ s.root) :
    s.Carried same flow p := by
  obtain ⟨z, changed, htransfer, hz⟩ := hf.transferred p hp (flow.leaving.get p)
  obtain ⟨z', changed', htransfer', hz'⟩ := h.transfer_same (flow.leaving.get p) (hf.gathered p hp) htransfer
  exact ⟨z', changed', htransfer', h.equivalence.trans hz hz'⟩

/-- Where equal facts leave all nodes, a visit leaves equal facts as well, and reports no change. -/
theorem Carried.visit (h : s.Overwrites same) (hp : s.Carried same flow p)
    (hleaving : ∀ q, same (flow.leaving.get q) (flow'.leaving.get q)) :
    ∃ flow'', s.visit flow' p = .ok (flow'', false) ∧ ∀ q, same (flow.leaving.get q) (flow''.leaving.get q) := by
  have hgather : same (s.gather flow p) (s.gather flow' p) := gather_same h.computes fun q _ => hleaving q
  obtain ⟨z, changed, htransfer, hz⟩ := hp
  obtain ⟨z', changed', htransfer', hz'⟩ := h.transfer_same (flow'.leaving.get p) hgather htransfer
  have hsame : same (flow.leaving.get p) z' := h.equivalence.trans hz hz'
  have hchanged : changed' = false := by
    rw [← Bool.not_eq_true, h.changed_iff htransfer', not_not]
    exact h.equivalence.trans (h.equivalence.symm hsame) (hleaving p)
  refine ⟨flow'.put p (s.gather flow' p) z', ?_, ?_⟩
  · simp only [Equations.visit, htransfer', hchanged]
    rfl
  · intro q
    rw [Flow.leaving_put]
    split
    next hpq => exact hpq ▸ hsame
    next => exact hleaving q

theorem recheck_of_carried (h : s.Overwrites same) (hc : ∀ p, p ≠ s.root → s.Carried same flow p) :
    s.recheck flow = .ok 0 := by
  refine bind_ok_iff.2 ?_
  -- Visit after visit what leaves the nodes stays equal to what it was, and nothing is counted.
  refine foldlM_succeeds
    (P := fun (r : Flow F n × Nat) => (∀ q, same (flow.leaving.get q) (r.1.leaving.get q)) ∧ r.2 = 0) ?_
    (fun r hr => congrArg Except.ok hr.2) ⟨fun q => h.equivalence.refl _, rfl⟩
  intro r p hp hr
  obtain ⟨flow', hvisit, hleaving⟩ := (hc p (Analysis.mem_inner.1 hp)).visit h hr.1
  exact ⟨(flow', r.2), bind_ok_iff.2 ⟨_, hvisit, rfl⟩, hleaving, hr.2⟩

theorem FixedPoint.recheck (h : s.Overwrites same) (hf : s.FixedPoint same flow) : s.recheck flow = .ok 0 :=
  recheck_of_carried h fun _ hp => hf.carried h hp

end Equations

namespace Analysis

variable {F : Type} {a : Analysis F} {g : Graph} {same : F → F → Prop}

/-- Merging and transfers do not tell equal facts apart. A transfer overwrites the fact that was recorded, and reports a
change exactly if it left another one. -/
structure Overwrites (a : Analysis F) (same : F → F → Prop) : Prop where
  equivalence : Equivalence same
  merge_same : ∀ {x x' y y'}, same x x' → same y y' → same (a.merge x y) (a.merge x' y')
  transfer_same : ∀ {p x x' y z changed} y', same x x' → a.transfer p x y = .ok (z, changed) →
    ∃ z' changed', a.transfer p x' y' = .ok (z', changed') ∧ same z z'
  changed_iff : ∀ {p x y z changed}, a.transfer p x y = .ok (z, changed) → (changed = true ↔ ¬ same z y)

/-- Every fact satisfies its equation. Forward, the fact after the entry is the boundary, and at every other node the
fact before it is merged from the facts after its predecessors, in order, and the fact after it is the effect on that;
backward, the same from the exit on. -/
def FixedPoint (a : Analysis F) (g : Graph) (same : F → F → Prop) (f : Facts F g.size) : Prop :=
  match a.direction with
  | .forward =>
    same (f.outs.get g.entry) (a.boundary g.routine) ∧ same (f.ins.get g.entry) a.initial ∧
      ∀ p, p ≠ g.entry →
        same (f.ins.get p) ((g.preds p).foldl (fun acc q => a.merge (f.outs.get q) acc) a.initial) ∧
          ∃ z, a.effect (g.point p) (f.ins.get p) = .ok z ∧ same (f.outs.get p) z
  | .backward =>
    same (f.ins.get g.exit) (a.boundary g.routine) ∧ same (f.outs.get g.exit) a.initial ∧
      ∀ p, p ≠ g.exit →
        same (f.outs.get p) ((g.succs p).foldl (fun acc q => a.merge (f.ins.get q) acc) a.initial) ∧
          ∃ z, a.effect (g.point p) (f.outs.get p) = .ok z ∧ same (f.ins.get p) z

theorem Overwrites.equations (h : a.Overwrites same) (g : Graph) : (a.equations g).Overwrites same where
  equivalence := h.equivalence
  merge_same := h.merge_same
  transfer_same := h.transfer_same
  changed_iff := h.changed_iff

theorem exists_effect_iff {p : Point} {x y : F} :
    (∃ z, a.effect p x = .ok z ∧ same y z) ↔
      ∃ z changed, a.transfer p x a.initial = .ok (z, changed) ∧ same y z := by
  simp only [effect, map_ok_iff, Prod.exists]
  constructor
  · rintro ⟨_, ⟨z, changed, htransfer, rfl⟩, hsame⟩
    exact ⟨z, changed, htransfer, hsame⟩
  · rintro ⟨z, changed, htransfer, hsame⟩
    exact ⟨z, ⟨z, changed, htransfer, rfl⟩, hsame⟩

/-- A transfer gives the same for facts that say the same, whatever was recorded before. -/
theorem Overwrites.exists_transfer (h : a.Overwrites same) {p : Point} {x x' y w w' : F} (hx : same x x') :
    (∃ z changed, a.transfer p x w = .ok (z, changed) ∧ same y z) →
      ∃ z changed, a.transfer p x' w' = .ok (z, changed) ∧ same y z := by
  rintro ⟨z, changed, htransfer, hsame⟩
  obtain ⟨z', changed', htransfer', hz'⟩ := h.transfer_same w' hx htransfer
  exact ⟨z', changed', htransfer', h.equivalence.trans hsame hz'⟩

theorem fixedPoint_of_equations {f : Facts F g.size} (h : (a.equations g).FixedPoint same (a.flow f)) :
    a.FixedPoint g same f := by
  have heffect : ∀ p, p ≠ (a.equations g).root → ∃ z, a.effect (g.point p) ((a.flow f).arriving.get p) = .ok z ∧
      same ((a.flow f).leaving.get p) z :=
    fun p hp => exists_effect_iff.2 (h.transferred p hp a.initial)
  have hboth := fun p hp => And.intro (h.gathered p hp) (heffect p hp)
  have hleaving := h.leaving_root
  have harriving := h.arriving_root
  revert hleaving harriving hboth
  cases hd : a.direction <;> simp only [FixedPoint, Equations.gather, equations, Analysis.flow, hd] <;>
    exact fun hboth hleaving harriving => ⟨hleaving, harriving, hboth⟩

theorem equations_of_fixedPoint (h : a.Overwrites same) {f : Facts F g.size} (hf : a.FixedPoint g same f) :
    (a.equations g).FixedPoint same (a.flow f) := by
  -- The equations, read off in terms of the flow, for whichever direction.
  obtain ⟨hleaving, harriving, hinner⟩ : same ((a.flow f).leaving.get (a.equations g).root) (a.boundary g.routine) ∧
      same ((a.flow f).arriving.get (a.equations g).root) a.initial ∧
        ∀ p, p ≠ (a.equations g).root →
          same ((a.flow f).arriving.get p) ((a.equations g).gather (a.flow f) p) ∧
            ∃ z, a.effect (g.point p) ((a.flow f).arriving.get p) = .ok z ∧ same ((a.flow f).leaving.get p) z := by
    revert hf
    cases hd : a.direction <;> simp only [FixedPoint, Equations.gather, equations, Analysis.flow, hd] <;>
      exact fun hf => hf
  refine ⟨harriving, hleaving, fun p hp => (hinner p hp).1, ?_⟩
  intro p hp y
  exact h.exists_transfer (h.equivalence.refl _) (exists_effect_iff.1 (hinner p hp).2)

/-! ## Runs that end -/

/-- Equal facts of constant propagation say the same of every variable, and its transfers overwrite what was recorded,
also those that are not monotone. -/
theorem overwrites_constants :
    Constants.analysis.Overwrites fun x y => ∀ v, x.get v = y.get v where
  equivalence := ⟨fun _ _ => rfl, fun h v => (h v).symm, fun h h' v => (h v).trans (h' v)⟩
  merge_same := by
    intro x x' y y' hx hy v
    change (x.mergeInto y).1.get v = (x'.mergeInto y').1.get v
    rw [Env.get_mergeInto, Env.get_mergeInto, hx v, hy v]
  transfer_same := by
    intro p x x' y z changed y' hx htransfer
    obtain ⟨env, henv, hz⟩ := map_ok_iff.1 htransfer
    obtain ⟨env', henv', hsame⟩ := Constants.effect_congr hx henv
    refine ⟨(y'.replace env').1, (y'.replace env').2, map_ok_iff.2 ⟨env', henv', rfl⟩, ?_⟩
    intro v
    have hget : z.get v = env.get v := by
      have hspec := (Env.replace_spec y env).1 v
      rwa [hz] at hspec
    rw [hget, (Env.replace_spec y' env').1 v, hsame v]
  changed_iff := by
    intro p x y z changed htransfer
    obtain ⟨env, -, hz⟩ := map_ok_iff.1 htransfer
    have hspec := (Env.replace_spec y env).2
    rwa [hz] at hspec

theorem fixedPoint_of_solve (hg : g.Wired) (h : a.Overwrites same) {settings : Settings} {sol : Solution F g.size}
    (hsol : a.solve g settings = .ok sol) : (a.equations g).FixedPoint same (a.flow sol.toFacts) := by
  obtain ⟨r, hrun, hflow, -⟩ := solve_eq_ok hsol
  rw [hflow]
  exact Equations.fixedPoint_of_run (h.equations g) (linked a hg) (schedule_consistent a g settings)
    (fun _ hp => schedule_due a g settings hp) hrun

/-- Whenever a run ends, its facts are a fixed point, monotone or not, and applying every equation once more changes
none of them. -/
theorem solve_fixedPoint (hg : g.Built) (h : a.Overwrites same) {settings : Settings} {sol : Solution F g.size}
    (hsol : a.solve g settings = .ok sol) :
    a.FixedPoint g same sol.toFacts ∧ a.resolve g sol.toFacts = .ok 0 := by
  have hf := fixedPoint_of_solve hg.wired h hsol
  exact ⟨fixedPoint_of_equations hf, hf.recheck (h.equations g)⟩

/-- The loop that a queue goes round for ever: with a stack the run ends, and in a fixed point. -/
theorem solve_fixedPoint_chase :
    ∃ r g sol, Reading.read (Constants.chase "/") = .ok r ∧ Graph.build r = .ok g ∧
      Constants.analysis.solve g { strategy := .lifo } = .ok sol ∧
      Constants.analysis.FixedPoint g (fun x y => ∀ v, x.get v = y.get v) sol.toFacts ∧
      Constants.analysis.resolve g sol.toFacts = .ok 0 := by
  have hrun : ((Reading.read (Constants.chase "/")).toOption.bind fun r => (Graph.build r).toOption.bind fun g =>
      (Constants.analysis.solve g { strategy := .lifo }).toOption.map fun _ => ()).isSome = true := by
    decide +kernel
  obtain ⟨u, hu⟩ := Option.isSome_iff_exists.1 hrun
  obtain ⟨r, hr, hu⟩ := Option.bind_eq_some_iff.1 hu
  obtain ⟨g, hg, hu⟩ := Option.bind_eq_some_iff.1 hu
  obtain ⟨sol, hsol, -⟩ := Option.map_eq_some_iff.1 hu
  rw [toOption_eq_some] at hr hg hsol
  obtain ⟨hfixed, hresolve⟩ := solve_fixedPoint (Graph.built_build hg).1 overwrites_constants hsol
  exact ⟨r, g, sol, hr, hg, hsol, hfixed, hresolve⟩

end Analysis

end Dataflow
