import Dataflow.Proofs.Liveness.Order
import Dataflow.Proofs.Solver.FixedPoint
/-!
# What one more sweep tells of facts

Any facts can be checked by a sweep that applies every equation once more and counts the nodes that change. A sweep
works on a copy, but as long as nothing is counted the copy keeps saying the same of what leaves the nodes. So nothing
is counted exactly if what leaves each node is the effect on what is merged there (`Equations.recheck_eq_zero_iff`). What
the facts say of what arrives is overwritten before it is used: if it is not what is merged, that goes unnoticed
(`Analysis.resolve_eq_zero_iff`).
-/
namespace Dataflow

namespace Equations

variable {F : Type} {n : Nat} {s : Equations F n} {same : F → F → Prop} {flow flow' flow'' : Flow F n} {p : Fin n}
  {count count' : Nat} {changed : Bool}

/-- A visit that reports no change has found that what leaves its node is the effect on what is merged there. -/
theorem carried_of_visit (h : s.Overwrites same) (hvisit : s.visit flow' p = .ok (flow'', false))
    (hleaving : ∀ q, same (flow.leaving.get q) (flow'.leaving.get q)) :
    s.Carried same flow p ∧ ∀ q, same (flow.leaving.get q) (flow''.leaving.get q) := by
  obtain ⟨x, htransfer, rfl⟩ := visit_eq_ok hvisit
  have hkept : same x (flow'.leaving.get p) := not_not.1 (mt (h.changed_iff htransfer).2 Bool.false_ne_true)
  have hx : same (flow.leaving.get p) x := h.equivalence.trans (hleaving p) (h.equivalence.symm hkept)
  have hgather : same (s.gather flow' p) (s.gather flow p) :=
    gather_same h.computes fun q _ => h.equivalence.symm (hleaving q)
  obtain ⟨z, changed', htransfer', hz⟩ := h.transfer_same (flow.leaving.get p) hgather htransfer
  refine ⟨⟨z, changed', htransfer', h.equivalence.trans hx hz⟩, ?_⟩
  intro q
  rw [Flow.leaving_put]
  split
  next hpq => exact hpq ▸ hx
  next => exact hleaving q

/-! ## Sweeps -/

/-- A visit, with the number of changes so far. -/
def tally (s : Equations F n) (r : Flow F n × Nat) (p : Fin n) : Except EvalError (Flow F n × Nat) := do
  let (flow, changed) ← s.visit r.1 p
  return (flow, if changed then r.2 + 1 else r.2)

theorem recheck_eq_ok (h : s.recheck flow = .ok count) :
    ∃ flow', s.inner.foldlM s.tally (flow, 0) = .ok (flow', count) := by
  obtain ⟨r, hr, hcount⟩ := bind_ok_iff.1 h
  cases hcount
  exact ⟨r.1, hr⟩

theorem tally_eq_ok (h : s.tally (flow, count) p = .ok (flow', count')) :
    ∃ changed, s.visit flow p = .ok (flow', changed) ∧ count' = if changed then count + 1 else count := by
  obtain ⟨r, hvisit, hr⟩ := bind_ok_iff.1 h
  cases hr
  exact ⟨r.2, hvisit, rfl⟩

theorem le_of_tallies {ps : List (Fin n)} (h : ps.foldlM s.tally (flow, count) = .ok (flow', count')) :
    count ≤ count' := by
  refine foldlM_keeps (P := fun r => count ≤ r.2) (fun r r' p _ hr htally => ?_) h (Nat.le_refl count)
  obtain ⟨changed, -, hcount⟩ := tally_eq_ok htally
  split at hcount <;> omega

/-- Where a sweep counts nothing, every visit has found what leaves its node to be as it should. -/
theorem carried_of_tallies (h : s.Overwrites same) {ps : List (Fin n)}
    (hps : ps.foldlM s.tally (flow', count) = .ok (flow'', count))
    (hleaving : ∀ q, same (flow.leaving.get q) (flow'.leaving.get q)) : ∀ p ∈ ps, s.Carried same flow p := by
  induction ps generalizing flow' with
  | nil => simp
  | cons p ps ih =>
    rw [List.foldlM_cons] at hps
    obtain ⟨⟨flow₁, count₁⟩, hp, hps⟩ := bind_ok_iff.1 hps
    obtain ⟨changed, hvisit, hcount⟩ := tally_eq_ok hp
    -- The count does not go down, so it has not gone up at the first visit.
    have hle := le_of_tallies hps
    have hunchanged : changed = false := by
      cases changed with
      | false => rfl
      | true =>
        rw [if_pos rfl] at hcount
        omega
    subst hunchanged
    cases hcount
    obtain ⟨hcarried, hleaving₁⟩ := carried_of_visit h hvisit hleaving
    exact List.forall_mem_cons.2 ⟨hcarried, ih hps hleaving₁⟩

/-- A sweep counts nothing exactly if what leaves each node is the effect on what is merged there. -/
theorem recheck_eq_zero_iff (h : s.Overwrites same) :
    s.recheck flow = .ok 0 ↔ ∀ p, p ≠ s.root → s.Carried same flow p := by
  constructor
  · intro hrecheck p hp
    obtain ⟨flow', hsweep⟩ := recheck_eq_ok hrecheck
    exact carried_of_tallies h hsweep (fun q => h.equivalence.refl _) p (Analysis.mem_inner.2 hp)
  · exact recheck_of_carried h

end Equations

namespace Analysis

variable {F : Type} {a : Analysis F} {g : Graph} {same : F → F → Prop} {f : Facts F g.size} {x x' y : F}

/-! ## Equations of the nodes that are visited -/

/-- Several facts merged into the initial one, in order. -/
def mergeAll (a : Analysis F) (xs : List F) : F := xs.foldl (fun acc x => a.merge x acc) a.initial

/-- At every node that is visited, what flows in is merged: forward, the fact before it from the facts after its
predecessors; backward, the fact after it from the facts before its successors. -/
def Merges (a : Analysis F) (g : Graph) (same : F → F → Prop) (f : Facts F g.size) : Prop :=
  match a.direction with
  | .forward => ∀ p, p ≠ g.entry → same (f.ins.get p) (a.mergeAll ((g.preds p).map f.outs.get))
  | .backward => ∀ p, p ≠ g.exit → same (f.outs.get p) (a.mergeAll ((g.succs p).map f.ins.get))

/-- At every node that is visited, the other fact is the effect on what is merged there, whether or not this is the fact
that flows in. -/
def Carries (a : Analysis F) (g : Graph) (same : F → F → Prop) (f : Facts F g.size) : Prop :=
  match a.direction with
  | .forward => ∀ p, p ≠ g.entry →
    ∃ z, a.effect (g.point p) (a.mergeAll ((g.preds p).map f.outs.get)) = .ok z ∧ same (f.outs.get p) z
  | .backward => ∀ p, p ≠ g.exit →
    ∃ z, a.effect (g.point p) (a.mergeAll ((g.succs p).map f.ins.get)) = .ok z ∧ same (f.ins.get p) z

/-- The equations of all nodes that are visited: what flows in is merged, and the other fact is the effect on it. -/
def Satisfies (a : Analysis F) (g : Graph) (same : F → F → Prop) (f : Facts F g.size) : Prop :=
  match a.direction with
  | .forward => ∀ p, p ≠ g.entry → same (f.ins.get p) (a.mergeAll ((g.preds p).map f.outs.get)) ∧
    ∃ z, a.effect (g.point p) (f.ins.get p) = .ok z ∧ same (f.outs.get p) z
  | .backward => ∀ p, p ≠ g.exit → same (f.outs.get p) (a.mergeAll ((g.succs p).map f.ins.get)) ∧
    ∃ z, a.effect (g.point p) (f.outs.get p) = .ok z ∧ same (f.ins.get p) z

theorem Overwrites.effect_same (h : a.Overwrites same) (hx : same x x') {p : Point} :
    (∃ z, a.effect p x = .ok z ∧ same y z) → ∃ z, a.effect p x' = .ok z ∧ same y z := by
  rw [exists_effect_iff, exists_effect_iff]
  exact h.exists_transfer hx

theorem satisfies_iff (h : a.Overwrites same) : a.Satisfies g same f ↔ a.Merges g same f ∧ a.Carries g same f := by
  -- Where a fact is what is merged, the effect on either is the same.
  cases hd : a.direction with
  | forward | backward =>
    simp only [Satisfies, Merges, Carries, hd]
    constructor
    · intro hs
      exact ⟨fun p hp => (hs p hp).1, fun p hp => h.effect_same (hs p hp).1 (hs p hp).2⟩
    · rintro ⟨hmerges, hcarries⟩ p hp
      exact ⟨hmerges p hp, h.effect_same (h.equivalence.symm (hmerges p hp)) (hcarries p hp)⟩

theorem carries_iff (h : a.Overwrites same) :
    a.Carries g same f ↔ ∀ p, p ≠ (a.equations g).root → (a.equations g).Carried same (a.flow f) p := by
  have hrecorded : ∀ {p : Fin g.size} {x y : F}, (∃ z, a.effect (g.point p) x = .ok z ∧ same y z) ↔
      ∃ z changed, (a.equations g).transfer p x y = .ok (z, changed) ∧ same y z := by
    intro p x y
    rw [exists_effect_iff]
    exact ⟨h.exists_transfer (h.equivalence.refl x), h.exists_transfer (h.equivalence.refl x)⟩
  simp only [Equations.Carried, ← hrecorded]
  cases hd : a.direction <;> simp only [Carries, mergeAll, List.foldl_map, Equations.gather, equations, flow, hd]

/-- A sweep over facts counts nothing exactly if the facts that transfers write are as they should be. So it decides
whether all equations are satisfied as long as this is not so, or the facts that flow in are what is merged. -/
theorem resolve_eq_zero_iff (h : a.Overwrites same) (f : Facts F g.size) :
    (a.resolve g f = .ok 0 ↔ a.Carries g same f) ∧
      ((a.resolve g f = .ok 0 ↔ a.Satisfies g same f) ↔ (a.Carries g same f → a.Merges g same f)) := by
  have hresolve : a.resolve g f = .ok 0 ↔ a.Carries g same f := by
    rw [carries_iff h]
    exact Equations.recheck_eq_zero_iff (h.equations g)
  refine ⟨hresolve, ?_⟩
  rw [hresolve, satisfies_iff h]
  constructor
  · exact fun hiff hcarries => (hiff.1 hcarries).1
  · exact fun hmerges => ⟨fun hcarries => ⟨hmerges hcarries, hcarries⟩, And.right⟩

/-- Equal facts of live variables have the same members, and transfers overwrite what was recorded. -/
theorem overwrites_liveness : Liveness.analysis.Overwrites fun x y => ∀ v, v ∈ x ↔ v ∈ y where
  equivalence := ⟨fun _ _ => Iff.rfl, fun h v => (h v).symm, fun h h' v => (h v).trans (h' v)⟩
  merge_same := by
    intro x x' y y' hx hy v
    change v ∈ y.union x ↔ v ∈ y'.union x'
    rw [VarSet.mem_union, VarSet.mem_union, hx v, hy v]
  transfer_same := by
    intro p x x' y z changed y' hx htransfer
    have hz := VarSet.same_iff_mem.1 (VarSet.replace_spec y (Liveness.effect p.stmt x)).1
    have hz' := VarSet.same_iff_mem.1 (VarSet.replace_spec y' (Liveness.effect p.stmt x')).1
    rw [Except.ok.inj htransfer] at hz
    refine ⟨(y'.replace (Liveness.effect p.stmt x')).1, (y'.replace (Liveness.effect p.stmt x')).2, rfl, ?_⟩
    intro v
    rw [hz v, hz' v, Liveness.mem_effect, Liveness.mem_effect, hx v]
  changed_iff := by
    intro p x y z changed htransfer
    have hspec := (VarSet.replace_spec y (Liveness.effect p.stmt x)).2
    rw [Except.ok.inj htransfer, VarSet.same_iff_mem] at hspec
    exact hspec

/-- A solution of the loop, with and without what is live before its first statement. -/
theorem resolve_eq_zero_iff_countdown :
    ∃ g sol, Graph.build countdown = .ok g ∧ Liveness.analysis.solve g = .ok sol ∧
      Liveness.analysis.Carries g (fun x y => ∀ v, v ∈ x ↔ v ∈ y) sol.toFacts ∧
      ¬ Liveness.analysis.Carries g (fun x y => ∀ v, v ∈ x ↔ v ∈ y)
        ⟨sol.ins.setIfInBounds 1 .empty, sol.outs⟩ := by
  have hrun : ((Graph.build countdown).toOption.bind fun g => (Liveness.analysis.solve g).toOption.map fun sol =>
      decide ((Liveness.analysis.resolve g sol.toFacts).toOption = some 0) &&
        !decide ((Liveness.analysis.resolve g ⟨sol.ins.setIfInBounds 1 .empty, sol.outs⟩).toOption = some 0)) =
          some true := by
    decide +kernel
  obtain ⟨g, hg, h⟩ := Option.bind_eq_some_iff.1 hrun
  obtain ⟨sol, hsol, h⟩ := Option.map_eq_some_iff.1 h
  simp only [Bool.and_eq_true, Bool.not_eq_true', decide_eq_true_eq, decide_eq_false_iff_not, toOption_eq_some] at h
  rw [toOption_eq_some] at hg hsol
  exact ⟨g, sol, hg, hsol, (resolve_eq_zero_iff overwrites_liveness _).1.1 h.1,
    mt (resolve_eq_zero_iff overwrites_liveness _).1.2 h.2⟩

/-- A solution whose fact before the return has been edited: nothing is counted, but it is not what is merged there. -/
theorem resolve_misses_edit :
    ∃ r g sol, Reading.read "x = 1\nreturn x" = .ok r ∧ Graph.build r = .ok g ∧ Constants.analysis.solve g = .ok sol ∧
      Constants.analysis.resolve g
        ⟨sol.ins.setIfInBounds 2 (Env.empty.set { name := "x" } (.const 5)), sol.outs⟩ = .ok 0 ∧
      ¬ Constants.analysis.Satisfies g (fun x y => ∀ v, x.get v = y.get v)
        ⟨sol.ins.setIfInBounds 2 (Env.empty.set { name := "x" } (.const 5)), sol.outs⟩ := by
  have hrun : ((Reading.read "x = 1\nreturn x").toOption.bind fun r => (Graph.build r).toOption.bind fun g =>
      (Constants.analysis.solve g).toOption.bind fun sol =>
        let ins := sol.ins.setIfInBounds 2 (Env.empty.set { name := "x" } (.const 5))
        (g.position? (.stmt 1)).map fun p =>
          decide ((Constants.analysis.resolve g ⟨ins, sol.outs⟩).toOption = some 0) && decide (p ≠ g.entry) &&
            decide ((ins.get p).get { name := "x" } ≠
              (Constants.analysis.mergeAll ((g.preds p).map sol.outs.get)).get { name := "x" })) = some true := by
    decide +kernel
  obtain ⟨r, hr, h⟩ := Option.bind_eq_some_iff.1 hrun
  obtain ⟨g, hg, h⟩ := Option.bind_eq_some_iff.1 h
  obtain ⟨sol, hsol, h⟩ := Option.bind_eq_some_iff.1 h
  obtain ⟨p, -, h⟩ := Option.map_eq_some_iff.1 h
  simp only [Bool.and_eq_true, decide_eq_true_eq, toOption_eq_some] at h
  obtain ⟨⟨hresolve, hp⟩, hne⟩ := h
  rw [toOption_eq_some] at hr hg hsol
  refine ⟨r, g, sol, hr, hg, hsol, hresolve, ?_⟩
  intro hsatisfies
  exact hne ((hsatisfies p hp).1 { name := "x" })

end Analysis

end Dataflow
