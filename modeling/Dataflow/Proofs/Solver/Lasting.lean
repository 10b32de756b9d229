import Dataflow.Proofs.Solver.FixedPoint
/-!
# What lasts along a run

A relation between an earlier and a later fact may survive merging and transfers though these are not monotone in any
order. It then relates what leaves a node at some time of a run to all that leaves it later (`Reaches.lasts`), and to
what leaves it in every fixed point (`Reaches.keeps_fixedPoint`). The relation need not be transitive, so a state has
to be compared with all states before it at once: `Lasting` names the flows that come up to all that was recorded.
-/
namespace Dataflow.Equations

variable {F : Type} {n : Nat}

/-- A relation that merging and transfers do not break, and under which nothing contradicts the initial fact. -/
structure Survives (s : Equations F n) (keeps : F → F → Prop) : Prop where
  refl : ∀ x, keeps x x
  initial : ∀ x, keeps s.initial x
  merge : ∀ {x x' y y'}, keeps x x' → keeps y y' → keeps (s.merge x y) (s.merge x' y')
  transfer : ∀ {p x x' y y' z z' changed changed'}, keeps x x' → s.transfer p x y = .ok (z, changed) →
    s.transfer p x' y' = .ok (z', changed') → keeps z z'

/-- What leaves the nodes in one flow is kept in another. -/
def Flow.Keeps (keeps : F → F → Prop) (flow flow' : Flow F n) : Prop :=
  ∀ p : Fin n, keeps (flow.leaving.get p) (flow'.leaving.get p)

/-- Flows that keep all that has been recorded up to one of them, however visits go on. -/
structure Lasting (s : Equations F n) (keeps : F → F → Prop) (flow : Flow F n) (P : Flow F n → Prop) : Prop where
  here : P flow
  keeps : ∀ flow', P flow' → Flow.Keeps keeps flow flow'
  visit : ∀ flow' p x y changed, P flow' → p ≠ s.root →
    s.transfer p (s.gather flow' p) y = .ok (x, changed) → P (flow'.put p (s.gather flow' p) x)

variable {s : Equations F n} {keeps : F → F → Prop} {flow flow' : Flow F n} {P : Flow F n → Prop} {p : Fin n}

theorem Survives.gather (h : s.Survives keeps) (hflow : Flow.Keeps keeps flow flow') (p : Fin n) :
    keeps (s.gather flow p) (s.gather flow' p) := by
  unfold Equations.gather
  -- The induction is over the sources merged so far, from kept facts.
  suffices hfold : ∀ (qs : List (Fin n)) {x x' : F}, keeps x x' →
      keeps (qs.foldl (fun acc q => s.merge (flow.leaving.get q) acc) x)
        (qs.foldl (fun acc q => s.merge (flow'.leaving.get q) acc) x') from hfold _ (h.refl _)
  intro qs
  induction qs with
  | nil => exact id
  | cons q qs ih => exact fun hx => ih (h.merge (hflow q) hx)

/-! ## Later visits -/

theorem lasting_start (h : s.Survives keeps) : s.Lasting keeps s.start (Flow.Keeps keeps s.start) where
  here _ := h.refl _
  keeps _ hflow := hflow
  visit := by
    intro flow p x y changed hflow hp _ q
    rw [Flow.leaving_put]
    split
    next hpq =>
      -- At an inner node nothing was known.
      rw [← hpq, leaving_start, if_neg (Ne.symm hp)]
      exact h.initial x
    next => exact hflow q

/-- After one more visit the flows that keep its result as well are lasting. -/
theorem Lasting.put (h : s.Survives keeps) (hP : s.Lasting keeps flow P) (hp : p ≠ s.root) {x y : F} {changed : Bool}
    (hx : s.transfer p (s.gather flow p) y = .ok (x, changed)) :
    s.Lasting keeps (flow.put p (s.gather flow p) x)
      fun flow' => P flow' ∧ Flow.Keeps keeps (flow.put p (s.gather flow p) x) flow' where
  here := ⟨hP.visit _ _ _ _ _ hP.here hp hx, fun _ => h.refl _⟩
  keeps _ hflow := hflow.2
  visit := by
    rintro flow' q x' y' changed' ⟨hflow, hkeeps⟩ hq hx'
    have hnext := hP.visit _ _ _ _ _ hflow hq hx'
    refine ⟨hnext, ?_⟩
    intro m
    by_cases hqm : q = m
    · subst hqm
      rw [Flow.leaving_put, Flow.leaving_put, if_pos rfl]
      split
      next hpq =>
        -- Both results are effects of the same node, the later one of what keeps all that the earlier one had.
        subst hpq
        exact h.transfer (h.gather (hP.keeps _ hflow) _) hx hx'
      next =>
        have hkept := hP.keeps _ hnext q
        rwa [Flow.leaving_put, if_pos rfl] at hkept
    · rw [Flow.leaving_put (flow') q m, if_neg hqm]
      exact hkeeps m

theorem consistent_advance (hs : s.Linked) {r r' : Progress F n} {rest : Schedule n}
    (hr : r.schedule.Consistent s.root) (hnext : r.schedule.next? = some (p, rest))
    (hadvance : s.advance r p rest = .ok r') : r'.schedule.Consistent s.root := by
  obtain ⟨x, changed, -, rfl⟩ := advance_eq_ok hadvance
  obtain ⟨-, hrest, -⟩ := hr.next? hnext
  exact hrest.report hs.root_not_mem_dependents

theorem Reaches.consistent (hs : s.Linked) {r r' : Progress F n} (hreach : s.Reaches r r')
    (hr : r.schedule.Consistent s.root) : r'.schedule.Consistent s.root :=
  hreach.keeps (fun _ _ _ _ hr hnext hadvance => consistent_advance hs hr hnext hadvance) hr

/-- What every visit of an inner node keeps of the flow holds at the end of a run. -/
theorem Reaches.flow_keeps (hs : s.Linked) {I : Flow F n → Prop}
    (visit : ∀ flow p x y changed, I flow → p ≠ s.root → s.transfer p (s.gather flow p) y = .ok (x, changed) →
      I (flow.put p (s.gather flow p) x))
    {r r' : Progress F n} (hreach : s.Reaches r r') (hr : r.schedule.Consistent s.root) (hI : I r.flow) :
    I r'.flow := by
  refine And.left (hreach.keeps (I := fun r => I r.flow ∧ r.schedule.Consistent s.root) ?_ ⟨hI, hr⟩)
  rintro r p rest r' ⟨hI, hconsistent⟩ hnext hadvance
  refine ⟨?_, consistent_advance hs hconsistent hnext hadvance⟩
  obtain ⟨hp, -, -⟩ := hconsistent.next? hnext
  obtain ⟨x, changed, hx, rfl⟩ := advance_eq_ok hadvance
  exact visit _ _ _ _ _ hI hp hx

theorem Reaches.exists_lasting (h : s.Survives keeps) (hs : s.Linked) {schedule : Schedule n}
    (hschedule : schedule.Consistent s.root) {r : Progress F n} (hreach : s.Reaches ⟨s.start, schedule, 0⟩ r) :
    ∃ P, s.Lasting keeps r.flow P :=
  hreach.flow_keeps hs (I := fun flow => ∃ P, s.Lasting keeps flow P)
    (fun _ _ _ _ _ ⟨_, hP⟩ hp hx => ⟨_, hP.put h hp hx⟩) hschedule ⟨_, lasting_start h⟩

/-- What a run has recorded is kept after every later visit. -/
theorem Reaches.lasts (h : s.Survives keeps) (hs : s.Linked) {schedule : Schedule n}
    (hschedule : schedule.Consistent s.root) {r₀ r : Progress F n} (h₀ : s.Reaches ⟨s.start, schedule, 0⟩ r₀)
    (hreach : s.Reaches r₀ r) : Flow.Keeps keeps r₀.flow r.flow := by
  obtain ⟨P, hP⟩ := h₀.exists_lasting h hs hschedule
  exact hP.keeps _ (hreach.flow_keeps hs hP.visit (h₀.consistent hs hschedule) hP.here)

/-! ## Fixed points -/

/-- What a run has recorded is kept in every fixed point. -/
theorem Reaches.keeps_fixedPoint (h : s.Survives keeps) (hs : s.Linked) {same : F → F → Prop}
    (hsame : ∀ {x y z}, keeps x y → same z y → keeps x z) {schedule : Schedule n}
    (hschedule : schedule.Consistent s.root) {r : Progress F n} (hreach : s.Reaches ⟨s.start, schedule, 0⟩ r)
    (hf : s.FixedPoint same flow) : Flow.Keeps keeps r.flow flow := by
  refine hreach.flow_keeps hs (I := fun flow' => Flow.Keeps keeps flow' flow) ?_ hschedule ?_
  · intro flow' p x y changed hkeeps hp hx q
    rw [Flow.leaving_put]
    split
    next hpq =>
      subst hpq
      -- What arrives in the fixed point keeps what has been gathered, so its effect keeps the one recorded.
      have harriving : keeps (s.gather flow' p) (flow.arriving.get p) :=
        hsame (h.gather hkeeps p) (hf.gathered p hp)
      obtain ⟨z, changed', hz, hleaving⟩ := hf.transferred p hp s.initial
      exact hsame (h.transfer harriving hx hz) hleaving
    next => exact hkeeps q
  · intro p
    rw [leaving_start]
    split
    next hp => exact hsame (h.refl _) (hp ▸ hf.leaving_root)
    next => exact h.initial _

end Dataflow.Equations
