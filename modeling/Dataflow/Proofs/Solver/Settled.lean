import Dataflow.Proofs.Solver.Pending
import Dataflow.Proofs.Solver.Run
/-!
# Settled nodes

A node is settled if its facts satisfy its equations. Every state of a run settles all nodes that are not due
(`Sound.advance`), so a run that comes to its end has solved the whole system (`Sound.solves`). Nothing is asked
of the order of facts here: effects need not be monotone.
-/
namespace Dataflow.Equations

variable {F : Type} {n : Nat}

/-- Sources and dependents are two views of the same edges, and none of these leads to the root. -/
structure Linked (s : Equations F n) : Prop where
  mem_dependents : ∀ {p q : Fin n}, q ∈ s.dependents p ↔ p ∈ s.sources q
  root : s.sources s.root = []

/-- What the transfers compute: on the facts of a domain, which they and merging do not leave, and up to a notion
of equal facts that merging does not tell apart. -/
structure Computes (s : Equations F n) (D : F → Prop) (same : F → F → Prop) (effect : Fin n → F → F) : Prop where
  equivalence : Equivalence same
  boundary : D s.boundary
  initial : D s.initial
  merge : ∀ {x y}, D x → D y → D (s.merge x y)
  merge_same : ∀ {x x' y y'}, same x x' → same y y' → same (s.merge x y) (s.merge x' y')
  transfer : ∀ {p x y z changed}, D x → D y → s.transfer p x y = .ok (z, changed) →
    D z ∧ same z (effect p x) ∧ (changed = true ↔ ¬ same z y)

/-- The facts of a node satisfy its equations. -/
def Settled (s : Equations F n) (same : F → F → Prop) (effect : Fin n → F → F) (flow : Flow F n) (p : Fin n) : Prop :=
  same (flow.arriving.get p) (s.gather flow p) ∧ same (flow.leaving.get p) (effect p (flow.arriving.get p))

structure Solves (s : Equations F n) (same : F → F → Prop) (effect : Fin n → F → F) (flow : Flow F n) : Prop where
  arriving_root : same (flow.arriving.get s.root) s.initial
  leaving_root : same (flow.leaving.get s.root) s.boundary
  settled : ∀ p, p ≠ s.root → s.Settled same effect flow p

/-- All facts of a flow are in a domain. -/
structure Flow.Within (D : F → Prop) (flow : Flow F n) : Prop where
  arriving : ∀ p : Fin n, D (flow.arriving.get p)
  leaving : ∀ p : Fin n, D (flow.leaving.get p)

/-- What holds in every state of a run: the facts are in the domain, those of the root are the given ones, and a
node that is not due is settled. -/
structure Sound (s : Equations F n) (D : F → Prop) (same : F → F → Prop) (effect : Fin n → F → F)
    (r : Progress F n) : Prop where
  within : Flow.Within D r.flow
  arriving_root : r.flow.arriving.get s.root = s.initial
  leaving_root : r.flow.leaving.get s.root = s.boundary
  schedule : r.schedule.Consistent s.root
  settled : ∀ p, p ≠ s.root → ¬ r.schedule.Due p → s.Settled same effect r.flow p

variable {s : Equations F n} {D : F → Prop} {same : F → F → Prop} {effect : Fin n → F → F}

theorem Linked.root_not_mem_dependents (hs : s.Linked) {p : Fin n} : s.root ∉ s.dependents p := by
  rw [hs.mem_dependents, hs.root]
  exact List.not_mem_nil

/-! ## Gathering -/

theorem foldl_merge_mem (h : s.Computes D same effect) {flow : Flow F n} (hflow : Flow.Within D flow)
    {qs : List (Fin n)} {x : F} (hx : D x) : D (qs.foldl (fun acc q => s.merge (flow.leaving.get q) acc) x) := by
  induction qs generalizing x with
  | nil => exact hx
  | cons q qs ih => exact ih (h.merge (hflow.leaving q) hx)

theorem gather_mem (h : s.Computes D same effect) {flow : Flow F n} (hflow : Flow.Within D flow) (p : Fin n) :
    D (s.gather flow p) :=
  foldl_merge_mem h hflow h.initial

theorem foldl_merge_same (h : s.Computes D same effect) {flow flow' : Flow F n} {qs : List (Fin n)}
    (hqs : ∀ q ∈ qs, same (flow.leaving.get q) (flow'.leaving.get q)) {x x' : F} (hx : same x x') :
    same (qs.foldl (fun acc q => s.merge (flow.leaving.get q) acc) x)
      (qs.foldl (fun acc q => s.merge (flow'.leaving.get q) acc) x') := by
  induction qs generalizing x x' with
  | nil => exact hx
  | cons q qs ih =>
    exact ih (fun q' hq' => hqs q' (List.mem_cons_of_mem q hq')) (h.merge_same (hqs q List.mem_cons_self) hx)

/-- What arrives at a node depends on what leaves its sources, and on nothing else. -/
theorem gather_same (h : s.Computes D same effect) {flow flow' : Flow F n} {p : Fin n}
    (hp : ∀ q ∈ s.sources p, same (flow.leaving.get q) (flow'.leaving.get q)) :
    same (s.gather flow p) (s.gather flow' p) :=
  foldl_merge_same h hp (h.equivalence.refl _)

/-! ## What a visit keeps -/

theorem Flow.Within.put {flow : Flow F n} (h : Flow.Within D flow) {p : Fin n} {x y : F} (hx : D x) (hy : D y) :
    Flow.Within D (flow.put p x y) := by
  constructor
  · intro q
    rw [Flow.arriving_put]
    split
    · exact hx
    · exact h.arriving q
  · intro q
    rw [Flow.leaving_put]
    split
    · exact hy
    · exact h.leaving q

theorem Sound.advance (h : s.Computes D same effect) (hs : s.Linked) {r r' : Progress F n} {p : Fin n}
    {rest : Schedule n} (hr : s.Sound D same effect r) (hnext : r.schedule.next? = some (p, rest))
    (hadvance : s.advance r p rest = .ok r') : s.Sound D same effect r' := by
  obtain ⟨x, changed, htransfer, rfl⟩ := advance_eq_ok hadvance
  obtain ⟨hp, hrest, -⟩ := hr.schedule.next? hnext
  have hgather : D (s.gather r.flow p) := gather_mem h hr.within p
  obtain ⟨hx, hxp, hchanged⟩ := h.transfer hgather (hr.within.leaving p) htransfer
  -- A node that is not due afterwards sees no change: if what leaves `p` had changed, `p`'s dependents would be due.
  have hsame : ∀ q, ¬ (rest.report changed (s.dependents p)).Due q →
      same (s.gather r.flow q) (s.gather (r.flow.put p (s.gather r.flow p) x) q) := by
    intro q hq
    refine gather_same h ?_
    intro q' hq'
    rw [Flow.leaving_put]
    split
    next hpq' =>
      subst hpq'
      refine h.equivalence.symm (not_not.1 fun hne => hq ?_)
      rw [hchanged.2 hne]
      exact Schedule.due_report_of_mem (hs.mem_dependents.2 hq')
    next => exact h.equivalence.refl _
  refine ⟨hr.within.put hgather hx, ?_, ?_, hrest.report hs.root_not_mem_dependents, ?_⟩
  · rw [Flow.arriving_put, if_neg hp, hr.arriving_root]
  · rw [Flow.leaving_put, if_neg hp, hr.leaving_root]
  · intro q hq hndue
    have hgathers := hsame q hndue
    unfold Settled
    rw [Flow.arriving_put, Flow.leaving_put]
    by_cases hpq : p = q
    · subst hpq
      rw [if_pos rfl, if_pos rfl]
      exact ⟨hgathers, hxp⟩
    · rw [if_neg hpq, if_neg hpq]
      -- Another node that is not due now was not due before the visit either.
      have hold : ¬ r.schedule.Due q := hr.schedule.not_due_of_report hnext hq (Ne.symm hpq) hndue
      obtain ⟨harriving, hleaving⟩ := hr.settled q hq hold
      exact ⟨h.equivalence.trans harriving hgathers, hleaving⟩

/-- At the start every node but the root is due. -/
theorem sound_start (h : s.Computes D same effect) {schedule : Schedule n} (hschedule : schedule.Consistent s.root)
    (hdue : ∀ p, p ≠ s.root → schedule.Due p) : s.Sound D same effect ⟨s.start, schedule, 0⟩ := by
  refine ⟨⟨?_, ?_⟩, s.arriving_start s.root, ?_, hschedule, ?_⟩
  · intro p
    rw [arriving_start]
    exact h.initial
  · intro p
    rw [leaving_start]
    split
    · exact h.boundary
    · exact h.initial
  · rw [leaving_start, if_pos rfl]
  · intro p hp hndue
    exact absurd (hdue p hp) hndue

theorem Reaches.sound (h : s.Computes D same effect) (hs : s.Linked) {r r' : Progress F n} (hreach : s.Reaches r r')
    (hr : s.Sound D same effect r) : s.Sound D same effect r' :=
  hreach.keeps (fun _ _ _ _ hr hnext hadvance => hr.advance h hs hnext hadvance) hr

/-- Once nothing is due, the facts solve all equations. -/
theorem Sound.solves (h : s.Computes D same effect) {r : Progress F n} (hr : s.Sound D same effect r)
    (hnext : r.schedule.next? = none) : s.Solves same effect r.flow where
  arriving_root := by rw [hr.arriving_root]; exact h.equivalence.refl _
  leaving_root := by rw [hr.leaving_root]; exact h.equivalence.refl _
  settled p hp := hr.settled p hp (hr.schedule.not_due_of_next?_none hnext hp)

/-- A run that ends has stayed in the domain and has solved all equations. -/
theorem solves_of_run (h : s.Computes D same effect) (hs : s.Linked) {schedule : Schedule n}
    (hschedule : schedule.Consistent s.root) (hdue : ∀ p, p ≠ s.root → schedule.Due p) {budget : Nat}
    {r : Progress F n} (hrun : s.run budget ⟨s.start, schedule, 0⟩ = .ok r) :
    Flow.Within D r.flow ∧ s.Solves same effect r.flow := by
  obtain ⟨hreach, hnone⟩ := run_eq_ok hrun
  have hsound := hreach.sound h hs (sound_start h hschedule hdue)
  exact ⟨hsound.within, hsound.solves h hnone⟩

end Dataflow.Equations
