import Dataflow.Proofs.Solver.Least
import Mathlib.Algebra.BigOperators.Fin
import Mathlib.Algebra.Order.BigOperators.Group.Finset
/-!
# How many visits a worklist takes

Under monotone effects what leaves a node only rises (`Rising.advance`), and a visit that changes nothing puts nothing
on the worklist. So a visit is either one of the first round, or it is paid for by a rise at the other end of an edge
(`Paid.advance`). Where facts have a height, that bounds the length of a run (`run_bounded`).
-/
namespace Dataflow.Equations

open Finset (univ mem_univ)

variable {F : Type} {n : Nat}

/-- The facts of a domain have heights up to `top`, which grow along the order, and no transfer fails on them. -/
structure Climbs (s : Equations F n) (D : F → Prop) (le : F → F → Prop) (height : F → Nat) (top : Nat) : Prop where
  height_le : ∀ {x}, D x → height x ≤ top
  height_mono : ∀ {x y}, D x → D y → le x y → height x ≤ height y
  height_lt : ∀ {x y}, D x → D y → le x y → ¬ le y x → height x < height y
  total : ∀ {p x y}, D x → D y → ∃ z, s.transfer p x y = .ok z

/-- What leaves a node can only rise. -/
def Rising (s : Equations F n) (le : F → F → Prop) (effect : Fin n → F → F) (flow : Flow F n) : Prop :=
  ∀ p, p ≠ s.root → le (flow.leaving.get p) (effect p (s.gather flow p))

/-- The rises so far, each as often as there are edges along which it is passed on. -/
def spent (s : Equations F n) (height : F → Nat) (flow : Flow F n) : Nat :=
  ∑ p, (s.dependents p).length * height (flow.leaving.get p)

/-- The most visits that a worklist takes: one for every inner node, and one for every edge and rise. -/
def visitBound (s : Equations F n) (top : Nat) : Nat :=
  s.inner.length + top * ∑ p, (s.dependents p).length

/-- What holds in every state of a run by worklist: what leaves a node can only rise, and the visits made and the
visits pending are paid for. -/
structure Paid (s : Equations F n) (le : F → F → Prop) (effect : Fin n → F → F) (height : F → Nat)
    (r : Progress F n) : Prop where
  rising : s.Rising le effect r.flow
  paid : ∃ w, r.schedule = .worklist w ∧ r.visits + w.size ≤ s.inner.length + s.spent height r.flow

variable {s : Equations F n} {D : F → Prop} {le : F → F → Prop} {effect : Fin n → F → F} {height : F → Nat} {top : Nat}

theorem length_inner (s : Equations F n) : s.inner.length = n - 1 := by
  have hfilter : s.inner = (List.finRange n).erase s.root := by
    rw [List.Nodup.erase_eq_filter (List.nodup_finRange n)]
    exact List.filter_congr fun p _ => by simp [bne, beq_eq_decide]
  rw [hfilter, List.length_erase_of_mem (List.mem_finRange s.root), List.length_finRange]

/-! ## What has been spent -/

/-- New facts at one node change a weighted sum of heights there only. -/
theorem sum_height_put (weight : Fin n → Nat) (height : F → Nat) (flow : Flow F n) (p : Fin n) (x y : F) :
    ∑ q, weight q * height ((flow.put p x y).leaving.get q) + weight p * height (flow.leaving.get p) =
      ∑ q, weight q * height (flow.leaving.get q) + weight p * height y := by
  have hrest : ∑ q ∈ univ.erase p, weight q * height ((flow.put p x y).leaving.get q) =
      ∑ q ∈ univ.erase p, weight q * height (flow.leaving.get q) := by
    refine Finset.sum_congr rfl ?_
    intro q hq
    rw [Flow.leaving_put, if_neg (Finset.ne_of_mem_erase hq).symm]
  have hnew := Finset.add_sum_erase univ (fun q => weight q * height ((flow.put p x y).leaving.get q)) (mem_univ p)
  have hold := Finset.add_sum_erase univ (fun q => weight q * height (flow.leaving.get q)) (mem_univ p)
  rw [hrest, Flow.leaving_put, if_pos rfl] at hnew
  omega

theorem sum_height_le (hc : s.Climbs D le height top) (weight : Fin n → Nat) {flow : Flow F n}
    (hflow : Flow.Within D flow) : ∑ q, weight q * height (flow.leaving.get q) ≤ top * ∑ q, weight q := by
  rw [Finset.mul_sum]
  refine Finset.sum_le_sum ?_
  intro q _
  rw [Nat.mul_comm]
  exact Nat.mul_le_mul_right _ (hc.height_le (hflow.leaving q))

/-! ## Rises -/

theorem Ordered.le_leaving_put (ho : s.Ordered le) {flow : Flow F n} {p : Fin n} {x y : F}
    (h : le (flow.leaving.get p) y) (q : Fin n) : le (flow.leaving.get q) ((flow.put p x y).leaving.get q) := by
  rw [Flow.leaving_put]
  split
  next hpq =>
    subst hpq
    exact h
  next => exact ho.refl _

theorem rising_start (ho : s.Ordered le) : s.Rising le effect s.start := by
  intro p hp
  rw [leaving_start, if_neg fun hroot => hp hroot.symm]
  exact ho.initial_le _

/-- A visit lets nothing fall, and the height of what leaves its node grows if that has changed. -/
theorem Rising.advance (h : s.Computes D (Alike le) effect) (ho : s.Ordered le) (hm : Monotone D le effect)
    (hc : s.Climbs D le height top) {r r' : Progress F n} {p : Fin n} {rest : Schedule n}
    (hs : s.Sound D (Alike le) effect r) (hr : s.Rising le effect r.flow)
    (hnext : r.schedule.next? = some (p, rest)) (hadvance : s.advance r p rest = .ok r') :
    s.Rising le effect r'.flow ∧ ∃ x changed,
      r' = ⟨r.flow.put p (s.gather r.flow p) x, rest.report changed (s.dependents p), r.visits + 1⟩ ∧
      height (r.flow.leaving.get p) + changed.toNat ≤ height x := by
  obtain ⟨x, changed, htransfer, rfl⟩ := advance_eq_ok hadvance
  obtain ⟨hp, -, -⟩ := hs.schedule.next? hnext
  have hgather : ∀ q, D (s.gather r.flow q) := gather_mem h hs.within
  have hold := hs.within.leaving p
  obtain ⟨hx, hxp, hchanged⟩ := h.transfer (hgather p) hold htransfer
  have hrise : le (r.flow.leaving.get p) x := ho.trans (hr p hp) hxp.2
  have hgather' : ∀ q, D (s.gather (r.flow.put p (s.gather r.flow p) x) q) :=
    gather_mem h (hs.within.put (hgather p) hx)
  -- What leaves `p` has risen, so at every node the effect on what arrives has risen as well.
  have heffect : ∀ q, le (effect q (s.gather r.flow q))
      (effect q (s.gather (r.flow.put p (s.gather r.flow p) x) q)) := by
    intro q
    exact hm (hgather q) (hgather' q) (ho.gather_mono (ho.le_leaving_put hrise) q)
  refine ⟨?_, x, changed, rfl, ?_⟩
  · intro q hq
    rw [Flow.leaving_put]
    split
    next hpq =>
      subst hpq
      exact ho.trans hxp.1 (heffect p)
    next => exact ho.trans (hr q hq) (heffect q)
  · cases changed with
    | false => exact hc.height_mono hold hx hrise
    | true => exact hc.height_lt hold hx hrise fun hle => hchanged.1 rfl ⟨hle, hrise⟩

theorem Climbs.advance_ne_error (hc : s.Climbs D le height top) (h : s.Computes D (Alike le) effect)
    {r : Progress F n} {p : Fin n} {rest : Schedule n} {e : EvalError} (hr : Flow.Within D r.flow) :
    s.advance r p rest ≠ .error e := by
  intro herror
  obtain ⟨z, hz⟩ := hc.total (p := p) (gather_mem h hr p) (hr.leaving p)
  rw [advance_eq_error herror] at hz
  cases hz

/-! ## What a visit pays for -/

theorem Paid.advance (h : s.Computes D (Alike le) effect) (ho : s.Ordered le) (hm : Monotone D le effect)
    (hc : s.Climbs D le height top) {r r' : Progress F n} {p : Fin n} {rest : Schedule n}
    (hs : s.Sound D (Alike le) effect r) (hr : s.Paid le effect height r)
    (hnext : r.schedule.next? = some (p, rest)) (hadvance : s.advance r p rest = .ok r') :
    s.Paid le effect height r' := by
  obtain ⟨hrising, x, changed, rfl, hheight⟩ := hr.rising.advance h ho hm hc hs hnext hadvance
  obtain ⟨w, hw, hpaid⟩ := hr.paid
  have hschedule := hs.schedule
  rw [hw] at hnext hschedule
  obtain ⟨w', rfl, hsize⟩ := hschedule.size_next? hnext
  refine ⟨hrising, ?_⟩
  have hspent : s.spent height (r.flow.put p (s.gather r.flow p) x) + _ = s.spent height r.flow + _ :=
    sum_height_put (fun q => (s.dependents q).length) height r.flow p (s.gather r.flow p) x
  have hrise := Nat.mul_le_mul_left (s.dependents p).length hheight
  cases changed with
  | false =>
    -- The node popped pays for the visit, and facts have not fallen.
    refine ⟨w', rfl, ?_⟩
    rw [Bool.toNat_false, Nat.add_zero] at hrise
    change r.visits + 1 + w'.size ≤ s.inner.length + s.spent height (r.flow.put p (s.gather r.flow p) x)
    omega
  | true =>
    -- The rise at `p` pays for every dependent that is pushed.
    refine ⟨w'.pushAll (s.dependents p), rfl, ?_⟩
    have hpush := w'.size_pushAll_le (s.dependents p)
    rw [Bool.toNat_true, Nat.mul_succ] at hrise
    change r.visits + 1 + (w'.pushAll (s.dependents p)).size ≤
      s.inner.length + s.spent height (r.flow.put p (s.gather r.flow p) x)
    omega

theorem paid_start (ho : s.Ordered le) {w : Worklist n} (hw : w.size ≤ s.inner.length) :
    s.Paid le effect height ⟨s.start, .worklist w, 0⟩ := by
  refine ⟨rising_start ho, w, rfl, ?_⟩
  change 0 + w.size ≤ _
  omega

/-- A run by worklist comes to its end within the bound, unless it may not take that many visits. -/
theorem run_bounded (h : s.Computes D (Alike le) effect) (hs : s.Linked) (ho : s.Ordered le)
    (hm : Monotone D le effect) (hc : s.Climbs D le height top) {w : Worklist n}
    (hw : (Schedule.worklist w).Consistent s.root) (hdue : ∀ p, p ≠ s.root → p ∈ w.pending)
    (hsize : w.size ≤ s.inner.length) (budget : Nat) :
    (∃ r, s.run budget ⟨s.start, .worklist w, 0⟩ = .ok r ∧ r.visits ≤ s.visitBound top) ∨
      (budget < s.visitBound top ∧
        ∃ pending, s.run budget ⟨s.start, .worklist w, 0⟩ = .error (.diverged budget pending)) := by
  refine run_within (I := fun r => s.Sound D (Alike le) effect r ∧ s.Paid le effect height r)
    (fun r p rest r' hr hnext hadvance =>
      ⟨hr.1.advance h hs hnext hadvance, hr.2.advance h ho hm hc hr.1 hnext hadvance⟩)
    (fun r p rest hr hnext => ?_) (fun r p rest e hr => hc.advance_ne_error h hr.1.within)
    ⟨sound_start h hw hdue, paid_start ho hsize⟩ rfl budget
  -- A node is still pending, so the visits made are fewer than the bound.
  obtain ⟨w', hw', hvisits⟩ := hr.2.paid
  have hschedule := hr.1.schedule
  rw [hw'] at hnext hschedule
  obtain ⟨w'', -, hsize'⟩ := hschedule.size_next? hnext
  have hspent := sum_height_le hc (fun q => (s.dependents q).length) hr.1.within
  unfold spent at hvisits
  unfold visitBound
  omega

end Dataflow.Equations
