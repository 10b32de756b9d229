import Dataflow.Proofs.Solver.Visits
/-!
# How many visits sweeps take

A sweep visits every inner node once, and another one follows only if something has changed. Under monotone effects
each sweep but the last is paid for by a rise (`Swept.advance`), so the heights of the facts bound the number of
sweeps (`run_sweeps_bounded`).
-/
namespace Dataflow

theorem Schedule.next?_sweep {n : Nat} {order rest : List (Fin n)} {changed : Bool} {p : Fin n} {s : Schedule n}
    (h : (sweep order rest changed).next? = some (p, s)) :
    ∃ rest', (rest = p :: rest' ∧ s = sweep order rest' changed) ∨
      (rest = [] ∧ changed = true ∧ order = p :: rest' ∧ s = sweep order rest' false) := by
  cases rest with
  | cons p' rest' =>
    cases h
    exact ⟨rest', .inl ⟨rfl, rfl⟩⟩
  | nil =>
    cases changed with
    | false => cases h
    | true =>
      cases order with
      | nil => cases h
      | cons p' rest' =>
        cases h
        exact ⟨rest', .inr ⟨rfl, rfl, rfl, rfl⟩⟩

namespace Equations

variable {F : Type} {n : Nat}

/-- The rises so far of all that the sweeps visit. -/
def risen (s : Equations F n) (height : F → Nat) (flow : Flow F n) : Nat :=
  ∑ p, (if p = s.root then 0 else 1) * height (flow.leaving.get p)

/-- The most visits that sweeps take: a sweep for every rise, and a last one that finds nothing to change. -/
def sweepBound (s : Equations F n) (top : Nat) : Nat := s.inner.length * (top * s.inner.length + 1)

/-- A schedule with a number of visits made: the sweeps begun, of which all but the last are complete, are paid for
by as many rises, and one more sweep is if this one has changed something. -/
def Counts (s : Equations F n) (rises visits : Nat) (schedule : Schedule n) : Prop :=
  ∃ order rest changed begun, schedule = .sweep order rest changed ∧ order.length = s.inner.length ∧
    visits + rest.length = s.inner.length * begun ∧ begun + changed.toNat ≤ rises + 1

/-- What holds in every state of a run by sweeps. -/
structure Swept (s : Equations F n) (le : F → F → Prop) (effect : Fin n → F → F) (height : F → Nat)
    (r : Progress F n) : Prop where
  rising : s.Rising le effect r.flow
  counts : s.Counts (s.risen height r.flow) r.visits r.schedule

variable {s : Equations F n} {D : F → Prop} {le : F → F → Prop} {effect : Fin n → F → F} {height : F → Nat}
  {top rises visits : Nat} {p : Fin n} {schedule rest : Schedule n}

/-! ## Counting sweeps -/

/-- The node taken is one of a sweep that is paid for, be it this one or the next. -/
theorem Counts.next? (h : s.Counts rises visits schedule) (hnext : schedule.next? = some (p, rest)) :
    s.Counts rises (visits + 1) rest := by
  obtain ⟨order, ps, changed, begun, rfl, horder, hvisits, hbegun⟩ := h
  obtain ⟨ps', ⟨rfl, rfl⟩ | ⟨rfl, rfl, rfl, rfl⟩⟩ := Schedule.next?_sweep hnext
  · refine ⟨order, ps', changed, begun, rfl, horder, ?_, hbegun⟩
    rw [List.length_cons] at hvisits
    omega
  · refine ⟨p :: ps', ps', false, begun + 1, rfl, horder, ?_, hbegun⟩
    rw [List.length_nil] at hvisits
    rw [List.length_cons] at horder
    rw [Nat.mul_succ]
    omega

theorem Counts.report (h : s.Counts rises visits schedule) {changed : Bool} {dependents : List (Fin n)} {rises' : Nat}
    (hrises : rises + changed.toNat ≤ rises') : s.Counts rises' visits (schedule.report changed dependents) := by
  obtain ⟨order, ps, before, begun, rfl, horder, hvisits, hbegun⟩ := h
  refine ⟨order, ps, before || changed, begun, rfl, horder, hvisits, ?_⟩
  cases before <;> cases changed <;> simp only [Bool.or_false, Bool.or_true, Bool.toNat_false, Bool.toNat_true] at * <;>
    omega

theorem Counts.visits_le (h : s.Counts rises visits schedule) : visits ≤ s.inner.length * (rises + 1) := by
  obtain ⟨order, ps, changed, begun, -, -, hvisits, hbegun⟩ := h
  have hle : s.inner.length * begun ≤ s.inner.length * (rises + 1) := Nat.mul_le_mul_left _ (by omega)
  omega

/-! ## What a visit keeps -/

theorem sum_inner (s : Equations F n) : (∑ p, if p = s.root then 0 else 1) = s.inner.length := by
  rw [s.length_inner, Finset.sum_ite, Finset.sum_const_zero, Nat.zero_add, Finset.sum_const, smul_eq_mul, Nat.mul_one,
    Finset.filter_ne', Finset.card_erase_of_mem (Finset.mem_univ s.root), Finset.card_univ, Fintype.card_fin]

theorem risen_le (hc : s.Climbs D le height top) {flow : Flow F n} (hflow : Flow.Within D flow) :
    s.risen height flow ≤ top * s.inner.length := by
  rw [← s.sum_inner]
  exact sum_height_le hc _ hflow

theorem Swept.advance (h : s.Computes D (Alike le) effect) (ho : s.Ordered le) (hm : Monotone D le effect)
    (hc : s.Climbs D le height top) {r r' : Progress F n} (hs : s.Sound D (Alike le) effect r)
    (hr : s.Swept le effect height r) (hnext : r.schedule.next? = some (p, rest))
    (hadvance : s.advance r p rest = .ok r') : s.Swept le effect height r' := by
  obtain ⟨hrising, x, changed, rfl, hheight⟩ := hr.rising.advance h ho hm hc hs hnext hadvance
  obtain ⟨hp, -, -⟩ := hs.schedule.next? hnext
  refine ⟨hrising, (hr.counts.next? hnext).report ?_⟩
  have hsum : s.risen height (r.flow.put p (s.gather r.flow p) x) + _ = s.risen height r.flow + _ :=
    sum_height_put (fun q => if q = s.root then 0 else 1) height r.flow p (s.gather r.flow p) x
  rw [if_neg hp, Nat.one_mul, Nat.one_mul] at hsum
  change _ ≤ s.risen height (r.flow.put p (s.gather r.flow p) x)
  omega

theorem swept_start (ho : s.Ordered le) {order : List (Fin n)} (horder : order.length = s.inner.length) :
    s.Swept le effect height ⟨s.start, .sweep order order false, 0⟩ := by
  refine ⟨rising_start ho, order, order, false, 1, rfl, horder, ?_, ?_⟩
  · rw [Nat.zero_add, Nat.mul_one, horder]
  · exact Nat.le_add_left _ _

/-- A run by sweeps comes to its end within the bound, unless it may not take that many visits. -/
theorem run_sweeps_bounded (h : s.Computes D (Alike le) effect) (hs : s.Linked) (ho : s.Ordered le)
    (hm : Monotone D le effect) (hc : s.Climbs D le height top) {order : List (Fin n)}
    (hschedule : (Schedule.sweep order order false).Consistent s.root) (horder : order.length = s.inner.length)
    (budget : Nat) :
    (∃ r, s.run budget ⟨s.start, .sweep order order false, 0⟩ = .ok r ∧ r.visits ≤ s.sweepBound top) ∨
      (budget < s.sweepBound top ∧
        ∃ pending, s.run budget ⟨s.start, .sweep order order false, 0⟩ = .error (.diverged budget pending)) := by
  have hdue : ∀ p, p ≠ s.root → (Schedule.sweep order order false).Due p := fun p hp => .inr ((hschedule.1 p).2 hp)
  refine run_within (I := fun r => s.Sound D (Alike le) effect r ∧ s.Swept le effect height r)
    (fun r p rest r' hr hnext hadvance =>
      ⟨hr.1.advance h hs hnext hadvance, hr.2.advance h ho hm hc hr.1 hnext hadvance⟩)
    (fun r p rest hr hnext => ?_) (fun r p rest e hr => hc.advance_ne_error h hr.1.within)
    ⟨sound_start h hschedule hdue, swept_start ho horder⟩ rfl budget
  -- With the visit that is due the sweeps are still paid for.
  have hvisits := (hr.2.counts.next? hnext).visits_le
  have hrisen := Nat.mul_le_mul_left s.inner.length (Nat.add_le_add_right (risen_le hc hr.1.within) 1)
  exact Nat.lt_of_succ_le (hvisits.trans hrisen)

end Equations

end Dataflow
