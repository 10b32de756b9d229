import Dataflow.Solver.Schedule
import Mathlib.Data.List.Perm.Basic
import Mathlib.Data.List.Basic
/-!
# What is pending

A worklist keeps what is pending twice: as a set, and in the order in which it is taken up. `Worklist.Matched` says
that the two agree, and every operation keeps that, a pop as long as ranks stand for the nodes that wait under them;
`Worklist.Consistent` adds that ranks tell all nodes apart. `Schedule.Due` is what worklists and sweeps have in
common: a node that is not due satisfies its equations, so once nothing is due all of them are solved.
-/
namespace Dataflow

namespace Worklist

variable {n : Nat} {w w' : Worklist n} {p q : Fin n}

/-- The queue or the ranks, whichever the strategy goes by, match what is pending, where each node is once. -/
structure Matched (w : Worklist n) : Prop where
  nodup : w.pending.Nodup
  queue : w.strategy ≠ .priority → w.queue.Perm w.pending
  ranks : w.strategy = .priority → w.ranks.Perm (w.pending.map w.rank)

/-- They match, and no two nodes have one rank. -/
structure Consistent (w : Worklist n) : Prop extends Matched w where
  injective : Function.Injective w.rank

theorem matched_empty (strategy : Strategy) (rank : Fin n → Int) : Matched { strategy, rank } :=
  ⟨List.nodup_nil, fun _ => .refl _, fun _ => .refl _⟩

theorem consistent_empty (strategy : Strategy) {rank : Fin n → Int} (h : Function.Injective rank) :
    Consistent { strategy, rank } := ⟨matched_empty strategy rank, h⟩

/-! ## Pushing -/

theorem insertRank_perm (r : Int) (rs : List Int) : (insertRank r rs).Perm (r :: rs) := by
  induction rs with
  | nil => exact .refl _
  | cons s rest ih =>
    simp only [insertRank]
    split
    · exact .refl _
    · exact (ih.cons s).trans (.swap r s rest)

theorem push_of_mem (h : p ∈ w.pending) : w.push p = w := if_pos (List.contains_iff_mem.2 h)

theorem not_contains (h : p ∉ w.pending) : ¬ w.pending.contains p = true := mt List.contains_iff_mem.1 h

theorem pending_push (h : p ∉ w.pending) : (w.push p).pending = p :: w.pending := by
  simp only [push, if_neg (not_contains h)]
  split <;> rfl

theorem strategy_push (w : Worklist n) (p : Fin n) : (w.push p).strategy = w.strategy := by
  by_cases h : p ∈ w.pending
  · rw [push_of_mem h]
  · simp only [push, if_neg (not_contains h)]
    split <;> rfl

theorem rank_push (w : Worklist n) (p : Fin n) : (w.push p).rank = w.rank := by
  by_cases h : p ∈ w.pending
  · rw [push_of_mem h]
  · simp only [push, if_neg (not_contains h)]
    split <;> rfl

theorem nodup_push (h : w.pending.Nodup) (p : Fin n) : (w.push p).pending.Nodup := by
  by_cases hp : p ∈ w.pending
  · rw [push_of_mem hp]
    exact h
  · rw [pending_push hp]
    exact List.nodup_cons.2 ⟨hp, h⟩

theorem Matched.push (h : w.Matched) (p : Fin n) : (w.push p).Matched := by
  by_cases hp : p ∈ w.pending
  · rw [push_of_mem hp]
    exact h
  · refine ⟨nodup_push h.nodup p, ?_, ?_⟩
    · intro hs
      rw [strategy_push] at hs
      rw [pending_push hp]
      have hq := h.queue hs
      simp only [Worklist.push, if_neg (not_contains hp)]
      cases hstrategy : w.strategy with
      | fifo => exact (List.perm_append_singleton p w.queue).trans (hq.cons p)
      | lifo => exact hq.cons p
      | priority => exact absurd hstrategy hs
    · intro hs
      rw [strategy_push] at hs
      rw [pending_push hp, rank_push, List.map_cons]
      have hr := h.ranks hs
      simp only [Worklist.push, if_neg (not_contains hp), hs]
      exact (insertRank_perm _ _).trans (hr.cons _)

theorem Consistent.push (h : w.Consistent) (p : Fin n) : (w.push p).Consistent :=
  ⟨h.toMatched.push p, by rw [rank_push]; exact h.injective⟩

theorem mem_push : q ∈ (w.push p).pending ↔ q = p ∨ q ∈ w.pending := by
  by_cases h : p ∈ w.pending
  · rw [push_of_mem h]
    constructor
    · exact .inr
    · rintro (rfl | hq)
      · exact h
      · exact hq
  · rw [pending_push h, List.mem_cons]

theorem size_push_le (w : Worklist n) (p : Fin n) : (w.push p).size ≤ w.size + 1 := by
  by_cases h : p ∈ w.pending
  · rw [push_of_mem h]
    omega
  · rw [size, pending_push h, List.length_cons]
    exact Nat.le_refl _

theorem Consistent.pushAll (h : w.Consistent) (ps : List (Fin n)) : (w.pushAll ps).Consistent := by
  induction ps generalizing w with
  | nil => exact h
  | cons p ps ih => exact ih (h.push p)

theorem mem_pushAll {ps : List (Fin n)} : q ∈ (w.pushAll ps).pending ↔ q ∈ ps ∨ q ∈ w.pending := by
  induction ps generalizing w with
  | nil => simp [pushAll]
  | cons p ps ih =>
    change q ∈ ((w.push p).pushAll ps).pending ↔ _
    rw [ih, mem_push, List.mem_cons, or_left_comm, or_assoc]

theorem size_pushAll_le (w : Worklist n) (ps : List (Fin n)) : (w.pushAll ps).size ≤ w.size + ps.length := by
  induction ps generalizing w with
  | nil => exact Nat.le_refl _
  | cons p ps ih =>
    have hps := ih (w.push p)
    have hp := size_push_le w p
    rw [List.length_cons]
    change ((w.push p).pushAll ps).size ≤ _
    omega

/-! ## Popping -/

theorem rank_of_holder? {r : Int} (h : w.holder? r = some p) : w.rank p = r := by
  simpa using List.find?_some h

theorem holder?_ne_none {r : Int} (h : w.rank p = r) : w.holder? r ≠ none := by
  intro hn
  have := List.find?_eq_none.1 hn p (by simp)
  simp [h] at this

/-- What taking `p` makes of a worklist: the first of the queue, or of the ranks, is gone, and `p` is pending no more. -/
structure Pops (w : Worklist n) (p : Fin n) (w' : Worklist n) : Prop where
  strategy : w'.strategy = w.strategy
  rank : w'.rank = w.rank
  pending : w'.pending = w.pending.erase p
  queue : w.strategy ≠ .priority → w.queue = p :: w'.queue
  ranks : w.strategy = .priority → w.ranks = w.rank p :: w'.ranks ∧ w.holder? (w.rank p) = some p

theorem pops_of_pop? (hp : w.pop? = some (p, w')) : w.Pops p w' := by
  by_cases hs : w.strategy = .priority
  · simp only [pop?, hs] at hp
    split at hp
    · cases hp
    next r rs hranks =>
      obtain ⟨p', hholder, heq⟩ := Option.map_eq_some_iff.1 hp
      cases heq
      have hrank : w.rank p = r := rank_of_holder? hholder
      refine ⟨hs.symm, rfl, rfl, fun hne => absurd hs hne, fun _ => ?_⟩
      rw [hrank]
      exact ⟨hranks, hholder⟩
  · -- Queues and stacks differ in where a node is put, not in which is taken.
    cases hstrategy : w.strategy with
    | priority => exact absurd hstrategy hs
    | fifo | lifo =>
      simp only [pop?, hstrategy] at hp
      split at hp
      · cases hp
      next qs hqueue =>
        cases hp
        exact ⟨hstrategy.symm, rfl, rfl, fun _ => hqueue, fun hpr => absurd hpr hs⟩

/-- Where every rank that waits stands for the node that is pending under it, a pop takes a pending node. -/
theorem Matched.pop? (h : w.Matched)
    (hholder : w.strategy = .priority → ∀ q ∈ w.pending, w.holder? (w.rank q) = some q)
    (hp : w.pop? = some (p, w')) : p ∈ w.pending ∧ w'.Matched := by
  have hpops := pops_of_pop? hp
  have hnodup : w'.pending.Nodup := hpops.pending ▸ h.nodup.erase p
  by_cases hs : w.strategy = .priority
  · obtain ⟨hranks, hp⟩ := hpops.ranks hs
    have hperm := h.ranks hs
    rw [hranks] at hperm
    have hmem : p ∈ w.pending := by
      obtain ⟨q, hq, hqp⟩ := List.mem_map.1 (hperm.subset List.mem_cons_self)
      have hq' := hholder hs q hq
      rw [hqp, hp] at hq'
      cases hq'
      exact hq
    refine ⟨hmem, hnodup, fun hne => absurd (hpops.strategy.trans hs) hne, fun _ => ?_⟩
    rw [hpops.rank, hpops.pending]
    exact (hperm.trans ((List.perm_cons_erase hmem).map w.rank)).cons_inv
  · have hperm := h.queue hs
    rw [hpops.queue hs, List.cons_perm_iff_perm_erase] at hperm
    exact ⟨hperm.1, hnodup, fun _ => hpops.pending ▸ hperm.2, fun hpr => absurd (hpops.strategy.symm.trans hpr) hs⟩

theorem Matched.pending_of_pop?_none (h : w.Matched) (hp : w.pop? = none) : w.pending = [] := by
  by_cases hs : w.strategy = .priority
  · simp only [Worklist.pop?, hs] at hp
    split at hp
    next hranks =>
      have hperm := h.ranks hs
      rw [hranks, List.nil_perm] at hperm
      exact List.map_eq_nil_iff.1 hperm
    next r rs hranks =>
      have hr : r ∈ w.pending.map w.rank := (h.ranks hs).subset (by simp [hranks])
      obtain ⟨q, -, hq⟩ := List.mem_map.1 hr
      exact absurd (Option.map_eq_none_iff.1 hp) (holder?_ne_none hq)
  · have hqueue : w.queue = [] := by
      cases hstrategy : w.strategy with
      | priority => exact absurd hstrategy hs
      | fifo | lifo =>
        simp only [Worklist.pop?, hstrategy] at hp
        split at hp
        · assumption
        · cases hp
    have hperm := h.queue hs
    rw [hqueue, List.nil_perm] at hperm
    exact hperm

/-- Where ranks tell nodes apart, each stands for its own. -/
theorem holder?_of_injective (h : Function.Injective w.rank) (q : Fin n) : w.holder? (w.rank q) = some q := by
  obtain ⟨p, hp⟩ := Option.ne_none_iff_exists'.1 (holder?_ne_none (w := w) (p := q) rfl)
  rw [hp, h (rank_of_holder? hp)]

theorem Consistent.pop? (h : w.Consistent) (hp : w.pop? = some (p, w')) :
    p ∈ w.pending ∧ w'.pending = w.pending.erase p ∧ w'.Consistent := by
  have hpops := pops_of_pop? hp
  obtain ⟨hmem, hw'⟩ := h.toMatched.pop? (fun _ q _ => holder?_of_injective h.injective q) hp
  exact ⟨hmem, hpops.pending, hw', hpops.rank ▸ h.injective⟩

end Worklist

namespace Schedule

variable {n : Nat} {root p q : Fin n} {s s' : Schedule n}

/-- The schedule is in order, and the root is no part of it. -/
def Consistent (root : Fin n) : Schedule n → Prop
  | worklist w => w.Consistent ∧ root ∉ w.pending
  | sweep order rest _ => (∀ p, p ∈ order ↔ p ≠ root) ∧ rest ⊆ order

/-- A visit of the node is still to come. When something has changed in a sweep, that goes for all nodes. -/
def Due : Schedule n → Fin n → Prop
  | worklist w, p => p ∈ w.pending
  | sweep _ rest changed, p => changed = true ∨ p ∈ rest

theorem Consistent.next? (h : s.Consistent root) (hn : s.next? = some (p, s')) :
    p ≠ root ∧ s'.Consistent root ∧ ∀ q, q ≠ root → s.Due q → q = p ∨ s'.Due q := by
  cases s with
  | worklist w =>
    obtain ⟨⟨p', w'⟩, hpop, heq⟩ := Option.map_eq_some_iff.1 hn
    cases heq
    obtain ⟨hp, herase, hw'⟩ := h.1.pop? hpop
    refine ⟨fun hr => h.2 (hr ▸ hp), ⟨hw', ?_⟩, ?_⟩
    · intro hr
      rw [herase] at hr
      exact h.2 (List.mem_of_mem_erase hr)
    · intro q _ hq
      by_cases hqp : q = p
      · exact .inl hqp
      · refine .inr ?_
        change q ∈ w'.pending
        rw [herase]
        exact (List.mem_erase_of_ne hqp).2 hq
  | sweep order rest changed =>
    obtain ⟨horder, hrest⟩ := h
    cases rest with
    | cons p' rest =>
      cases hn
      refine ⟨(horder p).1 (hrest List.mem_cons_self), ⟨horder, fun x hx => hrest (List.mem_cons_of_mem _ hx)⟩, ?_⟩
      rintro q - (hc | hq)
      · exact .inr (.inl hc)
      · exact (List.mem_cons.1 hq).imp_right .inr
    | nil =>
      cases changed with
      | false => cases hn
      | true =>
        -- The next sweep begins, and visits every node again.
        cases order with
        | nil => cases hn
        | cons p' rest =>
          cases hn
          refine ⟨(horder p).1 List.mem_cons_self, ⟨horder, fun x hx => List.mem_cons_of_mem _ hx⟩, fun q hq _ => ?_⟩
          exact (List.mem_cons.1 ((horder q).2 hq)).imp_right .inr

/-- Taking a node from a worklist leaves a worklist with one node less. -/
theorem Consistent.size_next? {w : Worklist n} (h : (worklist w).Consistent root)
    (hn : (worklist w).next? = some (p, s')) : ∃ w', s' = worklist w' ∧ w'.size + 1 = w.size := by
  obtain ⟨⟨p', w'⟩, hpop, heq⟩ := Option.map_eq_some_iff.1 hn
  cases heq
  obtain ⟨hp, herase, -⟩ := h.1.pop? hpop
  refine ⟨w', rfl, ?_⟩
  rw [Worklist.size, herase, List.length_erase_of_mem hp, Worklist.size]
  have := List.length_pos_of_mem hp
  omega

theorem Consistent.not_due_of_next?_none (h : s.Consistent root) (hn : s.next? = none) (hq : q ≠ root) : ¬ s.Due q := by
  cases s with
  | worklist w =>
    have hpending := h.1.toMatched.pending_of_pop?_none (Option.map_eq_none_iff.1 hn)
    change q ∉ w.pending
    rw [hpending]
    exact List.not_mem_nil
  | sweep order rest changed =>
    have hmem : q ∈ order := (h.1 q).2 hq
    cases rest with
    | cons p rest => cases hn
    | nil =>
      cases changed with
      | false => rintro (hc | hr) <;> contradiction
      | true =>
        cases order with
        | nil => cases hmem
        | cons p rest => cases hn

theorem Consistent.report (h : s.Consistent root) {changed : Bool} {dependents : List (Fin n)}
    (hroot : root ∉ dependents) : (s.report changed dependents).Consistent root := by
  cases s with
  | sweep order rest before => exact h
  | worklist w =>
    cases changed with
    | false => exact h
    | true =>
      refine ⟨h.1.pushAll dependents, ?_⟩
      intro hr
      exact (Worklist.mem_pushAll.1 hr).elim hroot h.2

theorem Due.report {changed : Bool} {dependents : List (Fin n)} (h : s.Due q) :
    (s.report changed dependents).Due q := by
  cases s with
  | sweep order rest before => exact h.imp_left fun hb => by rw [hb, Bool.true_or]
  | worklist w =>
    cases changed with
    | false => exact h
    | true => exact Worklist.mem_pushAll.2 (.inr h)

/-- A node that is not due after a visit of another one was not due before it. -/
theorem Consistent.not_due_of_report (h : s.Consistent root) (hn : s.next? = some (p, s')) {changed : Bool}
    {dependents : List (Fin n)} (hq : q ≠ root) (hqp : q ≠ p) (hndue : ¬ (s'.report changed dependents).Due q) :
    ¬ s.Due q := by
  intro hd
  obtain ⟨-, -, hdue⟩ := h.next? hn
  rcases hdue q hq hd with hqp' | hd
  · exact hqp hqp'
  · exact hndue hd.report

theorem due_report_of_mem {dependents : List (Fin n)} (h : q ∈ dependents) : (s.report true dependents).Due q := by
  cases s with
  | sweep order rest before => exact .inl (Bool.or_true before)
  | worklist w => exact Worklist.mem_pushAll.2 (.inl h)

end Schedule

end Dataflow
