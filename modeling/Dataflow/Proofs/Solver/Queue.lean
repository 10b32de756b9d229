import Dataflow.Proofs.Solver.Pending
/-!
# The order in which nodes leave a worklist

Whatever the strategy, the nodes that are pending wait in one line, and the first of them is taken next
(`Worklist.Consistent.pop?_of_waits`). Unless the last comes first, nodes of ascending rank line up as they are pushed
(`Worklist.waits_pushAll`).
-/
namespace Dataflow.Worklist

variable {n : Nat} {w : Worklist n} {p : Fin n} {ps qs : List (Fin n)}

/-- The nodes that are pending, in the order in which they leave. -/
def Waits (w : Worklist n) (ps : List (Fin n)) : Prop :=
  match w.strategy with
  | .fifo | .lifo => w.queue = ps
  | .priority => w.ranks = ps.map w.rank

/-! ## Taking -/

theorem Consistent.perm_of_waits (h : w.Consistent) (hw : w.Waits ps) : ps.Perm w.pending := by
  unfold Waits at hw
  cases hs : w.strategy with
  | fifo | lifo =>
    rw [hs] at hw
    exact hw ▸ h.queue (by simp [hs])
  | priority =>
    rw [hs] at hw
    have hranks := h.ranks hs
    rw [hw] at hranks
    exact (List.map_perm_map_iff h.injective).1 hranks

theorem pop?_of_waits_nil (hw : w.Waits []) : w.pop? = none := by
  unfold Waits at hw
  cases hs : w.strategy <;> simp only [hs] at hw <;> simp [pop?, hs, hw]

theorem Consistent.pop?_of_waits (h : w.Consistent) (hw : w.Waits (p :: ps)) :
    ∃ w', w.pop? = some (p, w') ∧ w'.Consistent ∧ w'.Waits ps := by
  have hpop : ∃ w', w.pop? = some (p, w') ∧ w'.Waits ps := by
    unfold Waits at hw
    cases hs : w.strategy with
    | fifo | lifo =>
      rw [hs] at hw
      refine ⟨{ w with queue := ps, pending := w.pending.erase p }, ?_, by simp only [Waits, hs]⟩
      simp only [Worklist.pop?, hs, hw]
    | priority =>
      rw [hs] at hw
      -- The first rank is that of the first node, and of no other.
      have hp := holder?_of_injective h.injective p
      refine ⟨{ w with ranks := ps.map w.rank, pending := w.pending.erase p }, ?_, by simp only [Waits, hs]⟩
      simp only [Worklist.pop?, hs, hw, List.map_cons, hp, Option.map_some]
  obtain ⟨w', hpop, hw'⟩ := hpop
  exact ⟨w', hpop, (h.pop? hpop).2.2, hw'⟩

/-! ## Pushing -/

theorem pushAll_of_subset (h : qs ⊆ w.pending) : w.pushAll qs = w := by
  induction qs with
  | nil => rfl
  | cons q qs ih =>
    obtain ⟨hq, hqs⟩ := List.cons_subset.1 h
    change (w.push q).pushAll qs = w
    rw [push_of_mem hq, ih hqs]

theorem insertRank_last {r : Int} {rs : List Int} (h : ∀ s ∈ rs, s < r) : insertRank r rs = rs ++ [r] := by
  induction rs with
  | nil => rfl
  | cons s rs ih =>
    obtain ⟨hs, hrs⟩ := List.forall_mem_cons.1 h
    rw [insertRank, if_neg (Int.not_le.2 hs), ih hrs, List.cons_append]

theorem waits_push (hs : w.strategy ≠ .lifo) (hw : w.Waits ps) (hp : p ∉ w.pending)
    (hlast : ∀ q ∈ ps, w.rank q < w.rank p) : (w.push p).Waits (ps ++ [p]) := by
  unfold Waits at hw ⊢
  rw [strategy_push, rank_push]
  cases hstrategy : w.strategy with
  | lifo => exact absurd hstrategy hs
  | fifo =>
    rw [hstrategy] at hw
    simp only [push, if_neg (not_contains hp), hstrategy, hw]
  | priority =>
    rw [hstrategy] at hw
    simp only [push, if_neg (not_contains hp), hstrategy, hw]
    rw [insertRank_last (List.forall_mem_map.2 hlast), List.map_append, List.map_singleton]

/-- Nodes of ascending rank wait in the order in which they are pushed. -/
theorem Consistent.waits_pushAll (h : w.Consistent) (hs : w.strategy ≠ .lifo) (hw : w.Waits ps)
    (hascending : (ps ++ qs).Pairwise fun p q => w.rank p < w.rank q) : (w.pushAll qs).Waits (ps ++ qs) := by
  induction qs generalizing w ps with
  | nil => rwa [List.append_nil]
  | cons q qs ih =>
    have hlast : ∀ p ∈ ps, w.rank p < w.rank q := fun p hp =>
      (List.pairwise_append.1 hascending).2.2 p hp q List.mem_cons_self
    have hq : q ∉ w.pending := fun hq =>
      Int.lt_irrefl _ (hlast q ((h.perm_of_waits hw).mem_iff.2 hq))
    rw [List.append_cons] at hascending ⊢
    refine ih (h.push q) (by rwa [strategy_push]) (waits_push hs hw hq hlast) ?_
    rwa [rank_push]

end Dataflow.Worklist
