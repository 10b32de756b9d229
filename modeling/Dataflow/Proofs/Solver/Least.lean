import Dataflow.Proofs.Solver.Settled
/-!
# Least solutions

Where facts are ordered, merging gives least upper bounds and effects are monotone, a run stays below every
solution (`Below.advance`). As it ends in a solution, it ends in the least one.
-/
namespace Dataflow.Equations

variable {F : Type} {n : Nat}

/-- The facts have an order in which the initial fact is least and merging gives the least upper bound. -/
structure Ordered (s : Equations F n) (le : F → F → Prop) : Prop where
  refl : ∀ x, le x x
  trans : ∀ {x y z}, le x y → le y z → le x z
  initial_le : ∀ x, le s.initial x
  merge_le_iff : ∀ {x y z}, le (s.merge x y) z ↔ le x z ∧ le y z

/-- Facts that the order does not tell apart. -/
def Alike (le : F → F → Prop) (x y : F) : Prop := le x y ∧ le y x

/-- Effects keep the order of the facts of a domain. -/
def Monotone (D : F → Prop) (le : F → F → Prop) (effect : Fin n → F → F) : Prop :=
  ∀ {p x y}, D x → D y → le x y → le (effect p x) (effect p y)

/-- All facts of a flow are below those of another. -/
def Flow.Below (le : F → F → Prop) (flow flow' : Flow F n) : Prop :=
  ∀ p : Fin n, le (flow.arriving.get p) (flow'.arriving.get p) ∧ le (flow.leaving.get p) (flow'.leaving.get p)

variable {s : Equations F n} {D : F → Prop} {le : F → F → Prop} {effect : Fin n → F → F}

/-! ## Least upper bounds -/

theorem Ordered.equivalence (h : s.Ordered le) : Equivalence (Alike le) where
  refl x := ⟨h.refl x, h.refl x⟩
  symm hxy := ⟨hxy.2, hxy.1⟩
  trans hxy hyz := ⟨h.trans hxy.1 hyz.1, h.trans hyz.2 hxy.2⟩

theorem Ordered.le_merge (h : s.Ordered le) (x y : F) : le x (s.merge x y) ∧ le y (s.merge x y) :=
  h.merge_le_iff.1 (h.refl _)

theorem Ordered.merge_mono (h : s.Ordered le) {x x' y y' : F} (hx : le x x') (hy : le y y') :
    le (s.merge x y) (s.merge x' y') := by
  obtain ⟨hx', hy'⟩ := h.le_merge x' y'
  exact h.merge_le_iff.2 ⟨h.trans hx hx', h.trans hy hy'⟩

theorem Ordered.merge_same (h : s.Ordered le) {x x' y y' : F} (hx : Alike le x x') (hy : Alike le y y') :
    Alike le (s.merge x y) (s.merge x' y') :=
  ⟨h.merge_mono hx.1 hy.1, h.merge_mono hx.2 hy.2⟩

theorem Ordered.foldl_merge_le_iff (h : s.Ordered le) {flow : Flow F n} {qs : List (Fin n)} {x z : F} :
    le (qs.foldl (fun acc q => s.merge (flow.leaving.get q) acc) x) z ↔
      le x z ∧ ∀ q ∈ qs, le (flow.leaving.get q) z := by
  induction qs generalizing x with
  | nil => simp
  | cons q qs ih => rw [List.foldl_cons, ih, h.merge_le_iff, List.forall_mem_cons, and_left_comm, and_assoc]

/-- What arrives at a node is the least upper bound of what leaves its sources. -/
theorem Ordered.gather_le_iff (h : s.Ordered le) {flow : Flow F n} {p : Fin n} {z : F} :
    le (s.gather flow p) z ↔ ∀ q ∈ s.sources p, le (flow.leaving.get q) z := by
  unfold gather
  rw [h.foldl_merge_le_iff]
  exact and_iff_right (h.initial_le z)

theorem Ordered.gather_mono (h : s.Ordered le) {flow flow' : Flow F n}
    (hle : ∀ q : Fin n, le (flow.leaving.get q) (flow'.leaving.get q)) (p : Fin n) :
    le (s.gather flow p) (s.gather flow' p) := by
  rw [h.gather_le_iff]
  intro q hq
  exact h.trans (hle q) (h.gather_le_iff.1 (h.refl _) q hq)

/-! ## Runs stay below solutions -/

theorem Flow.Below.advance (h : s.Computes D (Alike le) effect) (ho : s.Ordered le) (hm : Monotone D le effect)
    {f : Flow F n} (hf : s.Solves (Alike le) effect f) (hfD : Flow.Within D f) {r r' : Progress F n} {p : Fin n}
    {rest : Schedule n} (hr : s.Sound D (Alike le) effect r) (hbelow : Flow.Below le r.flow f)
    (hnext : r.schedule.next? = some (p, rest)) (hadvance : s.advance r p rest = .ok r') :
    Flow.Below le r'.flow f := by
  obtain ⟨x, changed, htransfer, rfl⟩ := advance_eq_ok hadvance
  obtain ⟨hp, -, -⟩ := hr.schedule.next? hnext
  obtain ⟨harriving, hleaving⟩ := hf.settled p hp
  have hgather : D (s.gather r.flow p) := gather_mem h hr.within p
  -- The sources are below those of the solution, so what is merged from them is, and so is the effect on it.
  have hin : le (s.gather r.flow p) (f.arriving.get p) :=
    ho.trans (ho.gather_mono (fun q => (hbelow q).2) p) harriving.2
  have hout : le x (f.leaving.get p) :=
    ho.trans (h.transfer hgather (hr.within.leaving p) htransfer).2.1.1
      (ho.trans (hm hgather (hfD.arriving p) hin) hleaving.2)
  intro q
  rw [Flow.arriving_put, Flow.leaving_put]
  by_cases hpq : p = q
  · subst hpq
    rw [if_pos rfl, if_pos rfl]
    exact ⟨hin, hout⟩
  · rw [if_neg hpq, if_neg hpq]
    exact hbelow q

theorem below_start (ho : s.Ordered le) {f : Flow F n} (hf : s.Solves (Alike le) effect f) :
    Flow.Below le s.start f := by
  intro p
  constructor
  · rw [arriving_start]
    exact ho.initial_le _
  · rw [leaving_start]
    split
    next hp =>
      subst hp
      exact hf.leaving_root.2
    next => exact ho.initial_le _

/-- A run ends below every solution. -/
theorem below_of_run (h : s.Computes D (Alike le) effect) (hs : s.Linked) (ho : s.Ordered le)
    (hm : Monotone D le effect) {schedule : Schedule n} (hschedule : schedule.Consistent s.root)
    (hdue : ∀ p, p ≠ s.root → schedule.Due p) {budget : Nat} {r : Progress F n}
    (hrun : s.run budget ⟨s.start, schedule, 0⟩ = .ok r) {f : Flow F n} (hf : s.Solves (Alike le) effect f)
    (hfD : Flow.Within D f) : Flow.Below le r.flow f := by
  obtain ⟨hreach, -⟩ := run_eq_ok hrun
  have hkeep : s.Sound D (Alike le) effect r ∧ Flow.Below le r.flow f :=
    hreach.keeps (I := fun r => s.Sound D (Alike le) effect r ∧ Flow.Below le r.flow f)
      (fun _ _ _ _ hr hnext hadvance =>
        ⟨hr.1.advance h hs hnext hadvance, hr.2.advance h ho hm hf hfD hr.1 hnext hadvance⟩)
      ⟨sound_start h hschedule hdue, below_start ho hf⟩
  exact hkeep.2

end Dataflow.Equations
