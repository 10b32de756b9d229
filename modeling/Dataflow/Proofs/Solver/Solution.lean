import Dataflow.Proofs.Graph.Adjacency
import Dataflow.Proofs.Solver.Least
import Dataflow.Solver.Solve
/-!
# Solutions of an analysis

What the dataflow equations of an analysis on a graph say, in terms of the facts before and after every node, and
how that is the same as solving the system of equations that a run works on.
-/
namespace Dataflow.Analysis

variable {F : Type}

/-- The facts are ordered, the initial one is least, and merging two facts gives their least upper bound. -/
structure Lawful (a : Analysis F) : Prop where
  le_refl : ∀ x, a.le x x = true
  le_trans : ∀ {x y z}, a.le x y = true → a.le y z = true → a.le x z = true
  initial_le : ∀ x, a.le a.initial x = true
  merge_le_iff : ∀ {x y z}, a.le (a.merge x y) z = true ↔ a.le x z = true ∧ a.le y z = true

/-- Equal facts: each is below the other. -/
def Same (a : Analysis F) (x y : F) : Prop := a.le x y = true ∧ a.le y x = true

/-- At every node of a graph the transfer overwrites the recorded fact by a monotone effect of the fact that flows
in, and reports a change exactly if there was one. -/
structure Transfers (a : Analysis F) (g : Graph) (effect : Fin g.size → F → F) : Prop where
  monotone : ∀ {p x y}, a.le x y = true → a.le (effect p x) (effect p y) = true
  transfer : ∀ {p x y z changed}, a.transfer (g.point p) x y = .ok (z, changed) →
    a.Same z (effect p x) ∧ (changed = true ↔ ¬ a.Same z y)

/-- A least upper bound of several facts. -/
def IsJoin (a : Analysis F) (xs : List F) (x : F) : Prop := ∀ z, a.le x z = true ↔ ∀ y ∈ xs, a.le y z = true

/-- The dataflow equations. Forward, the fact after the entry is the boundary, and at every other node the fact
before it joins those after its predecessors and the fact after it is the effect on that; backward, the same from
the exit on. -/
def Solves (a : Analysis F) (g : Graph) (effect : Fin g.size → F → F) (f : Facts F g.size) : Prop :=
  match a.direction with
  | .forward =>
    a.Same (f.outs.get g.entry) (a.boundary g.routine) ∧ a.Same (f.ins.get g.entry) a.initial ∧
      ∀ p, p ≠ g.entry → a.IsJoin ((g.preds p).map f.outs.get) (f.ins.get p) ∧
        a.Same (f.outs.get p) (effect p (f.ins.get p))
  | .backward =>
    a.Same (f.ins.get g.exit) (a.boundary g.routine) ∧ a.Same (f.outs.get g.exit) a.initial ∧
      ∀ p, p ≠ g.exit → a.IsJoin ((g.succs p).map f.ins.get) (f.outs.get p) ∧
        a.Same (f.ins.get p) (effect p (f.outs.get p))

/-- Node by node, the facts are below others. -/
def Below {n : Nat} (a : Analysis F) (f f' : Facts F n) : Prop :=
  ∀ p : Fin n, a.le (f.ins.get p) (f'.ins.get p) = true ∧ a.le (f.outs.get p) (f'.outs.get p) = true

/-- A run ends within a number of visits, unless it may not take that many. -/
def EndsWithin (a : Analysis F) (g : Graph) (settings : Settings) (bound : Nat) : Prop :=
  (∃ sol, a.solve g settings = .ok sol ∧ sol.visits ≤ bound) ∨
    (settings.maxVisits < bound ∧ ∃ pending, a.solve g settings = .error (.diverged settings.maxVisits pending))

variable {a : Analysis F} {g : Graph}

/-! ## The system of equations -/

theorem linked (a : Analysis F) (hg : g.Wired) : (a.equations g).Linked := by
  cases hd : a.direction with
  | forward =>
    constructor <;> simp only [equations, hd]
    · exact hg.mem_succs_iff_mem_preds
    · exact hg.preds_entry
  | backward =>
    constructor <;> simp only [equations, hd]
    · exact hg.mem_succs_iff_mem_preds.symm
    · exact hg.succs_exit

theorem mem_inner {n : Nat} {s : Equations F n} {p : Fin n} : p ∈ s.inner ↔ p ≠ s.root := by
  simp [Equations.inner]

/-- The ranks of a run are the places themselves. -/
theorem consistent_begin (g : Graph) (settings : Settings) :
    Worklist.Consistent { strategy := settings.strategy, rank := fun p : Fin g.size => (p.val : Int) } :=
  Worklist.consistent_empty _ fun _ _ h => Fin.ext (Int.ofNat_inj.1 h)

theorem schedule_consistent (a : Analysis F) (g : Graph) (settings : Settings) :
    (a.schedule g settings).Consistent (a.equations g).root := by
  unfold schedule
  split
  · exact ⟨fun p => List.mem_reverse.trans mem_inner, fun p hp => hp⟩
  · refine ⟨(consistent_begin g settings).pushAll _, ?_⟩
    intro hroot
    rcases Worklist.mem_pushAll.1 hroot with hroot | hroot
    · exact mem_inner.1 hroot rfl
    · cases hroot

theorem schedule_due (a : Analysis F) (g : Graph) (settings : Settings) {p : Fin g.size}
    (hp : p ≠ (a.equations g).root) : (a.schedule g settings).Due p := by
  unfold schedule
  split
  · exact .inr (List.mem_reverse.2 (mem_inner.2 hp))
  · exact Worklist.mem_pushAll.2 (.inl (mem_inner.2 hp))

theorem flow_facts {n : Nat} (a : Analysis F) (flow : Flow F n) : a.flow (a.facts flow) = flow := by
  cases hd : a.direction <;> simp only [Analysis.flow, facts, hd]

theorem solve_eq_ok {settings : Settings} {sol : Solution F g.size} (h : a.solve g settings = .ok sol) :
    ∃ r, (a.equations g).run settings.maxVisits (a.begin g settings) = .ok r ∧ a.flow sol.toFacts = r.flow ∧
      sol.visits = r.visits := by
  unfold solve at h
  split at h
  · cases h
  next r hr =>
    cases h
    exact ⟨r, hr, flow_facts a r.flow, rfl⟩

theorem endsWithin_of_run {settings : Settings} {bound : Nat}
    (h : (∃ r, (a.equations g).run settings.maxVisits (a.begin g settings) = .ok r ∧ r.visits ≤ bound) ∨
      (settings.maxVisits < bound ∧ ∃ pending, (a.equations g).run settings.maxVisits (a.begin g settings) =
        .error (.diverged settings.maxVisits pending))) : a.EndsWithin g settings bound := by
  unfold EndsWithin solve
  rcases h with ⟨r, hok, hvisits⟩ | ⟨hbudget, pending, herror⟩
  · rw [hok]
    exact .inl ⟨_, rfl, hvisits⟩
  · rw [herror]
    exact .inr ⟨hbudget, pending, rfl⟩

/-! ## The order -/

theorem Lawful.ordered (h : a.Lawful) (g : Graph) : (a.equations g).Ordered (fun x y => a.le x y = true) where
  refl := h.le_refl
  trans := h.le_trans
  initial_le := h.initial_le
  merge_le_iff := h.merge_le_iff

theorem Transfers.computes {effect : Fin g.size → F → F} (h : a.Lawful) (he : a.Transfers g effect) :
    (a.equations g).Computes (fun _ => True) a.Same effect where
  equivalence := (h.ordered g).equivalence
  boundary := trivial
  initial := trivial
  merge _ _ := trivial
  merge_same := (h.ordered g).merge_same
  transfer _ _ hz := ⟨trivial, he.transfer hz⟩

theorem Lawful.isJoin_iff (h : a.Lawful) {flow : Flow F g.size} {p : Fin g.size} {x : F} :
    a.IsJoin (((a.equations g).sources p).map flow.leaving.get) x ↔ a.Same x ((a.equations g).gather flow p) := by
  have hgather : ∀ z, a.le ((a.equations g).gather flow p) z = true ↔
      ∀ q ∈ (a.equations g).sources p, a.le (flow.leaving.get q) z = true := by
    intro z
    exact (h.ordered g).gather_le_iff
  simp only [IsJoin, List.forall_mem_map]
  constructor
  · intro hx
    exact ⟨(hx _).2 ((hgather _).1 (h.le_refl _)), (hgather _).2 ((hx x).1 (h.le_refl _))⟩
  · intro hx z
    rw [← hgather]
    exact ⟨fun hz => h.le_trans hx.2 hz, fun hz => h.le_trans hx.1 hz⟩

/-- The dataflow equations are the system that a run works on. -/
theorem Lawful.solves_iff (h : a.Lawful) {effect : Fin g.size → F → F} {f : Facts F g.size} :
    a.Solves g effect f ↔ (a.equations g).Solves a.Same effect (a.flow f) := by
  have hsettled : ∀ p, (a.equations g).Settled a.Same effect (a.flow f) p ↔
      a.IsJoin (((a.equations g).sources p).map (a.flow f).leaving.get) ((a.flow f).arriving.get p) ∧
        a.Same ((a.flow f).leaving.get p) (effect p ((a.flow f).arriving.get p)) := by
    intro p
    rw [h.isJoin_iff]
    rfl
  have hsolves : (a.equations g).Solves a.Same effect (a.flow f) ↔
      a.Same ((a.flow f).leaving.get (a.equations g).root) (a.boundary g.routine) ∧
        a.Same ((a.flow f).arriving.get (a.equations g).root) a.initial ∧
          ∀ p, p ≠ (a.equations g).root → (a.equations g).Settled a.Same effect (a.flow f) p :=
    ⟨fun ⟨h₁, h₂, h₃⟩ => ⟨h₂, h₁, h₃⟩, fun ⟨h₁, h₂, h₃⟩ => ⟨h₂, h₁, h₃⟩⟩
  simp only [hsolves, hsettled]
  cases hd : a.direction <;> simp only [Solves, equations, Analysis.flow, hd]

theorem below_iff {n : Nat} {f f' : Facts F n} :
    a.Below f f' ↔ Equations.Flow.Below (fun x y => a.le x y = true) (a.flow f) (a.flow f') := by
  cases hd : a.direction with
  | forward => simp only [Below, Equations.Flow.Below, Analysis.flow, hd]
  | backward =>
    -- What leaves a node is the fact before it.
    simp only [Below, Equations.Flow.Below, Analysis.flow, hd]
    exact forall_congr' fun p => and_comm

end Dataflow.Analysis
