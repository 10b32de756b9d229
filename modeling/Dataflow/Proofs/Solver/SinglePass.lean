import Dataflow.Proofs.Solver.Queue
import Dataflow.Proofs.Solver.Solution
/-!
# Graphs that only lead onwards

Where every edge leads to a later node, the nodes that a visit would put on the worklist are all on it still, so the
line of pending nodes only shortens (`Equations.Lined.next?_cons`), whatever the analysis reports. A forward analysis
then visits every node but the entry once, in order (`Analysis.solve_visits_once`).
-/
namespace Dataflow

namespace Equations

variable {F : Type} {n : Nat}

/-- The nodes that a run visits, one after another. If an effect cannot be computed, its node is the last. -/
def visited (s : Equations F n) : Nat → Progress F n → List (Fin n)
  | 0, _ => []
  | budget + 1, r =>
    match r.schedule.next? with
    | none => []
    | some (p, rest) =>
      match s.advance r p rest with
      | .error _ => [p]
      | .ok r => p :: visited s budget r

/-- In a line of nodes, what depends on a node comes after it. -/
def Onward (s : Equations F n) : List (Fin n) → Prop
  | [] => True
  | p :: ps => s.dependents p ⊆ ps ∧ Onward s ps

/-- The nodes that are due wait in a line that leads onwards. -/
structure Lined (s : Equations F n) (r : Progress F n) (ps : List (Fin n)) : Prop where
  waits : ∃ w, r.schedule = .worklist w ∧ w.Consistent ∧ w.Waits ps
  onward : s.Onward ps

variable {s : Equations F n} {r : Progress F n} {p : Fin n} {ps : List (Fin n)}

theorem onward_of_pairwise (h : ps.Pairwise (· < ·)) (hlater : ∀ p ∈ ps, ∀ q ∈ s.dependents p, p < q ∧ q ∈ ps) :
    s.Onward ps := by
  induction ps with
  | nil => trivial
  | cons p ps ih =>
    obtain ⟨hp, hps⟩ := List.pairwise_cons.1 h
    refine ⟨?_, ih hps ?_⟩
    · intro q hq
      obtain ⟨hlt, hmem⟩ := hlater p List.mem_cons_self q hq
      exact (List.mem_cons.1 hmem).resolve_left (Fin.ne_of_gt hlt)
    · -- What depends on a node further on comes after `p` as well.
      intro p' hp' q hq
      obtain ⟨hlt, hmem⟩ := hlater p' (List.mem_cons_of_mem p hp') q hq
      exact ⟨hlt, (List.mem_cons.1 hmem).resolve_left (Fin.ne_of_gt (Fin.lt_trans (hp p' hp') hlt))⟩

theorem Lined.next?_nil (h : s.Lined r []) : r.schedule.next? = none := by
  obtain ⟨w, hw, -, hwaits⟩ := h.waits
  rw [hw, Schedule.next?, Worklist.pop?_of_waits_nil hwaits, Option.map_none]

/-- A visit takes the first node out of the line, and puts none into it. -/
theorem Lined.next?_cons (h : s.Lined r (p :: ps)) :
    ∃ rest, r.schedule.next? = some (p, rest) ∧ rest.pending = ps.length ∧
      ∀ r', s.advance r p rest = .ok r' → s.Lined r' ps ∧ r'.visits = r.visits + 1 := by
  obtain ⟨w, hw, hconsistent, hwaits⟩ := h.waits
  obtain ⟨hdependents, honward⟩ := h.onward
  obtain ⟨w', hpop, hconsistent', hwaits'⟩ := hconsistent.pop?_of_waits hwaits
  have hperm := hconsistent'.perm_of_waits hwaits'
  refine ⟨.worklist w', by rw [hw, Schedule.next?, hpop, Option.map_some], hperm.length_eq.symm, ?_⟩
  intro r' hadvance
  obtain ⟨x, changed, -, rfl⟩ := advance_eq_ok hadvance
  have hpush : w'.pushAll (s.dependents p) = w' := Worklist.pushAll_of_subset fun q hq => hperm.subset (hdependents hq)
  refine ⟨⟨⟨w', ?_, hconsistent', hwaits'⟩, honward⟩, rfl⟩
  rw [Schedule.report, hpush, ite_self]

/-- A run visits the nodes of its line in order: all of them, or as many as it may, or up to one whose effect cannot be
computed. -/
theorem Lined.run (h : s.Lined r ps) (budget : Nat) :
    ∃ k, k ≤ ps.length ∧ s.visited budget r = ps.take k ∧
      ((k = ps.length ∧ ∃ r', s.run budget r = .ok r' ∧ r'.visits = r.visits + ps.length) ∨
        (k = budget ∧ budget < ps.length ∧
          s.run budget r = .error (.diverged (r.visits + budget) (ps.length - (budget + 1)))) ∨
        ∃ p x y e, (ps.take k).getLast? = some p ∧ s.transfer p x y = .error e ∧
          s.run budget r = .error (.effect e)) := by
  induction ps generalizing budget r with
  | nil =>
    have hnext := h.next?_nil
    refine ⟨0, Nat.le_refl 0, ?_, .inl ⟨rfl, r, ?_, rfl⟩⟩ <;> cases budget <;> simp [visited, Equations.run, hnext]
  | cons p ps ih =>
    obtain ⟨rest, hnext, hpending, hadvance⟩ := h.next?_cons
    cases budget with
    | zero =>
      refine ⟨0, Nat.zero_le _, rfl, .inr (.inl ⟨rfl, Nat.succ_pos _, ?_⟩)⟩
      simp [Equations.run, hnext, hpending]
    | succ budget =>
      cases hr : s.advance r p rest with
      | error e =>
        refine ⟨1, Nat.succ_pos _, by simp [visited, hnext, hr], .inr (.inr ⟨p, _, _, e, rfl, advance_eq_error hr, ?_⟩)⟩
        simp [Equations.run, hnext, hr]
      | ok r' =>
        obtain ⟨hlined, hvisits⟩ := hadvance r' hr
        have hrun : s.run (budget + 1) r = s.run budget r' := by simp [Equations.run, hnext, hr]
        have hvisited : s.visited (budget + 1) r = p :: s.visited budget r' := by simp [visited, hnext, hr]
        obtain ⟨k, hk, htake, hout⟩ := ih hlined budget
        refine ⟨k + 1, Nat.succ_le_succ hk, by rw [hvisited, htake, List.take_succ_cons], ?_⟩
        rw [hrun]
        rcases hout with ⟨rfl, r₁, hok, hr₁⟩ | ⟨rfl, hlt, herror⟩ | ⟨q, x, y, e, hlast, htransfer, herror⟩
        · refine .inl ⟨rfl, r₁, hok, ?_⟩
          rw [hr₁, hvisits, List.length_cons]
          omega
        · refine .inr (.inl ⟨rfl, Nat.succ_lt_succ hlt, ?_⟩)
          rw [herror, hvisits, List.length_cons, Nat.add_sub_add_right]
          congr 2
          omega
        · refine .inr (.inr ⟨q, x, y, e, ?_, htransfer, herror⟩)
          rw [List.take_succ_cons, List.getLast?_cons, hlast, Option.getD_some]

end Equations

/-! ## Places and indexes -/

namespace Graph

variable {g : Graph}

/-- Every edge leads to a node of greater index. -/
def Ascending (g : Graph) : Prop := ∀ e ∈ g.edges, g.index e.source < g.index e.target

instance (g : Graph) : Decidable g.Ascending := inferInstanceAs (Decidable (∀ e ∈ g.edges, _))

theorem index_node (g : Graph) (p : Fin g.size) : g.index (g.node p) = (p.val : Int) - 1 := by
  obtain ⟨p, hp⟩ := p
  unfold node
  split
  next h =>
    simp only at h
    subst h
    rfl
  next h =>
    split
    next hlast =>
      simp only at hlast
      subst hlast
      simp [index]
    next =>
      simp only at h
      simp only [index]
      omega

theorem Ascending.lt_of_mem_succs (h : g.Ascending) (hg : g.Wired) {p q : Fin g.size} (hq : q ∈ g.succs p) : p < q := by
  obtain ⟨e, he, hsource, htarget⟩ := hg.mem_succs.1 hq
  have hlt := h e he
  rw [hsource, htarget, index_node, index_node] at hlt
  exact Fin.lt_def.2 (by omega)

end Graph

namespace Analysis

variable {F : Type} {a : Analysis F} {g : Graph} {settings : Settings}

/-- The indexes of the nodes that a run visits, one after another. -/
def visited (a : Analysis F) (g : Graph) (settings : Settings) : List Int :=
  ((a.equations g).visited settings.maxVisits (a.begin g settings)).map fun p => g.index (g.node p)

theorem index_inner (hd : a.direction = .forward) :
    (a.equations g).inner.map (fun p => g.index (g.node p)) = (List.range (g.size - 1)).map (Nat.cast : Nat → Int) := by
  have hroot : (a.equations g).root = g.entry := by simp only [equations, hd]
  have hplaces : List.finRange g.size = g.entry :: (List.finRange (g.routine.size + 1)).map Fin.succ :=
    List.finRange_succ
  rw [Equations.inner, hroot, hplaces, List.filter_cons_of_neg (by simp), List.filter_eq_self.2 ?_]
  · rw [List.map_map, ← List.map_coe_finRange_eq_range, List.map_map]
    refine List.map_congr_left fun p _ => ?_
    simp [Graph.index_node]
  · intro q hq
    obtain ⟨p, -, rfl⟩ := List.mem_map.1 hq
    exact decide_eq_true (Fin.succ_ne_zero p)

/-- Where all edges lead onwards, a forward run begins with a line of all nodes but the entry. -/
theorem lined_begin (hg : g.Wired) (hascending : g.Ascending) (hd : a.direction = .forward)
    (hs : settings.strategy ≠ .lifo) : (a.equations g).Lined (a.begin g settings) (a.equations g).inner := by
  have hsorted : (a.equations g).inner.Pairwise (· < ·) := (List.pairwise_lt_finRange g.size).filter _
  have hbegin := consistent_begin g settings
  refine ⟨⟨_, if_neg (by simp [sweeps, hd]), hbegin.pushAll _, ?_⟩, Equations.onward_of_pairwise hsorted ?_⟩
  · have hwaits : Worklist.Waits { strategy := settings.strategy, rank := fun p : Fin g.size => (p.val : Int) } [] := by
      unfold Worklist.Waits
      cases settings.strategy <;> rfl
    exact hbegin.waits_pushAll hs hwaits (hsorted.imp fun h => Int.ofNat_lt.2 h)
  · intro p _ q hq
    have hsucc : q ∈ g.succs p := by simpa only [equations, hd] using hq
    refine ⟨hascending.lt_of_mem_succs hg hsucc, mem_inner.2 ?_⟩
    rintro rfl
    have hsource := (linked a hg).mem_dependents.1 hq
    rw [(linked a hg).root] at hsource
    cases hsource

/-- Where all edges lead onwards, a forward analysis visits the nodes after the entry in order, each of them once. It
fails to end only if it may not take that many visits or if an effect cannot be computed. -/
theorem solve_visits_once (a : Analysis F) (settings : Settings) (hg : g.Built) (hascending : g.Ascending)
    (hd : a.direction = .forward) (hs : settings.strategy ≠ .lifo) :
    ∃ k, k ≤ g.size - 1 ∧ a.visited g settings = (List.range k).map (Nat.cast : Nat → Int) ∧
      ((k = g.size - 1 ∧ ∃ sol, a.solve g settings = .ok sol ∧ sol.visits = g.size - 1) ∨
        (k = settings.maxVisits ∧ settings.maxVisits < g.size - 1 ∧
          a.solve g settings = .error (.diverged settings.maxVisits (g.size - 1 - (settings.maxVisits + 1)))) ∨
        ∃ p x y e, (a.visited g settings).getLast? = some (g.index (g.node p)) ∧
          a.transfer (g.point p) x y = .error e ∧ a.solve g settings = .error (.effect e)) := by
  have hindex := index_inner (g := g) hd
  have hlength : (a.equations g).inner.length = g.size - 1 := by
    simpa only [List.length_map, List.length_range] using congrArg List.length hindex
  obtain ⟨k, hk, htake, hout⟩ := (lined_begin hg.wired hascending hd hs).run settings.maxVisits
  have hvisited : a.visited g settings = (List.range k).map (Nat.cast : Nat → Int) := by
    rw [visited, htake, List.map_take, hindex, ← List.map_take, List.take_range, Nat.min_eq_left (hlength ▸ hk)]
  refine ⟨k, hlength ▸ hk, hvisited, ?_⟩
  unfold solve
  rcases hout with ⟨rfl, r, hok, hr⟩ | ⟨rfl, hlt, herror⟩ | ⟨p, x, y, e, hlast, htransfer, herror⟩
  · rw [hok]
    exact .inl ⟨hlength, _, rfl, by rw [hr, hlength]; exact Nat.zero_add _⟩
  · rw [herror, ← hlength]
    exact .inr (.inl ⟨rfl, hlt, by rw [show (a.begin g settings).visits = 0 from rfl, Nat.zero_add]⟩)
  · rw [herror]
    refine .inr (.inr ⟨p, x, y, e, ?_, htransfer, rfl⟩)
    rw [visited, htake, List.getLast?_map, hlast, Option.map_some]

/-- A forward analysis that reports a change on every visit. -/
def restless : Analysis Unit where
  id := "restless"
  label := "Restless"
  direction := .forward
  boundary _ := ()
  initial := ()
  merge _ _ := ()
  transfer _ _ _ := .ok ((), true)
  le _ _ := true

/-- A statement that may be skipped. -/
def skip : Routine :=
  .ofStmts "skip" [⟨"x", .primitive .int⟩]
    [.branch (.binary (.compare .eq) (.var ⟨"x", .primitive .int⟩) (.literal 0)) (some (.stmt 2)), .nop,
     .return none] none

theorem solve_visits_once_skip :
    ∃ g, Graph.build skip = .ok g ∧
      ∀ strategy, strategy ≠ .lifo → restless.visited g { strategy, maxVisits := 4 } = [0, 1, 2, 3] ∧
        ∃ sol, restless.solve g { strategy, maxVisits := 4 } = .ok sol ∧ sol.visits = 4 := by
  have hgraph : ((Graph.build skip).toOption.map fun g => (decide g.Ascending, g.size)) = some (true, 5) := by
    decide
  obtain ⟨g, hg, hgraph⟩ := Option.map_eq_some_iff.1 hgraph
  obtain ⟨hascending, hsize⟩ := Prod.mk.inj hgraph
  rw [toOption_eq_some] at hg
  refine ⟨g, hg, fun strategy hs => ?_⟩
  obtain ⟨k, -, hvisited, hout⟩ := solve_visits_once restless { strategy, maxVisits := 4 } (Graph.built_build hg).1
    (of_decide_eq_true hascending) rfl hs
  have hlast : g.size - 1 = 4 := congrArg (· - 1) hsize
  rcases hout with ⟨rfl, sol, hsol, hvisits⟩ | ⟨-, hlt, -⟩ | ⟨p, x, y, e, -, htransfer, -⟩
  · exact ⟨by rw [hvisited, hlast]; rfl, sol, hsol, hvisits.trans hlast⟩
  · exact absurd (hlt.trans_eq hlast) (Nat.lt_irrefl 4)
  · cases htransfer

end Analysis

end Dataflow
