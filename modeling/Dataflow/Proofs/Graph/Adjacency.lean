import Dataflow.Graph.Build
import Dataflow.Proofs.Graph.Edits
import Dataflow.Proofs.Places
import Mathlib.Algebra.BigOperators.Fin
/-!
# Edges and adjacency

A graph keeps every edge three times. `Graph.Built.wired`: however a graph came about by adding edges, what it
keeps at either end of an edge is what its list of edges says, in the same order. `Graph.mem_succs_iff_mem_preds`
is the form in which a solver needs it.
-/
namespace Dataflow.Graph

/-- Graphs that come from one without edges by adding edges, one after another. -/
inductive Built : Graph → Prop
  | empty (r : Routine) : Built (empty r)
  | addEdge {g g' : Graph} {source target : Node} {kind : EdgeKind} {caseValue : Option Int} {e : Edge} :
      Built g → g.addEdge source target kind caseValue = .ok (g', e) → Built g'

/-- What stands at the two ends of the edges is what the list of edges says. -/
structure Wired (g : Graph) : Prop where
  outgoing : ∀ p : Fin g.size, (g.outgoing.get p).toList = g.edges.toList.filter (·.source = g.node p)
  incoming : ∀ p : Fin g.size, (g.incoming.get p).toList = g.edges.toList.filter (·.target = g.node p)
  joins : ∀ e ∈ g.edges, ∃ s t, g.Joins e s t

/-! ## Adding an edge -/

variable {g : Graph}

theorem node_eq_iff {n : Node} {p : Fin g.size} : g.node p = n ↔ g.position? n = some p :=
  ⟨fun h => by rw [← h, position?_node], node_of_position?⟩

theorem eq_node_iff {n : Node} {q p : Fin g.size} (h : g.position? n = some q) : n = g.node p ↔ q = p := by
  rw [eq_comm, node_eq_iff, h, Option.some.injEq]

theorem Joins.source_eq_iff {e : Edge} {s t p : Fin g.size} (h : g.Joins e s t) : e.source = g.node p ↔ s = p :=
  eq_node_iff h.source

theorem Joins.target_eq_iff {e : Edge} {s t p : Fin g.size} (h : g.Joins e s t) : e.target = g.node p ↔ t = p :=
  eq_node_iff h.target

/-- Setting one entry of a table of arrays to its old content and one more element. -/
theorem toList_set_push {α : Type} {n : Nat} (table : Vector (Array α) n) (s p : Fin n) (x : α) :
    ((table.setIfInBounds s ((table.get s).push x)).get p).toList =
      (table.get p).toList ++ if s = p then [x] else [] := by
  rw [get_setIfInBounds]
  by_cases h : s = p
  · subst h; simp
  · simp [h]

theorem Wired.insert (h : g.Wired) {e : Edge} {s t : Fin g.size} (he : g.Joins e s t) : (g.insert e s t).Wired := by
  refine ⟨?_, ?_, ?_⟩
  · intro (p : Fin g.size)
    -- The edge comes last at its source, as it does in the list of edges.
    change ((g.outgoing.setIfInBounds s ((g.outgoing.get s).push e)).get p).toList =
      (g.edges.push e).toList.filter (·.source = g.node p)
    rw [toList_set_push, h.outgoing p, Array.toList_push, List.filter_append]
    by_cases hp : s = p <;> simp [he.source_eq_iff, hp]
  · intro (p : Fin g.size)
    -- And at its target.
    change ((g.incoming.setIfInBounds t ((g.incoming.get t).push e)).get p).toList =
      (g.edges.push e).toList.filter (·.target = g.node p)
    rw [toList_set_push, h.incoming p, Array.toList_push, List.filter_append]
    by_cases hp : t = p <;> simp [he.target_eq_iff, hp]
  · intro e' he'
    rcases Array.mem_push.1 he' with he' | rfl
    · obtain ⟨s', t', hj⟩ := h.joins e' he'
      exact ⟨s', t', ⟨hj.source, hj.target, hj.source_ne, hj.target_ne, hj.caseValue⟩⟩
    · exact ⟨s, t, ⟨he.source, he.target, he.source_ne, he.target_ne, he.caseValue⟩⟩

theorem wired_empty (r : Routine) : (empty r).Wired := by
  refine ⟨?_, ?_, ?_⟩
  · intro (p : Fin (r.size + 2))
    change ((Vector.replicate (r.size + 2) (#[] : Array Edge)).get p).toList = []
    simp
  · intro (p : Fin (r.size + 2))
    change ((Vector.replicate (r.size + 2) (#[] : Array Edge)).get p).toList = []
    simp
  · intro e he
    simp [empty] at he

theorem Built.wired (h : g.Built) : g.Wired := by
  induction h with
  | empty r => exact wired_empty r
  | addEdge _ hadd ih =>
    obtain ⟨-, s, t, he, rfl⟩ := addEdge_eq_ok hadd
    exact ih.insert he

/-! ## Graphs of routines -/

theorem routine_addWays {g' : Graph} {source : Node} {ways : List Way} (hw : g.addWays source ways = .ok g') :
    g'.routine = g.routine := by
  refine foldlM_keeps (P := fun g' => g'.routine = g.routine) (fun g₁ g₂ w _ h₁ hadd => ?_) hw rfl
  split at hadd
  next result g₃ e hresult =>
    cases hadd
    obtain ⟨-, s, t, -, rfl⟩ := addEdge_eq_ok hresult
    exact h₁
  · cases hadd

theorem built_addWays {g' : Graph} {source : Node} {ways : List Way} (h : g.Built)
    (hw : g.addWays source ways = .ok g') : g'.Built := by
  refine foldlM_keeps (P := Built) (fun g₁ g₂ w _ h₁ hadd => ?_) hw h
  split at hadd
  next result g₃ e hresult =>
    cases hadd
    exact h₁.addEdge hresult
  · cases hadd

/-- The flow graph of a routine adds its edges one by one. -/
theorem built_build {r : Routine} (h : build r = .ok g) : g.Built ∧ g.routine = r := by
  obtain ⟨g₀, hentry, hbody⟩ := bind_ok_iff.1 h
  refine foldlM_keeps (P := fun g' => g'.Built ∧ g'.routine = r) (fun g₁ g₂ entry _ h₁ hadd => ?_) hbody
    ⟨built_addWays (.empty r) hentry, routine_addWays hentry⟩
  obtain ⟨ws, -, hadd⟩ := bind_ok_iff.1 hadd
  exact ⟨built_addWays h₁.1 hadd, (routine_addWays hadd).trans h₁.2⟩

/-! ## Successors and predecessors -/

theorem Wired.mem_succs (h : g.Wired) {p q : Fin g.size} :
    q ∈ g.succs p ↔ ∃ e ∈ g.edges, e.source = g.node p ∧ e.target = g.node q := by
  simp only [succs, List.mem_filterMap, h.outgoing, List.mem_filter, Array.mem_toList_iff, decide_eq_true_eq]
  refine exists_congr fun e => ?_
  rw [and_assoc, ← node_eq_iff, eq_comm (a := g.node q)]

theorem Wired.mem_preds (h : g.Wired) {p q : Fin g.size} :
    p ∈ g.preds q ↔ ∃ e ∈ g.edges, e.source = g.node p ∧ e.target = g.node q := by
  simp only [preds, List.mem_filterMap, h.incoming, List.mem_filter, Array.mem_toList_iff, decide_eq_true_eq]
  refine exists_congr fun e => ?_
  rw [and_assoc, ← node_eq_iff, eq_comm (a := g.node p), and_comm (a := e.target = _)]

/-- An edge leads forth and back. -/
theorem Wired.mem_succs_iff_mem_preds (h : g.Wired) {p q : Fin g.size} : q ∈ g.succs p ↔ p ∈ g.preds q := by
  rw [h.mem_succs, h.mem_preds]

theorem node_entry : g.node g.entry = .entry := rfl

theorem node_exit : g.node g.exit = .exit := node_of_position? rfl

theorem Wired.preds_entry (h : g.Wired) : g.preds g.entry = [] := by
  refine List.eq_nil_iff_forall_not_mem.2 fun p hp => ?_
  obtain ⟨e, he, -, htarget⟩ := h.mem_preds.1 hp
  obtain ⟨s, t, hj⟩ := h.joins e he
  exact hj.target_ne (htarget.trans node_entry)

theorem Wired.succs_exit (h : g.Wired) : g.succs g.exit = [] := by
  refine List.eq_nil_iff_forall_not_mem.2 fun q hq => ?_
  obtain ⟨e, he, hsource, -⟩ := h.mem_succs.1 hq
  obtain ⟨s, t, hj⟩ := h.joins e he
  exact hj.source_ne (hsource.trans node_exit)

/-! ## Counting edges -/

theorem Wired.length_succs (h : g.Wired) (p : Fin g.size) :
    (g.succs p).length = (g.edges.toList.filter (·.source = g.node p)).length := by
  rw [succs, h.outgoing, List.length_filterMap_eq_countP, List.countP_eq_length]
  intro e he
  obtain ⟨s, t, hj⟩ := h.joins e (Array.mem_toList_iff.1 (List.mem_filter.1 he).1)
  rw [hj.target]
  rfl

theorem Wired.length_preds (h : g.Wired) (p : Fin g.size) :
    (g.preds p).length = (g.edges.toList.filter (·.target = g.node p)).length := by
  rw [preds, h.incoming, List.length_filterMap_eq_countP, List.countP_eq_length]
  intro e he
  obtain ⟨s, t, hj⟩ := h.joins e (Array.mem_toList_iff.1 (List.mem_filter.1 he).1)
  rw [hj.source]
  rfl

theorem length_filter_cons {f : Edge → Node} {e : Edge} {q : Fin g.size} (he : g.position? (f e) = some q)
    (es : List Edge) (p : Fin g.size) :
    ((e :: es).filter (f · = g.node p)).length = (if q = p then 1 else 0) + (es.filter (f · = g.node p)).length := by
  by_cases hp : q = p
  · rw [List.filter_cons_of_pos (by simpa using (eq_node_iff he).2 hp), if_pos hp, List.length_cons, Nat.add_comm]
  · rw [List.filter_cons_of_neg (by simpa [eq_node_iff he] using hp), if_neg hp, Nat.zero_add]

/-- At either end every edge stands at one node. -/
theorem sum_length_filter {f : Edge → Node} {es : List Edge} (h : ∀ e ∈ es, ∃ q, g.position? (f e) = some q) :
    ∑ p, (es.filter (f · = g.node p)).length = es.length := by
  induction es with
  | nil => simp
  | cons e es ih =>
    obtain ⟨⟨q, he⟩, hes⟩ := List.forall_mem_cons.1 h
    -- Of all the nodes the edge counts at one.
    rw [Finset.sum_congr rfl fun p _ => length_filter_cons he es p, Finset.sum_add_distrib, Finset.sum_ite_eq,
      if_pos (Finset.mem_univ q), ih hes, List.length_cons, Nat.add_comm]

theorem Wired.sum_length_succs (h : g.Wired) : ∑ p, (g.succs p).length = g.edges.size := by
  rw [Finset.sum_congr rfl fun p _ => h.length_succs p, sum_length_filter, Array.length_toList]
  intro e he
  obtain ⟨s, t, hj⟩ := h.joins e (Array.mem_toList_iff.1 he)
  exact ⟨s, hj.source⟩

theorem Wired.sum_length_preds (h : g.Wired) : ∑ p, (g.preds p).length = g.edges.size := by
  rw [Finset.sum_congr rfl fun p _ => h.length_preds p, sum_length_filter, Array.length_toList]
  intro e he
  obtain ⟨s, t, hj⟩ := h.joins e (Array.mem_toList_iff.1 he)
  exact ⟨t, hj.target⟩

end Dataflow.Graph
