import Dataflow.Graph.Basic
import Dataflow.Proofs.Fold
/-!
# Adding an edge

An edge is written in three places, one after another, once all that may speak against it has been looked at. So it is
added whole, or the graph stays as it was (`edit_addEdge_run`); it is added exactly if it joins two nodes of the graph.
-/
namespace Dataflow.Graph

/-- An edge between two nodes of a graph that may be added to it. -/
structure Joins (g : Graph) (e : Edge) (s t : Fin g.size) : Prop where
  source : g.position? e.source = some s
  target : g.position? e.target = some t
  source_ne : e.source ≠ .exit
  target_ne : e.target ≠ .entry
  caseValue : e.kind = .switchCase ↔ e.caseValue.isSome = true

variable {g : Graph}

theorem Joins.source_mem {e : Edge} {s t : Fin g.size} (h : g.Joins e s t) : g.contains e.source = true := by
  rw [contains, h.source, Option.isSome_some]

theorem Joins.target_mem {e : Edge} {s t : Fin g.size} (h : g.Joins e s t) : g.contains e.target = true := by
  rw [contains, h.target, Option.isSome_some]

/-! ## What speaks against an edge -/

theorem demand_run (g : Graph) (n : Node) :
    (Edit.demand n).run g =
      if g.contains n then .ok ⟨⟩ g else .error (.malformed (.foreignEndpoint (g.foreignTag n) g.title)) g := by
  simp only [Edit.demand, EStateM.run_bind, EStateM.run_get]
  cases g.contains n <;> rfl

theorem edge_eq (g : Graph) (source target : Node) (kind : EdgeKind) (caseValue : Option Int) :
    (¬ (kind = .switchCase ↔ caseValue.isSome = true) ∧ ∃ fault, g.edge source target kind caseValue = .error fault) ∨
      ((kind = .switchCase ↔ caseValue.isSome = true) ∧
        g.edge source target kind caseValue = .ok ⟨source, target, kind, caseValue⟩) := by
  have hcase : decide (kind = .switchCase) = caseValue.isSome ↔ (kind = .switchCase ↔ caseValue.isSome = true) := by
    rw [Bool.eq_iff_iff, decide_eq_true_eq]
  unfold edge
  split
  next h => exact .inr ⟨hcase.1 h, rfl⟩
  next h => exact .inl ⟨mt hcase.2 h, _, rfl⟩

/-- Whether an edge is allowed or not, the graph is not touched. -/
theorem allow_run (g : Graph) (source target : Node) (kind : EdgeKind) (caseValue : Option Int) :
    ((∀ s t, ¬ g.Joins ⟨source, target, kind, caseValue⟩ s t) ∧
        ∃ fault, (Edit.allow source target kind caseValue).run g = .error fault g) ∨
      ∃ s t, g.Joins ⟨source, target, kind, caseValue⟩ s t ∧
        (Edit.allow source target kind caseValue).run g = .ok ⟨source, target, kind, caseValue⟩ g := by
  simp only [Edit.allow, EStateM.run_bind, demand_run]
  by_cases hs : g.contains source = true
  · simp only [if_pos hs]
    by_cases ht : g.contains target = true
    · simp only [if_pos ht]
      obtain ⟨s, hs⟩ := Option.isSome_iff_exists.1 hs
      obtain ⟨t, ht⟩ := Option.isSome_iff_exists.1 ht
      by_cases hsource : source = .exit
      · exact .inl ⟨fun _ _ he => he.source_ne hsource, _, by rw [if_pos hsource]; rfl⟩
      · by_cases htarget : target = .entry
        · exact .inl ⟨fun _ _ he => he.target_ne htarget, _, by rw [if_neg hsource, if_pos htarget]; rfl⟩
        · rw [if_neg hsource, if_neg htarget, EStateM.run_bind, EStateM.run_get]
          obtain ⟨hcase, fault, hedge⟩ | ⟨hcase, hedge⟩ := g.edge_eq source target kind caseValue <;>
            simp only [hedge]
          · exact .inl ⟨fun _ _ he => hcase he.caseValue, fault, rfl⟩
          · exact .inr ⟨s, t, ⟨hs, ht, hsource, htarget, hcase⟩, rfl⟩
    · exact .inl ⟨fun _ _ he => ht he.target_mem, _, by rw [if_neg ht]⟩
  · exact .inl ⟨fun _ _ he => hs he.source_mem, _, by rw [if_neg hs]⟩

/-! ## Writing it -/

theorem run_bind_of_ok {α β : Type} {x : Edit α} {f : α → Edit β} {a : α} {g' : Graph} (h : x.run g = .ok a g') :
    (x >>= f).run g = (f a).run g' := by
  rw [EStateM.run_bind, h]

theorem leave_run {e : Edge} {s : Fin g.size} (h : g.position? e.source = some s) :
    (Edit.leave e).run g = .ok ⟨⟩ { g with outgoing := g.outgoing.setIfInBounds s ((g.outgoing.get s).push e) } := by
  rw [Edit.leave, EStateM.run_modify, h]

theorem enter_run {e : Edge} {t : Fin g.size} (h : g.position? e.target = some t) :
    (Edit.enter e).run g = .ok ⟨⟩ { g with incoming := g.incoming.setIfInBounds t ((g.incoming.get t).push e) } := by
  rw [Edit.enter, EStateM.run_modify, h]

/-- The three writes of an edge are one insertion. -/
theorem write_run {e : Edge} {s t : Fin g.size} (h : g.Joins e s t) :
    (do Edit.list e; Edit.leave e; Edit.enter e; return e : Edit Edge).run g = .ok e (g.insert e s t) := by
  let g₁ : Graph := { g with edges := g.edges.push e }
  let g₂ : Graph := { g₁ with outgoing := g.outgoing.setIfInBounds s ((g.outgoing.get s).push e) }
  have hlist : (Edit.list e).run g = .ok ⟨⟩ g₁ := EStateM.run_modify ..
  have hleave : (Edit.leave e).run g₁ = .ok ⟨⟩ g₂ := leave_run h.source
  have henter : (Edit.enter e).run g₂ = .ok ⟨⟩ (g.insert e s t) := enter_run h.target
  rw [run_bind_of_ok hlist, run_bind_of_ok hleave, run_bind_of_ok henter, EStateM.run_pure]

/-- An edge is added whole, or not at all. -/
theorem edit_addEdge_run (g : Graph) (source target : Node) (kind : EdgeKind) (caseValue : Option Int) :
    ((∀ s t, ¬ g.Joins ⟨source, target, kind, caseValue⟩ s t) ∧
        ∃ fault, (Edit.addEdge source target kind caseValue).run g = .error fault g) ∨
      ∃ s t, g.Joins ⟨source, target, kind, caseValue⟩ s t ∧
        (Edit.addEdge source target kind caseValue).run g =
          .ok ⟨source, target, kind, caseValue⟩ (g.insert ⟨source, target, kind, caseValue⟩ s t) := by
  obtain ⟨hnone, fault, hallow⟩ | ⟨s, t, he, hallow⟩ := g.allow_run source target kind caseValue
  · exact .inl ⟨hnone, fault, by rw [Edit.addEdge, EStateM.run_bind, hallow]⟩
  · exact .inr ⟨s, t, he, by rw [Edit.addEdge, run_bind_of_ok hallow, write_run he]⟩

/-! ## The result alone -/

theorem addEdge_eq_ok {g' : Graph} {e : Edge} {source target : Node} {kind : EdgeKind} {caseValue : Option Int}
    (h : g.addEdge source target kind caseValue = .ok (g', e)) :
    e = ⟨source, target, kind, caseValue⟩ ∧ ∃ s t, g.Joins e s t ∧ g' = g.insert e s t := by
  unfold addEdge at h
  obtain ⟨-, fault, hrun⟩ | ⟨s, t, he, hrun⟩ := g.edit_addEdge_run source target kind caseValue
  · rw [hrun] at h
    cases h
  · rw [hrun] at h
    cases h
    exact ⟨rfl, s, t, he, rfl⟩

theorem addEdge_of_joins {e : Edge} {s t : Fin g.size} (h : g.Joins e s t) :
    ∃ g', g.addEdge e.source e.target e.kind e.caseValue = .ok (g', e) := by
  unfold addEdge
  obtain ⟨hnone, -⟩ | ⟨s', t', -, hrun⟩ := g.edit_addEdge_run e.source e.target e.kind e.caseValue
  · exact absurd h (hnone s t)
  · rw [hrun]
    exact ⟨_, rfl⟩

end Dataflow.Graph
