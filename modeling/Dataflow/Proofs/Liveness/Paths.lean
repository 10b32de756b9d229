import Dataflow.Proofs.Solver.Agreement
/-!
# Live variables and paths

A variable is live before a node if some path of edges leads from there to a statement that reads it, past none that
writes it. `Liveness.mem_iff_live`: the facts of every run that ends say exactly that. A fact holds all live variables
because it solves the equations, and it holds no other because everything a visit adds comes with its path
(`Witnessed.advance`).
-/
namespace Dataflow

/-- Some edge leads from one place to another. -/
def Graph.Leads (g : Graph) (p q : Fin g.size) : Prop :=
  ∃ e ∈ g.edges, e.source = g.node p ∧ e.target = g.node q

/-- A path along edges, with the places that it leaves, in order. -/
inductive Graph.Path (g : Graph) : Fin g.size → List (Fin g.size) → Fin g.size → Prop
  | here (p : Fin g.size) : Path g p [] p
  | step {p q r : Fin g.size} {ps : List (Fin g.size)} : g.Leads p q → Path g q ps r → Path g p (p :: ps) r

theorem Stmt.defined?_eq_some {τ : Type} {s : Stmt τ} {v : Var} :
    s.defined? = some v ↔ s.target? = some (.var v) := by
  unfold defined?
  rw [Option.bind_eq_some_iff]
  constructor
  · rintro ⟨t, ht, hv⟩
    unfold Expr.var? at hv
    split at hv
    next w =>
      cases hv
      exact ht
    next => cases hv
  · exact fun h => ⟨.var v, h, rfl⟩

namespace Liveness

variable {g : Graph} {v : Var} {p q : Fin g.size}

/-- Some path leads to a statement that reads the variable, and no statement that it leaves writes it. -/
def Live (g : Graph) (v : Var) (p : Fin g.size) : Prop :=
  ∃ ps q, g.Path p ps q ∧ v ∈ (g.point q).stmt.uses ∧ ∀ m ∈ ps, (g.point m).stmt.target? ≠ some (.var v)

theorem live_of_mem_uses (h : v ∈ (g.point p).stmt.uses) : Live g v p :=
  ⟨[], p, .here p, h, fun _ hm => absurd hm List.not_mem_nil⟩

theorem Live.step (hpq : g.Leads p q) (hp : (g.point p).stmt.target? ≠ some (.var v)) (h : Live g v q) :
    Live g v p := by
  obtain ⟨ps, r, hpath, huse, hps⟩ := h
  exact ⟨p :: ps, r, .step hpq hpath, huse, List.forall_mem_cons.2 ⟨hp, hps⟩⟩

theorem mem_gather {flow : Flow VarSet g.size} :
    v ∈ (analysis.equations g).gather flow p ↔ ∃ q ∈ g.succs p, v ∈ flow.leaving.get q := by
  -- The induction is over the successors merged so far, from any set.
  have hfold : ∀ (qs : List (Fin g.size)) (s : VarSet),
      v ∈ qs.foldl (fun acc q => acc.union (flow.leaving.get q)) s ↔ v ∈ s ∨ ∃ q ∈ qs, v ∈ flow.leaving.get q := by
    intro qs
    induction qs with
    | nil => simp
    | cons q qs ih =>
      intro s
      rw [List.foldl_cons, ih, VarSet.mem_union]
      simp only [List.mem_cons, exists_eq_or_imp, or_assoc]
  exact (hfold (g.succs p) .empty).trans (or_iff_right (VarSet.not_mem_empty v))

/-! ## Everything found is live -/

/-- Whatever the facts hold is live: what leaves a node there, and what arrives at a node at some successor. -/
structure Witnessed (g : Graph) (flow : Flow VarSet g.size) : Prop where
  leaving : ∀ p v, v ∈ flow.leaving.get p → Live g v p
  arriving : ∀ p v, v ∈ flow.arriving.get p → ∃ q, g.Leads p q ∧ Live g v q

theorem witnessed_start (g : Graph) : Witnessed g (analysis.equations g).start := by
  constructor
  · intro p v hv
    rw [Equations.leaving_start] at hv
    -- The boundary and the initial fact are the same empty set.
    split at hv <;> exact absurd hv (VarSet.not_mem_empty v)
  · intro p v hv
    rw [Equations.arriving_start] at hv
    exact absurd hv (VarSet.not_mem_empty v)

theorem Witnessed.advance (hg : g.Wired) {r r' : Progress VarSet g.size} {rest : Schedule g.size}
    (h : Witnessed g r.flow) (hadvance : (analysis.equations g).advance r p rest = .ok r') : Witnessed g r'.flow := by
  obtain ⟨x, changed, htransfer, rfl⟩ := Equations.advance_eq_ok hadvance
  have harriving : ∀ v, v ∈ (analysis.equations g).gather r.flow p → ∃ q, g.Leads p q ∧ Live g v q := by
    intro v hv
    obtain ⟨q, hq, hvq⟩ := mem_gather.1 hv
    exact ⟨q, hg.mem_succs.1 hq, h.leaving q v hvq⟩
  have hleaving : ∀ v, v ∈ x → Live g v p := by
    intro v hv
    have hsame := ((transfers g).transfer htransfer).1.1
    rcases mem_effect.1 (VarSet.subset_iff.1 hsame v hv) with huse | ⟨hafter, hdef⟩
    · exact live_of_mem_uses huse
    · obtain ⟨q, hpq, hq⟩ := harriving v hafter
      exact hq.step hpq (mt Stmt.defined?_eq_some.2 hdef)
  constructor
  · intro q v hv
    rw [Flow.leaving_put] at hv
    split at hv
    next hpq => exact hpq ▸ hleaving v hv
    next => exact h.leaving q v hv
  · intro q v hv
    rw [Flow.arriving_put] at hv
    split at hv
    next hpq => exact hpq ▸ harriving v hv
    next => exact h.arriving q v hv

/-! ## Everything live is found -/

variable {flow : Flow VarSet g.size}

theorem mem_arriving_iff (hg : g.Wired)
    (h : (analysis.equations g).Solves analysis.Same (fun p => effect (g.point p).stmt) flow) :
    v ∈ flow.arriving.get p ↔ ∃ q, g.Leads p q ∧ v ∈ flow.leaving.get q := by
  have hgather : v ∈ (analysis.equations g).gather flow p ↔ ∃ q, g.Leads p q ∧ v ∈ flow.leaving.get q := by
    rw [mem_gather]
    exact exists_congr fun q => and_congr_left' hg.mem_succs
  rw [← hgather]
  by_cases hp : p = g.exit
  · -- Nothing arrives at the exit, and its merge over no successors is empty.
    subst hp
    have hroot : v ∈ flow.arriving.get g.exit → v ∈ VarSet.empty := VarSet.subset_iff.1 h.arriving_root.1 v
    rw [mem_gather, hg.succs_exit]
    simpa using hroot
  · obtain ⟨hle, hge⟩ := (h.settled p hp).1
    exact ⟨VarSet.subset_iff.1 hle v, VarSet.subset_iff.1 hge v⟩

theorem mem_leaving_iff
    (h : (analysis.equations g).Solves analysis.Same (fun p => effect (g.point p).stmt) flow) :
    v ∈ flow.leaving.get p ↔
      v ∈ (g.point p).stmt.uses ∨ (v ∈ flow.arriving.get p ∧ (g.point p).stmt.defined? ≠ some v) := by
  by_cases hp : p = g.exit
  · -- The exit reads nothing, and nothing is live there.
    subst hp
    have harriving : v ∈ flow.arriving.get g.exit → v ∈ VarSet.empty := VarSet.subset_iff.1 h.arriving_root.1 v
    have hleaving : v ∈ flow.leaving.get g.exit → v ∈ VarSet.empty := VarSet.subset_iff.1 h.leaving_root.1 v
    rw [Graph.point, Graph.node_exit]
    constructor
    · exact fun hv => absurd (hleaving hv) (VarSet.not_mem_empty v)
    · rintro (huse | ⟨hv, -⟩)
      · cases huse
      · exact absurd (harriving hv) (VarSet.not_mem_empty v)
  · obtain ⟨hle, hge⟩ := (h.settled p hp).2
    rw [← mem_effect]
    exact ⟨VarSet.subset_iff.1 hle v, VarSet.subset_iff.1 hge v⟩

theorem mem_leaving_of_live (hg : g.Wired)
    (h : (analysis.equations g).Solves analysis.Same (fun p => effect (g.point p).stmt) flow) (hlive : Live g v p) :
    v ∈ flow.leaving.get p := by
  obtain ⟨ps, q, hpath, huse, hps⟩ := hlive
  -- The induction is on the path, from the statement that reads the variable back to the start.
  induction hpath with
  | here p => exact (mem_leaving_iff h).2 (.inl huse)
  | @step p q r ps hpq _ ih =>
    obtain ⟨hp, hps⟩ := List.forall_mem_cons.1 hps
    have harriving : v ∈ flow.arriving.get p := (mem_arriving_iff hg h).2 ⟨q, hpq, ih huse hps⟩
    exact (mem_leaving_iff h).2 (.inr ⟨harriving, mt Stmt.defined?_eq_some.1 hp⟩)

/-- What a solution says about two neighbouring places: what a statement reads is live before it, what is live after it
and not written is live before it, and what is live before a place is live after all that lead there. -/
structure Closed (g : Graph) (live : Facts VarSet g.size) : Prop where
  read : ∀ {p v}, v ∈ (g.point p).stmt.uses → v ∈ live.ins.get p
  kept : ∀ {p v}, v ∈ live.outs.get p → (g.point p).stmt.defined? ≠ some v → v ∈ live.ins.get p
  after : ∀ {p q v}, q ∈ g.succs p → v ∈ live.ins.get q → v ∈ live.outs.get p

theorem closed_of_solve (hg : g.Built) {settings : Settings} {sol : Solution VarSet g.size}
    (hsol : analysis.solve g settings = .ok sol) : Closed g sol.toFacts := by
  obtain ⟨-, hsolves⟩ := Analysis.solves_of_solve hg.wired ((transfers g).computes lawful) hsol
  refine ⟨fun hv => (mem_leaving_iff hsolves).2 (.inl hv), fun hv hdef => ?_, fun hq hv => ?_⟩
  · exact (mem_leaving_iff hsolves).2 (.inr ⟨hv, hdef⟩)
  · exact (mem_arriving_iff hg.wired hsolves).2 ⟨_, hg.wired.mem_succs.1 hq, hv⟩

/-- Live variables are those of the definition by paths: before a node those that some path reads before it writes them,
after it those before some successor. A store through a field or an element takes none of them away. -/
theorem mem_iff_live (hg : g.Built) {settings : Settings} {sol : Solution VarSet g.size}
    (hsol : analysis.solve g settings = .ok sol) (p : Fin g.size) (v : Var) :
    (v ∈ sol.ins.get p ↔ Live g v p) ∧ (v ∈ sol.outs.get p ↔ ∃ q, g.Leads p q ∧ v ∈ sol.ins.get q) ∧
      ∀ t, (g.point p).stmt.target? = some t → t.var? = none → v ∈ sol.outs.get p → v ∈ sol.ins.get p := by
  obtain ⟨r, hrun, hflow, -⟩ := Analysis.solve_eq_ok hsol
  obtain ⟨hreach, -⟩ := Equations.run_eq_ok hrun
  have hwitnessed : Witnessed g (analysis.flow sol.toFacts) := by
    rw [hflow]
    exact hreach.keeps (I := fun r => Witnessed g r.flow)
      (fun _ _ _ _ hr _ hadvance => hr.advance hg.wired hadvance) (witnessed_start g)
  obtain ⟨-, hsolves⟩ := Analysis.solves_of_solve hg.wired ((transfers g).computes lawful) hsol
  have hin : ∀ p, v ∈ sol.ins.get p ↔ Live g v p := by
    intro p
    exact ⟨hwitnessed.leaving p v, mem_leaving_of_live hg.wired hsolves⟩
  have hout : v ∈ sol.outs.get p ↔ ∃ q, g.Leads p q ∧ v ∈ sol.ins.get q := mem_arriving_iff hg.wired hsolves
  refine ⟨hin p, hout, ?_⟩
  intro t ht hvar hv
  obtain ⟨q, hpq, hq⟩ := hout.1 hv
  refine (hin p).2 (((hin q).1 hq).step hpq ?_)
  -- The place that is stored to is no variable.
  intro heq
  rw [ht] at heq
  cases heq
  cases hvar

/-- In the loop that counts down, sweeps find `y` live before the test, from where the return that reads it may be next,
and not before the statement that writes it. -/
theorem mem_iff_live_countdown :
    ∃ g sol p q, Graph.build Analysis.countdown = .ok g ∧ analysis.solve g { backward := .sweeps } = .ok sol ∧
      g.position? (.stmt 0) = some p ∧ Live g { name := "y" } p ∧
      g.position? (.stmt 1) = some q ∧ ¬ Live g { name := "y" } q := by
  have hrun : ((Graph.build Analysis.countdown).toOption.bind fun g =>
      (analysis.solve g { backward := .sweeps }).toOption.bind fun sol =>
        (g.position? (.stmt 0)).bind fun p => (g.position? (.stmt 1)).map fun q =>
          (sol.ins.get p).contains { name := "y" } && !(sol.ins.get q).contains { name := "y" }) = some true := by
    decide +kernel
  obtain ⟨g, hg, h⟩ := Option.bind_eq_some_iff.1 hrun
  obtain ⟨sol, hsol, h⟩ := Option.bind_eq_some_iff.1 h
  obtain ⟨p, hp, h⟩ := Option.bind_eq_some_iff.1 h
  obtain ⟨q, hq, h⟩ := Option.map_eq_some_iff.1 h
  rw [toOption_eq_some] at hg hsol
  simp only [Bool.and_eq_true, Bool.not_eq_true', ← Bool.not_eq_true, VarSet.contains_iff] at h
  have hlive := mem_iff_live (Graph.built_build hg).1 hsol
  exact ⟨g, sol, p, q, hg, hsol, hp, (hlive p _).1.1 h.1, hq, fun hl => h.2 ((hlive q _).1.2 hl)⟩

end Liveness

end Dataflow
