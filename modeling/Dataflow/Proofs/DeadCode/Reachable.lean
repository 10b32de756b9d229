import Dataflow.Proofs.Constants.Soundness
import Dataflow.Proofs.DeadCode.Detection
import Dataflow.Proofs.DeadCode.Execution
import Dataflow.Proofs.Graph.Ways
/-!
# What is found unreachable

Where the facts after a node describe the store that it leaves, the edge that an execution takes is feasible
(`mem_feasible_of_takes`), so executions stay among the places that feasible edges reach. The facts do describe it as
long as the definitions of variables that hold integers read no others. They need not where a definition reads a
variable that is not tracked: of its value nothing is known, which a merge takes for no value at all, and what is
executed may then be found unreachable.
-/
namespace Dataflow

namespace Constants

variable {op : BinOp} {x y : Value} {n : Int} {env : Env} {r : Routine} {e : Expr}

/-- Only of two constants is the result a constant. -/
theorem combine_eq_const (h : combine op x y = .const n) : ∃ k m, x = .const k ∧ y = .const m := by
  have hzero : ¬ (op.divides = true ∧ y = .const 0) := by
    rintro ⟨hdiv, rfl⟩
    rw [combine_zero hdiv] at h
    cases h
  have hnac : ¬ (x = .nac ∨ y = .nac) := by
    intro hnac
    rw [combine_nac hzero hnac] at h
    cases h
  obtain ⟨hx, hy⟩ := not_or.1 hnac
  have hundefined : ¬ (x = .undefined ∨ y = .undefined) := by
    intro hu
    rw [combine_undefined hx hy hu] at h
    cases h
  obtain ⟨hx', hy'⟩ := not_or.1 hundefined
  cases x with
  | undefined => exact absurd rfl hx'
  | nac => exact absurd rfl hx
  | const k =>
    cases y with
    | undefined => exact absurd rfl hy'
    | nac => exact absurd rfl hy
    | const m => exact ⟨k, m, rfl, rfl⟩

/-- What has a constant result reads tracked variables only. -/
theorem holdsInt_of_value (henv : Ranged r env) (h : value env e = .const n) :
    ∀ o ∈ operands e, ∀ u ∈ o.uses, u.holdsInt = true := by
  have hoperand : ∀ {o k}, operand env o = .const k → ∀ u ∈ o.uses, u.holdsInt = true := by
    intro o k ho u hu
    cases o with
    | literal => cases hu
    | var v =>
      rw [List.mem_singleton.1 hu]
      have hknown : env.get v ≠ .undefined := by
        change env.get v = .const k at ho
        rw [ho]
        exact fun hv => nomatch hv
      exact (henv.tracked v hknown).1
  cases e with
  | operand o => exact fun o' ho' => List.mem_singleton.1 ho' ▸ hoperand h
  | binary op a b =>
    obtain ⟨k, m, ha, hb⟩ := combine_eq_const h
    exact List.forall_mem_cons.2 ⟨hoperand ha, List.forall_mem_cons.2 ⟨hoperand hb, fun _ ho => nomatch ho⟩⟩
  | negate | allocate | cast | field | staticField | element | call => exact fun _ ho => nomatch ho

theorem value_of_evaluate {v : Value} (h : evaluate env e = .ok v) : value env e = v := by
  rw [value, h]
  rfl

variable {σ : Store} {a : Word}

/-- A constant that an expression evaluates to is what it yields in every store that is described. -/
theorem eq_toInt_of_evaluate (henv : Ranged r env) (hσ : σ.Typed) (hdescribes : Describes env σ)
    (hlit : ∀ k ∈ e.literals, Int32.Fits k) (hassigned : ∀ u ∈ e.uses, σ u ≠ none) (hyields : σ.Yields a e)
    (h : evaluate env e = .ok (.const n)) : n = a.toInt := by
  have hvalue := value_of_evaluate h
  have hcovers := value_covers hσ hdescribes hlit (holdsInt_of_value henv hvalue) hassigned hyields
  rw [hvalue] at hcovers
  rcases hcovers with hconst | hnac
  · exact Value.const.inj hconst
  · cases hnac

/-- A variable that is known to be a constant holds it in every store that is described. -/
theorem eq_toInt_of_get (henv : Ranged r env) (hσ : σ.Typed) (hdescribes : Describes env σ) {v : Var}
    (hassigned : σ v ≠ none) (h : env.get v = .const n) : ∃ a, σ v = some (.word a) ∧ n = a.toInt := by
  have hknown : env.get v ≠ .undefined := by
    rw [h]
    exact fun hv => nomatch hv
  obtain ⟨a, ha⟩ := hσ.exists_word (henv.tracked v hknown).1 hassigned
  refine ⟨a, ha, ?_⟩
  rcases hdescribes v a (henv.tracked v hknown).1 ha with hconst | hnac
  · rw [h] at hconst
    exact Value.const.inj hconst
  · rw [h] at hnac
    cases hnac

end Constants

namespace DeadCode

variable {g : Graph} {p : Fin g.size} {s : Statement} {env : Env} {σ σ' : Store} {e : Edge} {edges : List Edge}
  {index : Int}

theorem mem_outgoing (hg : g.Wired) (he : e ∈ g.edges) (hsource : e.source = g.node p) :
    e ∈ (g.outgoing.get p).toList := by
  rw [hg.outgoing]
  exact List.mem_filter.2 ⟨Array.mem_toList_iff.2 he, decide_eq_true hsource⟩

theorem mem_edges_of_outgoing (hg : g.Wired) (he : e ∈ (g.outgoing.get p).toList) :
    e ∈ g.edges ∧ e.source = g.node p := by
  rw [hg.outgoing] at he
  obtain ⟨he, hsource⟩ := List.mem_filter.1 he
  exact ⟨Array.mem_toList_iff.1 he, of_decide_eq_true hsource⟩

theorem caseValue_eq_none (hg : g.Wired) (he : e ∈ g.edges) (hkind : e.kind = .switchDefault) :
    e.caseValue = none := by
  obtain ⟨s, t, hjoins⟩ := hg.joins e he
  by_contra hsome
  have hcase : e.kind = .switchCase := hjoins.caseValue.2 (Option.isSome_iff_ne_none.2 hsome)
  rw [hkind] at hcase
  cases hcase

/-- The edge that a switch may take for a number is the one that detection keeps for it. -/
theorem isArm_of_selects (hg : g.Wired) (hdet : g.Deterministic) (he : e ∈ g.edges) (hsource : e.source = g.node p)
    {n : Int} (h : g.Selects n e) : IsArm n (g.outgoing.get p).toList e := by
  have hmem := mem_outgoing hg he hsource
  -- Of the edges out of `p` no other one is alike in kind and case value.
  have hunique : ∀ e' ∈ (g.outgoing.get p).toList, e'.kind = e.kind → e'.caseValue = e.caseValue → e' = e := by
    intro e' he' hkind hcase
    obtain ⟨he', hsource'⟩ := mem_edges_of_outgoing hg he'
    exact hdet e' he' e he (hsource'.trans hsource.symm) hkind hcase
  rcases h with ⟨hkind, hcase⟩ | ⟨hkind, hnone⟩
  · refine .inl (isFirst_of_unique hmem ⟨hkind, hcase⟩ ?_)
    rintro e' he' ⟨hkind', hcase'⟩
    exact hunique e' he' (hkind'.trans hkind.symm) (hcase'.trans hcase.symm)
  · refine .inr ⟨?_, isFirst_of_unique hmem hkind ?_⟩
    · rintro e' he' ⟨hkind', hcase'⟩
      obtain ⟨he', hsource'⟩ := mem_edges_of_outgoing hg he'
      exact hnone e' he' (hsource'.trans hsource.symm) hkind' hcase'
    · intro e' he' hkind'
      have hcase := caseValue_eq_none hg (mem_edges_of_outgoing hg he').1 hkind'
      exact hunique e' he' (hkind'.trans hkind.symm) (hcase.trans (caseValue_eq_none hg he hkind).symm)

/-- Where an environment describes the store, the edge that is taken is feasible. -/
theorem mem_feasible_of_takes (hg : g.Wired) (hdet : g.Deterministic) {r : Routine} (henv : Constants.Ranged r env)
    (hlit : ∀ n ∈ s.literals, Int32.Fits n) (hσ : σ.Typed) (hruns : Store.Runs s σ σ')
    (hdescribes : Constants.Describes env σ') (he : e ∈ g.edges) (hsource : e.source = g.node p)
    (htakes : g.Takes s σ' e) (h : feasible index s env (g.outgoing.get p).toList = .ok edges) : e ∈ edges := by
  rw [mem_feasible_iff h]
  refine ⟨mem_outgoing hg he hsource, ?_⟩
  cases s with
  | branch condition target =>
    intro n hevaluate
    obtain ⟨a, ⟨hyields, -⟩, hkind⟩ := htakes
    rw [hruns.eq_of_defined? rfl] at hdescribes hyields
    have hn := Constants.eq_toInt_of_evaluate henv hσ hdescribes hlit hruns.assigned hyields hevaluate
    simp only [hkind, hn, Word.toInt_eq_zero_iff]
  | switch scrutinee cases default =>
    intro m hget
    obtain ⟨n, hn, hselects⟩ := htakes
    rw [hruns.eq_of_defined? rfl] at hdescribes hn
    obtain ⟨a, ha, hm⟩ :=
      Constants.eq_toInt_of_get henv hσ hdescribes (hruns.assigned scrutinee List.mem_cons_self) hget
    have hmn : m = n := hm.trans (hn a ha).symm
    exact hmn ▸ isArm_of_selects hg hdet he hsource hselects
  | assign | invoke | goto | «return» | nop => trivial

/-! ## Executions -/

/-- No statement at which an execution arrives has been found unreachable. -/
def Spares (g : Graph) (findings : List Finding) : Prop :=
  ∀ i p σ, g.node p = .stmt i → g.Executes p σ → ⟨i, .unreachable⟩ ∉ findings

variable {settings : Settings} {constants : Solution Env g.size} {live : Facts VarSet g.size}

/-- Executions do not leave the places that feasible edges reach. -/
theorem mem_reached_of_executes (hg : g.Wired) (hdet : g.Deterministic) (hr : g.routine.Fits)
    (hint : Constants.IntOperands g.routine) (hsol : Constants.analysis.solve g settings = .ok constants)
    {reached : List (Fin g.size)} (hreached : reachable g constants.toFacts = .ok reached) (h : g.Executes p σ) :
    p ∈ reached := by
  have hfrontier := Graph.explore_eq_ok hreached
  obtain ⟨hwithin, hsolves⟩ := Analysis.solves_of_solve hg (Constants.computes hr) hsol
  induction h with
  | entry _ => simpa using hfrontier.origin
  | @next p q σ σ' e hfirst hsteps he hsource htarget htakes ih =>
    obtain ⟨qs, hqs, hall⟩ := hfrontier.closed p ih
    obtain ⟨edges, hedges, rfl⟩ := map_ok_iff.1 hqs
    have harrives := hfirst.arrives hg
    have hdescribes := Constants.describes_leaving hg hr hint hsolves harrives
      (Constants.describes_of_arrives hg hr hint hsolves harrives) hsteps.toRuns
    have hfeasible : e ∈ edges := mem_feasible_of_takes hg hdet (hwithin.leaving p) (hr.point p).literals
      harrives.typed hsteps.toRuns hdescribes he hsource htakes hedges
    have hq : q ∈ edges.filterMap fun e => g.position? e.target := by
      refine List.mem_filterMap.2 ⟨e, hfeasible, ?_⟩
      rw [htarget, g.position?_node]
    simpa using hall q hq

/-- As long as the definitions of variables that hold integers read no others, no statement that is executed is found
unreachable. -/
theorem spares_of_intOperands {text name : String} {r : Routine} (hread : Reading.read text name = .ok r)
    (hbuild : Graph.build r = .ok g) (hint : Constants.IntOperands r)
    (hsol : Constants.analysis.solve g settings = .ok constants) {findings : List Finding}
    (hfindings : detect g constants.toFacts live = .ok findings) : Spares g findings := by
  obtain ⟨hbuilt, rfl⟩ := Graph.built_build hbuild
  intro i p σ hp hexecutes hmem
  obtain ⟨reached, hreached, hreason⟩ := reason?_of_mem hfindings hmem hp
  exact reason?_eq_unreachable hreason (mem_reached_of_executes hbuilt.wired
    (Graph.deterministic_of_read hread hbuild) (Reading.fits_read hread) hint hsol hreached hexecutes)

end DeadCode

end Dataflow
