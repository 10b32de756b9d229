import Dataflow.Proofs.Constants.Execution
/-!
# Executions that decide branches

Executions that go where their stores send them: a branch by the value of its condition, a switch by the number that it
looks at. What has no value in 32 bits may have any, but for comparisons, which are true or false.
-/
namespace Dataflow

namespace Store

/-- The word may be the result of the expression; a comparison is true or false, whatever it compares. -/
def Results (σ : Store) (a : Word) (e : Expr) : Prop :=
  σ.Yields a e ∧ ∀ op l r, e = .binary (.compare op) l r → ∃ b, a = Word.truth b

/-- A statement runs to its end, and if it stores a comparison, it stores that this is true or that it is false. -/
structure Steps (s : Statement) (σ σ' : Store) : Prop extends Runs s σ σ' where
  comparison : ∀ v op l r, s.defined? = some v → v.holdsInt = true → s.value? = some (.binary (.compare op) l r) →
    ∃ b, σ' v = some (.word (Word.truth b))

variable {σ : Store} {e : Expr}

theorem steps_nop (σ : Store) : Steps .nop σ σ := ⟨runs_nop σ, fun _ _ _ _ hv => nomatch hv⟩

theorem steps_assign {v : Var} {a : Word} (hv : v.holdsInt = true) (huses : ∀ u ∈ e.uses, σ u ≠ none)
    (hfaults : ¬ σ.Faults e) (ha : σ.Results a e) :
    Steps (.assign (.var v) e) σ (Function.update σ v (some (.word a))) := by
  refine ⟨runs_assign hv huses hfaults ha.1, ?_⟩
  intro w op l r hw _ he
  cases hw
  obtain ⟨b, rfl⟩ := ha.2 op l r (Option.some.inj he)
  exact ⟨b, Function.update_self _ _ _⟩

theorem steps_branch {target : Option Target} (huses : ∀ u ∈ e.uses, σ u ≠ none) (hfaults : ¬ σ.Faults e) :
    Steps (.branch e target) σ σ :=
  ⟨⟨huses, fun _ he => Option.some.inj he ▸ hfaults, .nothing rfl⟩, fun _ _ _ _ hv => nomatch hv⟩

end Store

namespace Graph

/-- A switch may take the edge for a number: an edge of this case, or a default edge if there is no such case. -/
def Selects (g : Graph) (n : Int) (e : Edge) : Prop :=
  (e.kind = .switchCase ∧ e.caseValue = some n) ∨
    (e.kind = .switchDefault ∧
      ∀ e' ∈ g.edges, e'.source = e.source → e'.kind = .switchCase → e'.caseValue ≠ some n)

/-- The edge may be taken after a statement. The true edge of a branch is for all results but zero; a switch on
something that is not a word may take the edge for any number. -/
def Takes (g : Graph) (s : Statement) (σ : Store) (e : Edge) : Prop :=
  match s with
  | .branch condition _ => ∃ a, σ.Results a condition ∧ e.kind = if a = 0 then .ifFalse else .ifTrue
  | .switch scrutinee _ _ => ∃ n, (∀ a, σ scrutinee = some (.word a) → n = a.toInt) ∧ g.Selects n e
  | _ => True

/-- An execution arrives at a place with a store, by edges that it may take. -/
inductive Executes (g : Graph) : Fin g.size → Store → Prop
  | entry {σ : Store} : σ.Initial g.routine → Executes g g.entry σ
  | next {p q : Fin g.size} {σ σ' : Store} {e : Edge} :
      Executes g p σ → Store.Steps (g.point p).stmt σ σ' → e ∈ g.edges → e.source = g.node p → e.target = g.node q →
        g.Takes (g.point p).stmt σ' e → Executes g q σ'

/-- Executions that decide branches are executions. -/
theorem Executes.arrives {g : Graph} (hg : g.Wired) {p : Fin g.size} {σ : Store} (h : g.Executes p σ) :
    g.Arrives p σ := by
  induction h with
  | entry hσ => exact .entry hσ
  | next _ hsteps he hsource htarget _ ih => exact ih.next hsteps.toRuns (hg.mem_succs.2 ⟨_, he, hsource, htarget⟩)

end Graph

end Dataflow
