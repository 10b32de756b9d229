import Dataflow.Proofs.DeadCode.Findings
import Dataflow.Proofs.Liveness.Paths
import Dataflow.Reading.Read
import Mathlib.Logic.Function.Iterate
/-!
# Leaving out useless assignments

A useless assignment changes a variable that is not live, and nothing else. So the run that leaves all of them out
agrees with the full run on the live variables, wherever both stand (`Machine.Agree.step`), and as statements read live
variables only, nothing that can be noticed differs: the places, the heap, what is done to it and what is returned.
-/
namespace Dataflow

/-- Meanings for the statements of a graph, over values and a heap of any kind. Each depends on the values of the
variables that the statement reads, and on the heap only where it works on it. -/
structure Machine (g : Graph) (V H : Type) where
  /-- The value of a right side that is not missed when it is left out. -/
  value : Fin g.size → List V → V
  /-- What any other right side, a call or a store makes of the heap, and the value it gives; the run may end there. -/
  act : Fin g.size → List V → H → Option (V × H)
  /-- Where a branch or a switch goes on, if anywhere. -/
  turn : (p : Fin g.size) → List V → Option { q // q ∈ g.succs p }
  /-- What a return returns. -/
  answer : Fin g.size → List V → V

namespace Machine

variable {g : Graph} {V H : Type}

/-- What can be noticed of a run, apart from where it goes. -/
inductive Event (g : Graph) (V : Type) where
  | acted (p : Fin g.size) (operands : List V)
  | returned (value : V)
  deriving DecidableEq

/-- What a statement comes to: the value it gives, the heap, what is noticed, and the place that is next. -/
structure Outcome (g : Graph) (V H : Type) where
  value : Option V
  heap : H
  events : List (Event g V)
  next : Option (Fin g.size)

/-- Where a run stands; once it has ended, it stands nowhere. -/
structure State (g : Graph) (V H : Type) where
  place : Option (Fin g.size)
  store : Var → V
  heap : H
  trace : List (Event g V)

/-- The only place that a statement leads to, unless it branches. -/
def follow (g : Graph) (p : Fin g.size) : Option (Fin g.size) := (g.succs p).head?

/-- Works on the heap. -/
def work (m : Machine g V H) (p : Fin g.size) (operands : List V) (heap : H) : Outcome g V H :=
  match m.act p operands heap with
  | none => ⟨none, heap, [.acted p operands], none⟩
  | some (x, heap) => ⟨some x, heap, [.acted p operands], follow g p⟩

/-- What the statement at a place comes to. -/
def perform (m : Machine g V H) (p : Fin g.size) (operands : List V) (heap : H) : Outcome g V H :=
  match (g.point p).stmt with
  | .assign target value =>
    if target.var?.isSome && value.isPure then ⟨some (m.value p operands), heap, [], follow g p⟩
    else m.work p operands heap
  | .invoke .. => m.work p operands heap
  | .branch .. | .switch .. => ⟨none, heap, [], (m.turn p operands).map (·.1)⟩
  | .return _ => ⟨none, heap, [.returned (m.answer p operands)], follow g p⟩
  | .goto _ | .nop => ⟨none, heap, [], follow g p⟩

/-- The store after a statement that has given a value. -/
def write (s : Statement) (value : Option V) (store : Var → V) : Var → V :=
  match s.defined?, value with
  | some v, some x => Function.update store v x
  | _, _ => store

/-- One step. A statement that is skipped does nothing but lead on. -/
def step (m : Machine g V H) (skips : Fin g.size → Bool) (s : State g V H) : State g V H :=
  match s.place with
  | none => s
  | some p =>
    if skips p then { s with place := follow g p }
    else
      let o := m.perform p ((g.point p).stmt.uses.map s.store) s.heap
      { place := o.next, store := write (g.point p).stmt o.value s.store, heap := o.heap, trace := s.trace ++ o.events }

/-- The state after some steps from the entry. -/
def run (m : Machine g V H) (skips : Fin g.size → Bool) (store : Var → V) (heap : H) (n : Nat) : State g V H :=
  (m.step skips)^[n] ⟨some g.entry, store, heap, []⟩

/-- All of a state but its store. -/
def State.observed (s : State g V H) : Option (Fin g.size) × H × List (Event g V) := (s.place, s.heap, s.trace)

/-! ## Statements -/

variable {m : Machine g V H} {p q : Fin g.size} {operands : List V} {heap : H}

theorem mem_succs_of_follow (h : follow g p = some q) : q ∈ g.succs p := List.mem_of_mem_head? h

theorem work_next (h : (m.work p operands heap).next = some q) :
    q ∈ g.succs p ∧ ∃ x, (m.work p operands heap).value = some x := by
  unfold work at h ⊢
  cases hact : m.act p operands heap with
  | none =>
    rw [hact] at h
    cases h
  | some r =>
    rw [hact] at h
    exact ⟨mem_succs_of_follow h, r.1, rfl⟩

/-- A run goes on along an edge, and then the statement has given a value if it defines a variable. -/
theorem perform_next (h : (m.perform p operands heap).next = some q) :
    q ∈ g.succs p ∧
      ∀ v, (g.point p).stmt.defined? = some v → ∃ x, (m.perform p operands heap).value = some x := by
  unfold perform at h ⊢
  cases hs : (g.point p).stmt with
  | assign target value =>
    simp only [hs] at h ⊢
    split at h
    next hpure =>
      rw [if_pos hpure]
      exact ⟨mem_succs_of_follow h, fun _ _ => ⟨_, rfl⟩⟩
    next hpure =>
      rw [if_neg hpure]
      exact ⟨(work_next h).1, fun _ _ => (work_next h).2⟩
  | invoke call result =>
    simp only [hs] at h ⊢
    exact ⟨(work_next h).1, fun _ _ => (work_next h).2⟩
  | branch condition target | switch scrutinee cases default =>
    simp only [hs] at h ⊢
    obtain ⟨⟨q', hq'⟩, -, rfl⟩ := Option.map_eq_some_iff.1 h
    exact ⟨hq', fun _ hv => nomatch hv⟩
  | «return» value | goto target | nop =>
    simp only [hs] at h ⊢
    exact ⟨mem_succs_of_follow h, fun _ hv => nomatch hv⟩

/-- A useless statement gives a value, and has no other effect. -/
theorem perform_of_isUseless {after : VarSet} (h : DeadCode.isUseless (g.point p).stmt after = true) :
    m.perform p operands heap = ⟨some (m.value p operands), heap, [], follow g p⟩ := by
  obtain ⟨w, value, hs, hpure, -⟩ := DeadCode.isUseless_iff.1 h
  simp only [perform, hs, Expr.var?, hpure, Option.isSome_some, Bool.and_self, if_true]

theorem write_apply (s : Statement) (x : Option V) (store : Var → V) (v : Var) :
    write s x store v = if s.defined? = some v then x.getD (store v) else store v := by
  unfold write
  cases s.defined? with
  | none => rfl
  | some w =>
    cases x with
    | none => simp
    | some x =>
      simp only [Function.update_apply, Option.some.injEq, Option.getD_some]
      exact if_congr eq_comm rfl rfl

/-! ## Two runs side by side -/

/-- Two states that differ at most in variables that are not live. -/
structure Agree (live : Facts VarSet g.size) (s t : State g V H) : Prop where
  observed : s.observed = t.observed
  store : ∀ p, t.place = some p → ∀ v ∈ live.ins.get p, s.store v = t.store v

variable {live : Facts VarSet g.size} {skips : Fin g.size → Bool} {s t : State g V H}

/-- If only useless statements are skipped, a step keeps the agreement with the run that skips nothing. -/
theorem Agree.step (hlive : Liveness.Closed g live)
    (hskips : ∀ p, skips p = true → DeadCode.isUseless (g.point p).stmt (live.outs.get p) = true)
    (h : Agree live s t) : Agree live (m.step skips s) (m.step (fun _ => false) t) := by
  obtain ⟨place, store, heap, trace⟩ := s
  obtain ⟨place', store', heap', trace'⟩ := t
  obtain ⟨hobserved, hstore⟩ := h
  cases hobserved
  cases place with
  | none => exact ⟨rfl, hstore⟩
  | some p =>
    have hstore : ∀ v ∈ live.ins.get p, store v = store' v := hstore p rfl
    unfold Machine.step
    simp only [Bool.false_eq_true, if_false]
    by_cases hp : skips p = true
    · -- The skipped statement writes a variable that is not live after it.
      rw [if_pos hp, perform_of_isUseless (hskips p hp)]
      refine ⟨?_, ?_⟩
      · simp only [State.observed, List.append_nil]
      · intro q hq v hv
        have hafter : v ∈ live.outs.get p := hlive.after (mem_succs_of_follow hq) hv
        have hne := DeadCode.defined?_ne_of_isUseless (hskips p hp) hafter
        change store v = write _ _ store' v
        rw [write_apply, if_neg hne]
        exact hstore v (hlive.kept hafter hne)
    · -- Statements read live variables only, so the same happens in both runs.
      have hoperands : (g.point p).stmt.uses.map store = (g.point p).stmt.uses.map store' :=
        List.map_congr_left fun v hv => hstore v (hlive.read hv)
      rw [if_neg hp, hoperands]
      refine ⟨rfl, ?_⟩
      intro q hq v hv
      obtain ⟨hsucc, hvalue⟩ := perform_next hq
      have hafter : v ∈ live.outs.get p := hlive.after hsucc hv
      change write _ _ store v = write _ _ store' v
      rw [write_apply, write_apply]
      split
      next hdefined =>
        obtain ⟨x, hx⟩ := hvalue v hdefined
        rw [hx]
        rfl
      next hdefined => exact hstore v (hlive.kept hafter hdefined)

theorem agree_run (hlive : Liveness.Closed g live)
    (hskips : ∀ p, skips p = true → DeadCode.isUseless (g.point p).stmt (live.outs.get p) = true)
    (store : Var → V) (heap : H) (n : Nat) :
    Agree live (m.run skips store heap n) (m.run (fun _ => false) store heap n) := by
  induction n with
  | zero => exact ⟨rfl, fun _ _ _ _ => rfl⟩
  | succ n ih =>
    simp only [run, Function.iterate_succ_apply'] at ih ⊢
    exact ih.step hlive hskips

end Machine

namespace DeadCode

/-- The statements that have been found useless. -/
def useless (g : Graph) (findings : List Finding) (p : Fin g.size) : Bool :=
  findings.any fun f => f.reason = .useless ∧ g.node p = .stmt f.index

/-- All useless assignments can be left out at once: whatever the statements mean, after any number of steps both runs
have come to the same place by the same places, with the same heap and the same trace. -/
theorem skip_useless {g : Graph} (hg : g.Built) {constants : Facts Env g.size} {settings : Settings}
    {live : Solution VarSet g.size} (hlive : Liveness.analysis.solve g settings = .ok live) {findings : List Finding}
    (hfindings : detect g constants live.toFacts = .ok findings) {V H : Type} (m : Machine g V H) (store : Var → V)
    (heap : H) (n : Nat) :
    (m.run (useless g findings) store heap n).observed = (m.run (fun _ => false) store heap n).observed := by
  refine (Machine.agree_run (Liveness.closed_of_solve hg hlive) ?_ store heap n).observed
  intro p hp
  obtain ⟨f, hf, hfp⟩ := List.any_eq_true.1 hp
  obtain ⟨huseless, hnode⟩ := of_decide_eq_true hfp
  obtain ⟨reached, -, hreason⟩ := reason?_of_mem hfindings hf hnode
  exact reason?_eq_useless (huseless ▸ hreason)

/-- A loop with two useless assignments, one of which reads the variable that the other one defines. -/
def hoarding : String :=
  "param int n\nparam Box o\nL: y = n * 2\nx = n\nx = y\nz = x\no.f = n\nn = n - 1\nif (n > 0) goto L\nreturn n"

/-- A machine on integers whose heap is a sum. -/
def adder (g : Graph) : Machine g Int Int where
  value _ operands := operands.sum - 1
  act _ operands heap := some (0, heap + operands.sum)
  turn p operands := if 0 < operands.sum then (g.succs p).attach.head? else (g.succs p).attach.getLast?
  answer _ operands := operands.sum

/-- Both useless assignments of the loop may be skipped in every round. -/
theorem skip_useless_hoarding :
    ∃ r g constants live, Reading.read hoarding = .ok r ∧ Graph.build r = .ok g ∧
      Constants.analysis.solve g {} = .ok constants ∧ Liveness.analysis.solve g {} = .ok live ∧
      detect g constants.toFacts live.toFacts = .ok [⟨1, .useless⟩, ⟨3, .useless⟩] ∧
      ∀ n, ((adder g).run (useless g [⟨1, .useless⟩, ⟨3, .useless⟩]) (fun _ => 2) 0 n).observed =
        ((adder g).run (fun _ => false) (fun _ => 2) 0 n).observed := by
  have hrun : ((Reading.read hoarding).toOption.bind fun r => (Graph.build r).toOption.bind fun g =>
      (Constants.analysis.solve g).toOption.bind fun constants => (Liveness.analysis.solve g).toOption.bind fun live =>
        (detect g constants.toFacts live.toFacts).toOption.map fun findings =>
          decide (findings = [⟨1, .useless⟩, ⟨3, .useless⟩])) = some true := by
    decide +kernel
  obtain ⟨r, hr, h⟩ := Option.bind_eq_some_iff.1 hrun
  obtain ⟨g, hg, h⟩ := Option.bind_eq_some_iff.1 h
  obtain ⟨constants, hconstants, h⟩ := Option.bind_eq_some_iff.1 h
  obtain ⟨live, hlive, h⟩ := Option.bind_eq_some_iff.1 h
  obtain ⟨findings, hfindings, h⟩ := Option.map_eq_some_iff.1 h
  rw [toOption_eq_some] at hr hg hconstants hlive hfindings
  rw [of_decide_eq_true h] at hfindings
  exact ⟨r, g, constants, live, hr, hg, hconstants, hlive, hfindings,
    skip_useless (Graph.built_build hg).1 hlive hfindings (adder g) _ 0⟩

end DeadCode

end Dataflow
