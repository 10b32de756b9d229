import Dataflow.Pipeline.Run
import Dataflow.Proofs.Constants.Convergence
import Dataflow.Proofs.Solver.Agreement
/-!
# What settings may change in a report

All schedules find the same live variables, and the same constants as long as no variable is divided by another; dead
statements follow from these. Where one variable is divided by another, different schedules may report different
constants.
-/
namespace Dataflow

/-! ## Dead statements -/

namespace DeadCode

variable {g : Graph} {constants constants' : Facts Env g.size} {live live' : Facts VarSet g.size}

theorem feasible_congr {env env' : Env} (h : ∀ v, env.get v = env'.get v) (index : Int) (s : Statement)
    (edges : List Edge) : feasible index s env edges = feasible index s env' edges := by
  cases s with
  | branch condition target => simp only [feasible, Constants.evaluate_congr h]
  | switch scrutinee cases default => simp only [feasible, h]
  | assign | invoke | goto | «return» | nop => rfl

/-- Detection depends on what is known of the variables after every statement, and on which of them are live. -/
theorem detect_congr (hconstants : ∀ (p : Fin g.size) v, (constants.outs.get p).get v = (constants'.outs.get p).get v)
    (hlive : ∀ (p : Fin g.size) v, v ∈ live.outs.get p ↔ v ∈ live'.outs.get p) :
    detect g constants live = detect g constants' live' := by
  have hsuccs : feasibleSuccs g constants = feasibleSuccs g constants' := by
    funext p
    simp only [feasibleSuccs, feasible_congr (hconstants p)]
  have hcontains : ∀ (p : Fin g.size) v, (live.outs.get p).contains v = (live'.outs.get p).contains v := by
    intro p v
    rw [Bool.eq_iff_iff, VarSet.contains_iff, VarSet.contains_iff]
    exact hlive p v
  have huseless : ∀ (p : Fin g.size) s, isUseless s (live.outs.get p) = isUseless s (live'.outs.get p) := by
    intro p s
    cases s with
    | assign target value => simp only [isUseless, hcontains]
    | invoke | branch | goto | switch | «return» | nop => rfl
  simp only [detect, reachable, hsuccs, reason?, huseless]

end DeadCode

namespace Journalled

theorem outcome_bind_eq_ok {ε α β : Type} {x : Journalled ε α} {f : α → Journalled ε β} {b : β} :
    (x >>= f).outcome = .ok b ↔ ∃ a, x.outcome = .ok a ∧ (f a).outcome = .ok b := by
  rw [outcome_bind]
  exact bind_ok_iff

end Journalled

namespace Pipeline

/-! ## What a run reports -/

theorem build_eq_ok {r : Routine} {g : Graph} (h : (build r).outcome = .ok g) : Graph.build r = .ok g := by
  obtain ⟨g', hg, h⟩ := Journalled.outcome_bind_eq_ok.1 h
  obtain ⟨-, -, h⟩ := Journalled.outcome_bind_eq_ok.1 h
  cases h
  exact mapError_ok_iff.1 hg

theorem solve_eq_ok {F : Type} {a : Analysis F} {g : Graph} {draft : Settings.Draft} {sol : Solution F g.size}
    (h : (solve a g draft).outcome = .ok sol) :
    ∃ settings, draft.check = .ok settings ∧ a.solve g settings = .ok sol := by
  obtain ⟨settings, hsettings, h⟩ := Journalled.outcome_bind_eq_ok.1 h
  obtain ⟨sol', hsol, h⟩ := Journalled.outcome_bind_eq_ok.1 h
  obtain ⟨-, -, h⟩ := Journalled.outcome_bind_eq_ok.1 h
  cases h
  exact ⟨settings, mapError_ok_iff.1 hsettings, mapError_ok_iff.1 hsol⟩

theorem detect_eq_ok {g : Graph} {constants : Facts Env g.size} {live : Facts VarSet g.size}
    {findings : List DeadCode.Finding} (h : (detect g constants live).outcome = .ok findings) :
    DeadCode.detect g constants live = .ok findings := by
  obtain ⟨findings', hfindings, h⟩ := Journalled.outcome_bind_eq_ok.1 h
  obtain ⟨-, -, h⟩ := Journalled.outcome_bind_eq_ok.1 h
  obtain ⟨-, -, h⟩ := Journalled.outcome_bind_eq_ok.1 h
  cases h
  exact mapError_ok_iff.1 hfindings

theorem run_eq_ok {r : Routine} {draft : Settings.Draft} {rep : Report} (h : (run r draft none).outcome = .ok rep) :
    ∃ g settings constants live dead, Graph.build r = .ok g ∧ draft.check = .ok settings ∧
      Constants.analysis.solve g settings = .ok constants ∧ Liveness.analysis.solve g settings = .ok live ∧
      DeadCode.detect g constants.toFacts live.toFacts = .ok dead ∧
      rep = ⟨g, Task.all, some constants, some live, some dead⟩ := by
  -- The tasks of a run, in their order.
  obtain ⟨ran, hran, h⟩ := Journalled.outcome_bind_eq_ok.1 h
  cases hran
  obtain ⟨g, hg, h⟩ := Journalled.outcome_bind_eq_ok.1 h
  obtain ⟨-, -, h⟩ := Journalled.outcome_bind_eq_ok.1 h
  obtain ⟨constants?, hconstants, h⟩ := Journalled.outcome_bind_eq_ok.1 h
  obtain ⟨live?, hlive, h⟩ := Journalled.outcome_bind_eq_ok.1 h
  obtain ⟨constants, hc, heq⟩ := Journalled.outcome_bind_eq_ok.1 hconstants
  cases heq
  obtain ⟨live, hl, heq⟩ := Journalled.outcome_bind_eq_ok.1 hlive
  cases heq
  obtain ⟨dead?, hdead, h⟩ := Journalled.outcome_bind_eq_ok.1 h
  cases h
  obtain ⟨dead, hd, heq⟩ := Journalled.outcome_bind_eq_ok.1 hdead
  cases heq
  -- Both analyses read the same draft.
  obtain ⟨settings, hsettings, hc⟩ := solve_eq_ok hc
  obtain ⟨settings', hsettings', hl⟩ := solve_eq_ok hl
  rw [hsettings] at hsettings'
  cases hsettings'
  exact ⟨g, settings, constants, live, dead, build_eq_ok hg, hsettings, hc, hl, detect_eq_ok hd, rfl⟩

/-! ## Reports that agree -/

/-- Two reports on one graph say the same of every variable before and after every node, and find the same dead
statements. -/
def Report.Agree (rep rep' : Report) : Prop :=
  ∃ (g : Graph) (c c' : Solution Env g.size) (l l' : Solution VarSet g.size) (dead : List DeadCode.Finding),
    rep = ⟨g, Task.all, some c, some l, some dead⟩ ∧ rep' = ⟨g, Task.all, some c', some l', some dead⟩ ∧
      (∀ (p : Fin g.size) v, (c.ins.get p).get v = (c'.ins.get p).get v ∧
        (c.outs.get p).get v = (c'.outs.get p).get v) ∧
      ∀ (p : Fin g.size) v, (v ∈ l.ins.get p ↔ v ∈ l'.ins.get p) ∧ (v ∈ l.outs.get p ↔ v ∈ l'.outs.get p)

theorem live_agree {g : Graph} (hg : g.Wired) {settings settings' : Settings} {l l' : Solution VarSet g.size}
    (h : Liveness.analysis.solve g settings = .ok l) (h' : Liveness.analysis.solve g settings' = .ok l')
    (p : Fin g.size) (v : Var) : (v ∈ l.ins.get p ↔ v ∈ l'.ins.get p) ∧ (v ∈ l.outs.get p ↔ v ∈ l'.outs.get p) := by
  have hsame := Analysis.same_of_solve hg Liveness.lawful ((Liveness.transfers g).computes Liveness.lawful)
    (fun _ _ hle => (Liveness.transfers g).monotone hle) h h' p
  have hmem : ∀ {s t : VarSet}, Liveness.analysis.Same s t → (v ∈ s ↔ v ∈ t) := by
    intro s t hst
    exact ⟨VarSet.subset_iff.1 hst.1 v, VarSet.subset_iff.1 hst.2 v⟩
  exact ⟨hmem hsame.1, hmem hsame.2⟩

theorem agree_of_not_combines {r : Routine} (hr : r.Fits) (hdiv : ¬ Constants.Combines r (.arith .div))
    (hrem : ¬ Constants.Combines r (.arith .rem)) {draft draft' : Settings.Draft} {rep rep' : Report}
    (h : (run r draft none).outcome = .ok rep) (h' : (run r draft' none).outcome = .ok rep') : rep.Agree rep' := by
  obtain ⟨g, settings, c, l, dead, hg, -, hc, hl, hdead, rfl⟩ := run_eq_ok h
  obtain ⟨g', settings', c', l', dead', hg', -, hc', hl', hdead', rfl⟩ := run_eq_ok h'
  rw [hg] at hg'
  cases hg'
  obtain ⟨hbuilt, rfl⟩ := Graph.built_build hg
  have hconstants : ∀ (p : Fin g.size) v, (c.ins.get p).get v = (c'.ins.get p).get v ∧
      (c.outs.get p).get v = (c'.outs.get p).get v := by
    intro p v
    obtain ⟨hins, houts⟩ := Analysis.same_of_solve hbuilt.wired Constants.lawful (Constants.computes hr)
      (Constants.monotone_after hdiv hrem) hc hc' p
    exact ⟨Constants.same_iff.1 hins v, Constants.same_iff.1 houts v⟩
  have hlive := live_agree hbuilt.wired hl hl'
  -- The dead statements follow from the facts that agree.
  have hsame := DeadCode.detect_congr (fun p v => (hconstants p v).2) (fun p v => (hlive p v).2)
  rw [hsame, hdead'] at hdead
  cases hdead
  exact ⟨g, c, c', l, l', dead, rfl, rfl, hconstants, hlive⟩

/-! ## Reports that do not -/

/-- What a report says of a variable before a node. -/
def Report.valueBefore? (rep : Report) (n : Node) (v : Var) : Option Value := do
  let constants ← rep.constants
  let p ← rep.graph.position? n
  return (constants.ins.get p).get v

theorem Report.Agree.valueBefore?_eq {rep rep' : Report} (h : rep.Agree rep') (n : Node) (v : Var) :
    rep.valueBefore? n v = rep'.valueBefore? n v := by
  obtain ⟨g, c, c', l, l', dead, rfl, rfl, hconstants, -⟩ := h
  change (g.position? n).bind (fun p => some ((c.ins.get p).get v)) =
    (g.position? n).bind fun p => some ((c'.ins.get p).get v)
  refine congrArg _ (funext fun p => ?_)
  rw [(hconstants p v).1]

/-- A loop that divides one variable by another, and that is entered in two ways. With a queue the quotient is known to
vary before the other way in makes the divisor zero; with a stack the divisor is zero first. -/
def detour (symbol : String) : String :=
  "param int a\nif (a == 0) goto S\nL: x = a " ++ symbol ++
    " b\nb = x\nif (a == 0) goto L\nreturn x\nS: b = 0\ngoto L"

theorem run_detour : ∀ op ∈ [ArithOp.div, ArithOp.rem],
    ((Reading.read (detour (BinOp.arith op).symbol)).toOption.bind fun r =>
      (run r {} none).outcome.toOption.bind fun rep =>
        (run r { strategy := .text "lifo" } none).outcome.toOption.map fun rep' =>
          (r.body.toList.all fun line => (Constants.combined? line.stmt).all (· = .arith op)) &&
            rep.valueBefore? (.stmt 1) { name := "b" } = some .nac &&
            rep'.valueBefore? (.stmt 1) { name := "b" } = some (.const 0)) = some true := by
  decide +kernel

theorem detour_ok {op : ArithOp} (hop : op ∈ [ArithOp.div, ArithOp.rem]) :
    ∃ r rep rep', Reading.read (detour (BinOp.arith op).symbol) = .ok r ∧ (run r {} none).outcome = .ok rep ∧
      (run r { strategy := .text "lifo" } none).outcome = .ok rep' ∧
      (∀ op', Constants.Combines r op' → op' = .arith op) ∧
      rep.valueBefore? (.stmt 1) { name := "b" } = some .nac ∧
      rep'.valueBefore? (.stmt 1) { name := "b" } = some (.const 0) ∧ ¬ rep.Agree rep' := by
  obtain ⟨r, hr, h⟩ := Option.bind_eq_some_iff.1 (run_detour op hop)
  obtain ⟨rep, hrep, h⟩ := Option.bind_eq_some_iff.1 h
  obtain ⟨rep', hrep', h⟩ := Option.map_eq_some_iff.1 h
  rw [toOption_eq_some] at hr hrep hrep'
  simp only [Bool.and_eq_true, decide_eq_true_eq, List.all_eq_true] at h
  obtain ⟨⟨hcombines, hfifo⟩, hlifo⟩ := h
  refine ⟨r, rep, rep', hr, hrep, hrep', ?_, hfifo, hlifo, ?_⟩
  · rintro op' ⟨line, hline, hop'⟩
    simpa [hop'] using hcombines line (Array.mem_toList_iff.2 hline)
  · intro hagree
    have hvalue := hagree.valueBefore?_eq (.stmt 1) { name := "b" }
    rw [hfifo, hlifo] at hvalue
    cases hvalue

/-- Settings show in reports because one variable may be divided by another: if the operations on two different
variables are confined to some operators, any two runs on a routine that come to an end agree exactly if neither of the
two that divide is among these operators. -/
theorem runs_agree_iff (ops : Set BinOp) :
    (∀ text name r draft draft' rep rep', Reading.read text name = .ok r →
      (∀ op, Constants.Combines r op → op ∈ ops) → (run r draft none).outcome = .ok rep →
      (run r draft' none).outcome = .ok rep' → rep.Agree rep') ↔
      .arith .div ∉ ops ∧ .arith .rem ∉ ops := by
  constructor
  · intro h
    have hnot : ∀ op ∈ [ArithOp.div, ArithOp.rem], .arith op ∉ ops := by
      intro op hop hmem
      obtain ⟨r, rep, rep', hr, hrep, hrep', hcombines, -, -, hdisagree⟩ := detour_ok hop
      exact hdisagree (h _ _ r _ _ rep rep' hr (fun op' hop' => hcombines op' hop' ▸ hmem) hrep hrep')
    exact ⟨hnot .div (by decide), hnot .rem (by decide)⟩
  · rintro ⟨hdiv, hrem⟩ text name r draft draft' rep rep' hr hops h h'
    exact agree_of_not_combines (Reading.fits_read hr) (fun hc => hdiv (hops _ hc)) (fun hc => hrem (hops _ hc)) h h'

/-- A queue and a stack that find different constants before one statement. -/
theorem detour_disagrees :
    ∃ r rep rep', Reading.read (detour "/") "main" = .ok r ∧
      (run r { strategy := .text "fifo" } none).outcome = .ok rep ∧
      (run r { strategy := .text "lifo" } none).outcome = .ok rep' ∧
      rep.valueBefore? (.stmt 1) { name := "b" } = some .nac ∧
      rep'.valueBefore? (.stmt 1) { name := "b" } = some (.const 0) ∧ ¬ rep.Agree rep' := by
  have hdiv : ArithOp.div ∈ [ArithOp.div, ArithOp.rem] := by decide
  obtain ⟨r, rep, rep', hr, hrep, hrep', -, hdisagree⟩ := detour_ok hdiv
  exact ⟨r, rep, rep', hr, hrep, hrep', hdisagree⟩

end Pipeline

end Dataflow
