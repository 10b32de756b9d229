import Dataflow.Graph.Build
import Dataflow.Proofs.Constants.Order
import Dataflow.Proofs.Graph.Search
import Dataflow.Proofs.Reading.Read
import Dataflow.Analyses.DeadCode
/-!
# What a run on constants records

On a routine that has been read every fact that a run records is in range, whatever the edges and the schedule, from the
start on and after every visit (`reaches_within`). A divisor that is known is then zero as a word only if it is zero
itself, so neither a run nor detection on its result ever divides by zero.
-/
namespace Dataflow.Constants

/-- An entry that a fact may hold: of a variable that holds an integer and that the routine gives a value to, with
something known of it, and no constant that takes more than 32 bits. -/
structure Entry (r : Routine) (v : Var) (x : Value) : Prop where
  tracked : Tracked r v
  known : x ≠ .undefined
  fits : ∀ c, x = .const c → -0x80000000 ≤ c ∧ c < 0x80000000

/-- Before and after every place, the facts hold such entries only. -/
def Recorded (g : Graph) (f : Facts Env g.size) : Prop :=
  ∀ p, (∀ e ∈ (f.ins.get p).entries, Entry g.routine e.1 e.2) ∧ ∀ e ∈ (f.outs.get p).entries, Entry g.routine e.1 e.2

variable {r : Routine} {g : Graph} {env : Env} {settings : Settings}

theorem Ranged.entry (h : Ranged r env) : ∀ e ∈ env.entries, Entry r e.1 e.2 := by
  intro e he
  have hget : env.get e.1 = e.2 := Env.get_of_mem he
  have hknown : e.2 ≠ .undefined := env.known e he
  refine ⟨h.tracked e.1 (hget ▸ hknown), hknown, fun c hc => ?_⟩
  have hfits := h.fits e.1
  rw [hget, hc] at hfits
  exact hfits

/-! ## Runs -/

/-- The facts of a state, of the start as of any later one, are in range. -/
theorem reaches_within (hr : g.routine.Fits) {s : Progress Env g.size}
    (h : (analysis.equations g).Reaches (analysis.begin g settings) s) :
    Equations.Flow.Within (Ranged g.routine) s.flow := by
  have hc := computes hr
  refine h.keeps (I := fun s => Equations.Flow.Within (Ranged g.routine) s.flow)
    (fun s p rest s' hs _ hadvance => ?_) ?_
  · obtain ⟨x, changed, htransfer, rfl⟩ := Equations.advance_eq_ok hadvance
    have hgather := Equations.gather_mem hc hs p
    exact hs.put hgather (hc.transfer hgather (hs.leaving p) htransfer).1
  · constructor
    · intro p
      change Ranged g.routine ((analysis.equations g).start.arriving.get p)
      rw [Equations.arriving_start]
      exact hc.initial
    · intro p
      change Ranged g.routine ((analysis.equations g).start.leaving.get p)
      rw [Equations.leaving_start]
      split
      · exact hc.boundary
      · exact hc.initial

theorem recorded_of_within {s : Progress Env g.size} (h : Equations.Flow.Within (Ranged g.routine) s.flow) :
    Recorded g (analysis.facts s.flow) :=
  fun p => ⟨(h.arriving p).entry, (h.leaving p).entry⟩

theorem exists_reaches_of_solve {sol : Solution Env g.size} (h : analysis.solve g settings = .ok sol) :
    ∃ s, (analysis.equations g).Reaches (analysis.begin g settings) s ∧ sol.toFacts = analysis.facts s.flow := by
  obtain ⟨s, hrun, hflow, -⟩ := Analysis.solve_eq_ok h
  exact ⟨s, (Equations.run_eq_ok hrun).1, by rw [← hflow]; rfl⟩

theorem solve_ne_effect (hr : g.routine.Fits) (e : EvalError) : analysis.solve g settings ≠ .error (.effect e) := by
  intro h
  obtain ⟨s, hreach, hout⟩ :=
    (analysis.equations g).run_outcome settings.maxVisits (analysis.begin g settings)
  have hwithin := reaches_within hr hreach
  unfold Analysis.solve at h
  rcases hout with ⟨hok, -⟩ | ⟨p, rest, -, ⟨-, herror⟩ | ⟨e', hadvance, -⟩⟩
  · simp [hok] at h
  · simp [herror] at h
  · exact (climbs hr).advance_ne_error (computes hr) hwithin hadvance

/-! ## Detection -/

/-- With facts in range no branch divides by zero. -/
theorem feasibleSuccs_ne_effect (hr : g.routine.Fits) {f : Facts Env g.size} (hf : ∀ p, (f.outs.get p).Fits)
    (p : Fin g.size) (e : EvalError) : DeadCode.feasibleSuccs g f p ≠ .error (.effect e) := by
  intro h
  have hfeasible : DeadCode.feasible (g.point p).index (g.point p).stmt (f.outs.get p) (g.outgoing.get p).toList =
      .error (.effect e) := by
    unfold DeadCode.feasibleSuccs at h
    cases hedges : DeadCode.feasible (g.point p).index (g.point p).stmt (f.outs.get p) (g.outgoing.get p).toList with
    | error err =>
      simp only [hedges, Except.map, Except.error.injEq] at h
      rw [h]
    | ok edges => simp [hedges, Except.map] at h
  have hliterals := (hr.point p).literals
  cases hs : (g.point p).stmt with
  | branch condition target =>
    rw [hs] at hliterals hfeasible
    obtain ⟨hevaluate, -⟩ := evaluate_eq (hf p) hliterals
    simp only [DeadCode.feasible, hevaluate] at hfeasible
    split at hfeasible <;> simp_all
  | switch scrutinee cases default =>
    simp only [hs, DeadCode.feasible] at hfeasible
    split at hfeasible
    · split at hfeasible <;> simp at hfeasible
    · simp at hfeasible
  | assign | invoke | goto | «return» | nop => simp [hs, DeadCode.feasible] at hfeasible

theorem detect_ne_effect (hr : g.routine.Fits) {f : Facts Env g.size} (hf : ∀ p, (f.outs.get p).Fits)
    (live : Facts VarSet g.size) (e : EvalError) : DeadCode.detect g f live ≠ .error (.effect e) := by
  intro h
  rcases bind_error_iff.1 h with hreachable | ⟨reached, -, hfindings⟩
  · obtain ⟨p, -, hsuccs⟩ := Graph.explore_eq_error_iff.1 hreachable
    exact feasibleSuccs_ne_effect hr hf p e hsuccs
  · simp [pure, Except.pure] at hfindings

/-- On any graph of a routine that has been read, the facts of every state of a run are in range, from the start on, and
so are those that it ends with. Neither the run nor detection on its result divides by zero. -/
theorem run_in_range {text name : String} (hread : Reading.read text name = .ok g.routine) (settings : Settings) :
    (∀ s, (analysis.equations g).Reaches (analysis.begin g settings) s → Recorded g (analysis.facts s.flow)) ∧
      analysis.solve g settings ≠ .error (.effect .divisionByZero) ∧
      ∀ sol, analysis.solve g settings = .ok sol → Recorded g sol.toFacts ∧
        ∀ live, DeadCode.detect g sol.toFacts live ≠ .error (.effect .divisionByZero) := by
  have hr := Reading.fits_read hread
  refine ⟨fun s hs => recorded_of_within (reaches_within hr hs), solve_ne_effect hr _, fun sol hsol => ?_⟩
  obtain ⟨s, hs, hfacts⟩ := exists_reaches_of_solve hsol
  have hwithin := reaches_within hr hs
  have hfits : ∀ p, ((analysis.facts s.flow).outs.get p).Fits := fun p => (hwithin.leaving p).fits
  rw [hfacts]
  exact ⟨recorded_of_within hwithin, fun live => detect_ne_effect hr hfits live _⟩

/-- Divides the least integer by minus one, and then by what has become zero. -/
def dividing : String :=
  "param int a\nlong p\nx = -2147483648\nL: y = x / -1\np = y * 2\nx = y - y\nz = a % x\nif (z == 0) goto L\nreturn z"

theorem run_in_range_dividing :
    ∃ r g sol, Reading.read dividing = .ok r ∧ Graph.build r = .ok g ∧
      analysis.solve g { strategy := .lifo } = .ok sol ∧ Recorded g sol.toFacts ∧
      ∀ live, DeadCode.detect g sol.toFacts live ≠ .error (.effect .divisionByZero) := by
  have hrun : ((Reading.read dividing).toOption.bind fun r => (Graph.build r).toOption.bind fun g =>
      (analysis.solve g { strategy := .lifo }).toOption.map fun _ => ()).isSome = true := by
    decide +kernel
  obtain ⟨u, hu⟩ := Option.isSome_iff_exists.1 hrun
  obtain ⟨r, hr, hu⟩ := Option.bind_eq_some_iff.1 hu
  obtain ⟨g, hg, hu⟩ := Option.bind_eq_some_iff.1 hu
  obtain ⟨sol, hsol, -⟩ := Option.map_eq_some_iff.1 hu
  rw [toOption_eq_some] at hr hg hsol
  obtain ⟨-, rfl⟩ := Graph.built_build hg
  obtain ⟨-, -, hresult⟩ := run_in_range hr { strategy := .lifo }
  obtain ⟨hrecorded, hdetect⟩ := hresult sol hsol
  exact ⟨g.routine, g, sol, hr, hg, hsol, hrecorded, hdetect⟩

end Dataflow.Constants
