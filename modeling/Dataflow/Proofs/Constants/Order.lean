import Dataflow.Proofs.Constants.Effect
import Dataflow.Proofs.Solver.Visits
import Mathlib.Algebra.Order.BigOperators.Group.List
/-!
# The order of environments in range

Constant propagation works on environments in range, and never leaves them. These have a height: every variable that
holds an integer can rise twice, to a constant and to one that may vary.
-/
namespace Dataflow

/-- How often a value has risen. -/
def Value.rank : Value → Nat
  | .undefined => 0
  | .const _ => 1
  | .nac => 2

namespace Value

variable {u v : Value}

theorem rank_le (v : Value) : v.rank ≤ 2 := by cases v <;> simp [rank]

theorem rank_mono (h : u.le v = true) : u.rank ≤ v.rank := by
  cases u <;> cases v <;> simp_all [le, rank]

theorem rank_lt (h : u.le v = true) (hne : ¬ v.le u = true) : u.rank < v.rank := by
  cases u <;> cases v <;> simp_all [le, rank]

end Value

namespace Constants

variable {r : Routine} {g : Graph} {x y : Env} {v : Var}

/-- The variables that hold an integer. -/
def intVars (r : Routine) : List Var := r.vars.filter Var.holdsInt

/-- The sum of the ranks of all that is known. -/
def height (r : Routine) (env : Env) : Nat := ((intVars r).map fun v => (env.get v).rank).sum

theorem Tracked.mem_intVars (h : Tracked r v) (hr : r.Fits) : v ∈ intVars r := by
  obtain ⟨hint, hparam | ⟨line, hline, hdefined⟩⟩ := h
  · exact List.mem_filter.2 ⟨hr.params hparam, hint⟩
  · refine List.mem_filter.2 ⟨(hr.body line hline).vars (List.mem_append_left _ ?_), hint⟩
    rw [hdefined]
    exact List.mem_cons_self

theorem height_le (r : Routine) (env : Env) : height r env ≤ 2 * (intVars r).length := by
  have hsum := List.sum_le_card_nsmul ((intVars r).map fun v => (env.get v).rank) 2 fun n hn => by
    obtain ⟨v, -, rfl⟩ := List.mem_map.1 hn
    exact Value.rank_le _
  rw [List.length_map, smul_eq_mul] at hsum
  rw [Nat.mul_comm]
  exact hsum

theorem height_mono (h : x.le y = true) : height r x ≤ height r y :=
  List.sum_le_sum fun v _ => Value.rank_mono (Env.le_iff.1 h v)

theorem height_lt (hr : r.Fits) (hy : Ranged r y) (h : x.le y = true) (hne : ¬ y.le x = true) :
    height r x < height r y := by
  rw [Env.le_iff, not_forall] at hne
  obtain ⟨v, hv⟩ := hne
  have hknown : y.get v ≠ .undefined := fun hu => hv (by rw [hu]; exact Value.undefined_le _)
  have hmem : v ∈ intVars r := (hy.tracked v hknown).mem_intVars hr
  refine List.sum_lt_sum _ _ (fun w _ => Value.rank_mono (Env.le_iff.1 h w)) ⟨v, hmem, ?_⟩
  exact Value.rank_lt (Env.le_iff.1 h v) hv

/-! ## The system of equations -/

theorem lawful : analysis.Lawful where
  le_refl := Env.le_refl
  le_trans := Env.le_trans
  initial_le _ := Env.le_iff.2 fun _ => Value.undefined_le _
  merge_le_iff := Env.mergeInto_le_iff

theorem same_iff : analysis.Same x y ↔ ∀ v, x.get v = y.get v := Env.le_antisymm_iff

theorem effect_eq (hg : g.routine.Fits) (p : Fin g.size) (hx : Ranged g.routine x) :
    effect (g.point p).stmt x = .ok (after (g.point p).stmt x) ∧ Ranged g.routine (after (g.point p).stmt x) := by
  refine hx.after (fun v hv hint => ⟨hint, .inr ?_⟩) (hg.point p).literals
  obtain ⟨line, hline, heq⟩ := g.exists_line_of_defined? hv
  exact ⟨line, hline, heq ▸ hv⟩

/-- On environments in range the transfers compute `after`. -/
theorem computes (hg : g.routine.Fits) :
    (analysis.equations g).Computes (Ranged g.routine) analysis.Same fun p => after (g.point p).stmt where
  equivalence := (lawful.ordered g).equivalence
  boundary := ranged_boundary g.routine
  initial := ranged_empty g.routine
  merge hx hy := hx.mergeInto hy
  merge_same := (lawful.ordered g).merge_same
  transfer := by
    intro p x y z changed hx hy h
    obtain ⟨heffect, hafter⟩ := effect_eq hg p hx
    have hreplace : y.replace (after (g.point p).stmt x) = (z, changed) := by
      change (effect (g.point p).stmt x).map y.replace = .ok (z, changed) at h
      rw [heffect] at h
      exact Except.ok.inj h
    have hspec := Env.replace_spec y (after (g.point p).stmt x)
    rw [hreplace] at hspec
    refine ⟨?_, same_iff.2 hspec.1, hspec.2.trans (not_congr same_iff.symm)⟩
    -- What is kept is one of the two.
    unfold Env.replace at hreplace
    split at hreplace
    · cases hreplace
      exact hy
    · cases hreplace
      exact hafter

theorem climbs (hg : g.routine.Fits) :
    (analysis.equations g).Climbs (Ranged g.routine) (fun x y => analysis.le x y = true) (height g.routine)
      (2 * (intVars g.routine).length) where
  height_le _ := height_le _ _
  height_mono _ _ h := height_mono h
  height_lt _ hy h hne := height_lt hg hy h hne
  total := by
    intro p x y hx _
    obtain ⟨heffect, -⟩ := effect_eq hg p hx
    refine ⟨y.replace (after (g.point p).stmt x), ?_⟩
    change (effect (g.point p).stmt x).map y.replace = .ok (y.replace (after (g.point p).stmt x))
    rw [heffect]
    rfl

end Constants

end Dataflow
