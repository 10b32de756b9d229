import Dataflow.Analyses.Liveness
import Dataflow.Proofs.Fact.VarSet
import Dataflow.Proofs.Solver.Solution
/-!
# The order of live variables

Sets of variables are ordered by inclusion, merging is union, and the effect of every statement is monotone.
-/
namespace Dataflow.Liveness

theorem mem_effect {s : Statement} {after : VarSet} {v : Var} :
    v ∈ effect s after ↔ v ∈ s.uses ∨ (v ∈ after ∧ s.defined? ≠ some v) := by
  rw [effect, VarSet.mem_foldl_insert, or_comm]
  cases s.defined? with
  | none => simp
  | some w => simp [eq_comm]

theorem effect_mono {s : Statement} {x y : VarSet} (h : x.subset y = true) :
    (effect s x).subset (effect s y) = true := by
  rw [VarSet.subset_iff] at h ⊢
  intro v hv
  rw [mem_effect] at hv ⊢
  exact hv.imp_right fun hx => ⟨h v hx.1, hx.2⟩

theorem lawful : analysis.Lawful where
  le_refl := VarSet.subset_refl
  le_trans := VarSet.subset_trans
  initial_le x := VarSet.subset_iff.2 fun v hv => absurd hv (VarSet.not_mem_empty v)
  merge_le_iff := by
    intro x y z
    change (y.union x).subset z = true ↔ _
    rw [VarSet.union_subset_iff, and_comm]
    rfl

theorem transfers (g : Graph) : analysis.Transfers g fun p => effect (g.point p).stmt where
  monotone := effect_mono
  transfer := by
    intro p x y z changed h
    have hreplace : y.replace (effect (g.point p).stmt x) = (z, changed) := Except.ok.inj h
    have hspec := VarSet.replace_spec y (effect (g.point p).stmt x)
    rw [hreplace] at hspec
    exact ⟨VarSet.same_iff.1 hspec.1, hspec.2.trans (not_congr VarSet.same_iff)⟩

end Dataflow.Liveness
