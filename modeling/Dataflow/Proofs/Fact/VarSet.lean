import Dataflow.Fact.VarSet
import Mathlib.Data.List.Perm.Subperm
/-!
# Sets of variables compared

Sets are compared by size and inclusion in one direction; that is enough to tell them apart. So a set within another
is smaller than that, unless both are the same.
-/
namespace Dataflow.VarSet

variable {s t u : VarSet}

theorem same_iff : s.same t = true ↔ s.subset t = true ∧ t.subset s = true := by
  simp only [same, Bool.and_eq_true, decide_eq_true_eq, subset_iff, mem_members]
  constructor
  · rintro ⟨hsize, hst⟩
    have hperm : s.members.Perm t.members :=
      (s.distinct.subperm fun v hv => hst v hv).perm_of_length_le (Nat.le_of_eq hsize.symm)
    exact ⟨hst, fun v hv => hperm.symm.subset hv⟩
  · rintro ⟨hst, hts⟩
    exact ⟨((List.perm_ext_iff_of_nodup s.distinct t.distinct).2 fun v => ⟨hst v, hts v⟩).length_eq, hst⟩

theorem same_iff_mem : s.same t = true ↔ ∀ v, v ∈ s ↔ v ∈ t := by
  rw [same_iff, subset_iff, subset_iff]
  exact ⟨fun h v => ⟨h.1 v, h.2 v⟩, fun h => ⟨fun v => (h v).1, fun v => (h v).2⟩⟩

theorem subset_refl (s : VarSet) : s.subset s = true := subset_iff.2 fun _ hv => hv

theorem subset_trans (h : s.subset t = true) (h' : t.subset u = true) : s.subset u = true :=
  subset_iff.2 fun v hv => subset_iff.1 h' v (subset_iff.1 h v hv)

theorem size_le (h : s.subset t = true) : s.size ≤ t.size :=
  (s.distinct.subperm fun v hv => subset_iff.1 h v hv).length_le

theorem size_lt (h : s.subset t = true) (hne : ¬ t.subset s = true) : s.size < t.size := by
  refine Nat.lt_of_le_of_ne (size_le h) ?_
  intro hsize
  have hsame : s.same t = true := by simp only [same, hsize, h, decide_true, Bool.and_true]
  exact hne (same_iff.1 hsame).2

theorem union_subset_iff : (s.union t).subset u = true ↔ s.subset u = true ∧ t.subset u = true := by
  simp only [subset_iff, mem_union, or_imp, forall_and]

/-- Taking over a set leaves that set, and counts as a change exactly if it was another one. -/
theorem replace_spec (target source : VarSet) :
    (target.replace source).1.same source = true ∧
      ((target.replace source).2 = true ↔ ¬ (target.replace source).1.same target = true) := by
  unfold replace
  split
  next h => exact ⟨h, by simp [same_iff, subset_refl]⟩
  next h =>
    refine ⟨by simp [same_iff, subset_refl], ?_⟩
    simp only [same_iff, true_iff] at h ⊢
    exact fun hc => h hc.symm

end Dataflow.VarSet
