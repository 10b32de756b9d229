import Dataflow.Proofs.Fold
import Dataflow.Proofs.Routine.Fits
/-!
# What has a text

An expression has a text exactly if none of its literals has too many digits, and a statement exactly if, besides, it is
no switch with an arm that lacks its target (`Stmt.exists_text_iff`).
-/
namespace Dataflow

theorem Decimal.exists_shown_iff {n : Int} : (∃ t, shown n = .ok t) ↔ Short n := by
  unfold shown
  split <;> simp [*]

/-- An integer of 32 bits has at most ten digits. -/
theorem Int32.Fits.short {n : Int} (h : Int32.Fits n) : Decimal.Short n := by
  have hdigits : (Decimal.digits n.natAbs).length ≤ 10 := by
    obtain ⟨hlow, hhigh⟩ := h
    exact (Decimal.length_digits_le_iff (by decide)).2 (show n.natAbs < 10000000000 by omega)
  exact Nat.le_trans hdigits (by decide)

theorem Operand.exists_text_iff {o : Operand} : (∃ t, o.text = .ok t) ↔ ∀ n ∈ o.literals, Decimal.Short n := by
  cases o with
  | var v => exact iff_of_true ⟨_, rfl⟩ (by simp [literals])
  | literal n => rw [text, Decimal.exists_shown_iff, literals, List.forall_mem_singleton]

theorem Expr.exists_text_iff {e : Expr} : (∃ t, e.text = .ok t) ↔ ∀ n ∈ e.literals, Decimal.Short n := by
  cases e with
  | operand o => exact Operand.exists_text_iff
  | binary op l r =>
    rw [text, exists_bind_iff fun _ => exists_bind_return_iff, Operand.exists_text_iff, Operand.exists_text_iff,
      literals, List.forall_mem_append]
  | cast type o => exact exists_bind_return_iff.trans Operand.exists_text_iff
  | element array index => exact exists_bind_return_iff.trans Operand.exists_text_iff
  | call method args =>
    rw [text, exists_bind_return_iff, exists_mapM_iff, literals, List.forall_mem_flatMap]
    exact forall₂_congr fun _ _ => Operand.exists_text_iff
  | negate | allocate | field | staticField => exact iff_of_true ⟨_, rfl⟩ (by simp [literals])

namespace Stmt

/-- A switch with an arm that lacks its target. -/
def LacksArm {τ : Type} (s : Stmt τ) : Prop :=
  ∃ scrutinee cases default n, s = .switch scrutinee cases default ∧ (n, none) ∈ cases

theorem exists_arm_iff {a : Int × Option Target} : (∃ t, arm a = .ok t) ↔ a.2 ≠ none ∧ Decimal.Short a.1 := by
  obtain ⟨n, target⟩ := a
  cases target with
  | none =>
    refine iff_of_false ?_ fun h => h.1 rfl
    rintro ⟨t, ht⟩
    obtain ⟨_, -, hmissing⟩ := bind_ok_iff.1 ht
    cases hmissing
  | some t =>
    have harm : (∃ t', arm (n, some t) = .ok t') ↔ ∃ t', Decimal.shown n = .ok t' := exists_bind_return_iff
    rw [harm, Decimal.exists_shown_iff]
    exact (and_iff_right nofun).symm

theorem lacksArm_switch_iff {scrutinee : Var} {cases : List (Int × Option Target)} {default : Option Target} :
    (switch scrutinee cases default).LacksArm ↔ ∃ a ∈ cases, a.2 = none := by
  constructor
  · rintro ⟨_, _, _, n, ⟨⟩, hmem⟩
    exact ⟨(n, none), hmem, rfl⟩
  · rintro ⟨⟨n, _⟩, hmem, rfl⟩
    exact ⟨scrutinee, cases, default, n, rfl, hmem⟩

theorem exists_text_iff {s : Statement} :
    (∃ t, s.text = .ok t) ↔ ¬ s.LacksArm ∧ ∀ n ∈ s.literals, Decimal.Short n := by
  cases s with
  | switch scrutinee cases default =>
    have htext : (∃ t, (switch scrutinee cases default).text = .ok t) ↔ ∃ ts, cases.mapM arm = .ok ts :=
      exists_bind_return_iff
    rw [htext, exists_mapM_iff, lacksArm_switch_iff, literals, List.forall_mem_map]
    simp only [exists_arm_iff, not_exists, not_and, forall_and]
  | assign target value =>
    rw [and_iff_right (by simp [LacksArm]), text, exists_bind_iff fun _ => exists_bind_return_iff,
      Expr.exists_text_iff, Expr.exists_text_iff, literals, List.forall_mem_append, and_comm]
  | invoke call result =>
    have htext : (∃ t, (invoke (τ := Target) call result).text = .ok t) ↔ ∃ t, call.text = .ok t := by
      cases result with
      | none => exact Iff.rfl
      | some v => exact exists_bind_return_iff
    rw [and_iff_right (by simp [LacksArm]), htext]
    exact Expr.exists_text_iff
  | branch condition target =>
    rw [and_iff_right (by simp [LacksArm])]
    exact exists_bind_return_iff.trans Expr.exists_text_iff
  | «return» value =>
    rw [and_iff_right (by simp [LacksArm])]
    cases value with
    | none => exact iff_of_true ⟨_, rfl⟩ (by simp [literals])
    | some o => exact exists_bind_return_iff.trans Operand.exists_text_iff
  | goto | nop => exact iff_of_true ⟨_, rfl⟩ (by simp [LacksArm, literals])

end Stmt

end Dataflow
