import Dataflow.Analyses.Constants
import Dataflow.Proofs.Fact.Env
import Dataflow.Proofs.Routine.Fits
import Dataflow.Proofs.Solver.Solution
/-!
# Effects on constants of 32 bits

As long as all constants are integers of 32 bits, evaluation does not fail and gives such constants again. An
environment in range (`Constants.Ranged`) is one that a run can meet: it also knows nothing but variables that the
routine gives a value to. On these environments the transfer of constant propagation is the function `after`.
-/
namespace Dataflow

namespace Int32

theorem wrap_of_fits {n : Int} (h : Fits n) : wrap n = n := by
  obtain ⟨hlo, hhi⟩ := h
  unfold wrap
  exact Int.bmod_eq_of_le (by omega) (by omega)

theorem exists_fold {op : BinOp} {a b : Int} (h : op.divides = true → wrap b ≠ 0) :
    ∃ c, fold op a b = .ok c ∧ Fits c := by
  have happly : ∃ c, apply op (wrap a) (wrap b) = .ok c := by
    rcases op with op | op | op | op
    · cases op with
      | add | sub | mul => exact ⟨_, rfl⟩
      | div | rem => exact ⟨_, if_neg (h rfl)⟩
    · exact ⟨_, rfl⟩
    · exact ⟨_, rfl⟩
    · exact ⟨_, rfl⟩
  obtain ⟨c, hc⟩ := happly
  exact ⟨wrap c, by rw [fold, hc]; rfl, wrap_range c⟩

end Int32

theorem Stmt.eq_of_value? {τ : Type} {s : Stmt τ} {e : Expr} (h : s.value? = some e) :
    (∃ target, s = .assign target e) ∨ ∃ result, s = .invoke e result := by
  cases s with
  | assign target x =>
    cases h
    exact .inl ⟨target, rfl⟩
  | invoke call result =>
    cases h
    exact .inr ⟨result, rfl⟩
  | branch | goto | switch | «return» | nop => cases h

/-- A constant is an integer of 32 bits. -/
def Value.Fits : Value → Prop
  | .const n => Int32.Fits n
  | _ => True

/-- All constants of an environment are integers of 32 bits. -/
def Env.Fits (env : Env) : Prop := ∀ v, (env.get v).Fits

theorem Value.Fits.join {u v : Value} (hu : u.Fits) (hv : v.Fits) : (u.join v).Fits := by
  cases u with
  | undefined => rwa [Value.undefined_join]
  | nac => trivial
  | const m =>
    cases v with
    | undefined => exact hu
    | nac => trivial
    | const n =>
      change (if m = n then const m else nac).Fits
      split
      · exact hu
      · trivial

namespace Constants

/-! ## Evaluation -/

/-- The value of an expression; nothing is known where evaluation fails. -/
def value (env : Env) (e : Expr) : Value := (evaluate env e).toOption.getD .undefined

/-- The environment after a statement. -/
def after (s : Statement) (env : Env) : Env :=
  match definition? s with
  | some (v, e) => env.set v (value env e)
  | none => env

theorem exists_binary {op : BinOp} {a b : Value} (ha : a.Fits) (hb : b.Fits) :
    ∃ v, binary op a b = .ok v ∧ v.Fits := by
  unfold binary
  split
  · exact ⟨.undefined, rfl, trivial⟩
  next hzero =>
    split
    · exact ⟨.nac, rfl, trivial⟩
    · exact ⟨.nac, rfl, trivial⟩
    next m n =>
      -- Folding fails on a divisor that is zero in 32 bits, and in range that is zero itself.
      have hwrap : op.divides = true → Int32.wrap n ≠ 0 := by
        intro hdiv hn
        rw [Int32.wrap_of_fits hb] at hn
        simp [hdiv, hn] at hzero
      obtain ⟨c, hc, hfits⟩ := Int32.exists_fold (a := m) hwrap
      exact ⟨.const c, by rw [hc]; rfl, hfits⟩
    · exact ⟨.undefined, rfl, trivial⟩

/-- Evaluation does not fail, and no constant leaves the range. -/
theorem evaluate_eq {env : Env} {e : Expr} (henv : env.Fits) (he : ∀ n ∈ e.literals, Int32.Fits n) :
    evaluate env e = .ok (value env e) ∧ (value env e).Fits := by
  have hoperand : ∀ o : Operand, (∀ n ∈ o.literals, Int32.Fits n) → (operand env o).Fits := by
    intro o ho
    cases o with
    | var v => exact henv v
    | literal n => exact ho n List.mem_cons_self
  have hevaluate : ∃ v, evaluate env e = .ok v ∧ v.Fits := by
    cases e with
    | operand o => exact ⟨operand env o, rfl, hoperand o he⟩
    | binary op l r =>
      exact exists_binary (hoperand l fun n hn => he n (List.mem_append_left _ hn))
        (hoperand r fun n hn => he n (List.mem_append_right _ hn))
    | negate | allocate | cast | field | staticField | element | call => exact ⟨.nac, rfl, trivial⟩
  obtain ⟨v, hv, hfits⟩ := hevaluate
  have hvalue : value env e = v := by rw [value, hv]; rfl
  rw [hvalue]
  exact ⟨hv, hfits⟩

/-- An expression means the same in equal environments. -/
theorem evaluate_congr {env env' : Env} (h : ∀ v, env.get v = env'.get v) (e : Expr) :
    evaluate env e = evaluate env' e := by
  have hoperand : ∀ o : Operand, operand env o = operand env' o := by
    intro o
    cases o with
    | var v => exact h v
    | literal n => rfl
  cases e with
  | operand o => simp only [evaluate, hoperand]
  | binary op l r => simp only [evaluate, hoperand]
  | negate | allocate | cast | field | staticField | element | call => rfl

/-- A statement does the same in equal environments. -/
theorem effect_congr {s : Statement} {env env' x : Env} (h : ∀ v, env.get v = env'.get v) (hx : effect s env = .ok x) :
    ∃ x', effect s env' = .ok x' ∧ ∀ v, x.get v = x'.get v := by
  unfold effect at hx ⊢
  cases hd : definition? s with
  | none =>
    rw [hd] at hx
    cases hx
    exact ⟨env', rfl, h⟩
  | some d =>
    simp only [hd] at hx ⊢
    obtain ⟨a, ha, rfl⟩ := map_ok_iff.1 hx
    rw [evaluate_congr h] at ha
    refine ⟨env'.set d.1 a, map_ok_iff.2 ⟨a, ha, rfl⟩, ?_⟩
    intro v
    rw [Env.get_set, Env.get_set, h v]

theorem get_after (s : Statement) (env : Env) (v : Var) :
    (after s env).get v =
      (definition? s).elim (env.get v) fun d => if d.1 = v then value env d.2 else env.get v := by
  unfold after
  cases hd : definition? s with
  | none => rfl
  | some d => exact Env.get_set _ _ _ _

theorem get_boundary (r : Routine) (v : Var) :
    (boundary r).get v = if v ∈ r.params ∧ v.holdsInt then .nac else .undefined := by
  -- The induction is over the parameters set so far, on any environment.
  have hfold : ∀ (vs : List Var) (env : Env),
      (vs.foldl (fun env v => env.set v .nac) env).get v = if v ∈ vs then .nac else env.get v := by
    intro vs
    induction vs with
    | nil => simp
    | cons w vs ih =>
      intro env
      rw [List.foldl_cons, ih, Env.get_set]
      by_cases hv : v ∈ vs
      · simp [hv]
      · simp [hv, eq_comm]
  rw [boundary, hfold]
  simp only [List.mem_filter, Env.get_empty]

/-! ## Environments in range -/

/-- A variable that holds an integer and that the routine gives a value to. -/
def Tracked (r : Routine) (v : Var) : Prop :=
  v.holdsInt = true ∧ (v ∈ r.params ∨ ∃ line ∈ r.body, line.stmt.defined? = some v)

/-- Nothing is known but of tracked variables, and all constants are integers of 32 bits. -/
structure Ranged (r : Routine) (env : Env) : Prop where
  tracked : ∀ v, env.get v ≠ .undefined → Tracked r v
  fits : ∀ v, (env.get v).Fits

variable {r : Routine} {env env' : Env} {s : Statement}

theorem ranged_empty (r : Routine) : Ranged r .empty := by
  constructor
  · intro v hv
    exact absurd (Env.get_empty v) hv
  · intro v
    rw [Env.get_empty]
    trivial

theorem ranged_boundary (r : Routine) : Ranged r (boundary r) := by
  constructor
  · intro v hv
    rw [get_boundary] at hv
    split at hv
    next h => exact ⟨h.2, .inl h.1⟩
    next => exact absurd rfl hv
  · intro v
    rw [get_boundary]
    split <;> trivial

theorem Ranged.mergeInto (h : Ranged r env) (h' : Ranged r env') : Ranged r (env.mergeInto env').1 := by
  constructor
  · intro v hv
    -- Known after the merge is what was known on either side.
    rw [Env.get_mergeInto] at hv
    by_cases henv : env.get v = .undefined
    · rw [henv, Value.undefined_join] at hv
      exact h'.tracked v hv
    · exact h.tracked v henv
  · intro v
    rw [Env.get_mergeInto]
    exact (h.fits v).join (h'.fits v)

theorem definition?_eq_some {v : Var} {e : Expr} (h : definition? s = some (v, e)) :
    s.defined? = some v ∧ s.value? = some e ∧ v.holdsInt = true := by
  unfold definition? at h
  split at h
  next w x hw hx =>
    split at h
    next hint =>
      cases h
      exact ⟨hw, hx, hint⟩
    next => cases h
  next => cases h

theorem literals_of_definition? {v : Var} {e : Expr} (h : definition? s = some (v, e)) : e.literals ⊆ s.literals := by
  obtain ⟨-, hvalue, -⟩ := definition?_eq_some h
  rcases Stmt.eq_of_value? hvalue with ⟨target, rfl⟩ | ⟨result, rfl⟩
  · exact List.subset_append_left _ _
  · exact List.Subset.refl _

theorem fits_after (henv : env.Fits) (hlit : ∀ n ∈ s.literals, Int32.Fits n) :
    effect s env = .ok (after s env) ∧ (after s env).Fits := by
  unfold effect Constants.after
  cases hd : definition? s with
  | none => exact ⟨rfl, henv⟩
  | some d =>
    obtain ⟨v, e⟩ := d
    obtain ⟨hevaluate, hfits⟩ := evaluate_eq henv fun n hn => hlit n (literals_of_definition? hd hn)
    refine ⟨by simp only [hevaluate]; rfl, ?_⟩
    intro w
    rw [Env.get_set]
    split
    · exact hfits
    · exact henv w

theorem Ranged.after (h : Ranged r env) (hs : ∀ v, s.defined? = some v → v.holdsInt = true → Tracked r v)
    (hlit : ∀ n ∈ s.literals, Int32.Fits n) : effect s env = .ok (after s env) ∧ Ranged r (after s env) := by
  obtain ⟨heffect, hfits⟩ := fits_after h.fits hlit
  refine ⟨heffect, ?_, hfits⟩
  intro w hw
  rw [get_after] at hw
  cases hd : definition? s with
  | none =>
    rw [hd] at hw
    exact h.tracked w hw
  | some d =>
    obtain ⟨hdefined, -, hint⟩ := definition?_eq_some hd
    simp only [hd, Option.elim] at hw
    split at hw
    next hvw => exact hvw ▸ hs d.1 hdefined hint
    next => exact h.tracked w hw

end Constants

end Dataflow
