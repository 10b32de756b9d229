import Dataflow.Proofs.Reading.Read
/-!
# Labels of a form and targets of its statement

A form gives a statement over its own labels (`jumps_of_form`), and a target takes the place of each of them later on
(`Jumps.mapTargets`). `Jumps` relates the two, whatever a label stands for.
-/
namespace Dataflow.Reading

/-- Declarations give no statement. -/
def Form.isStatement : Form → Bool
  | param .. | declare .. => false
  | _ => true

/-- An arm of a switch is for the number that is written, and goes where its label does. -/
def ArmGoes {τ : Type} (goes : String → τ → Prop) (arm : Numeral × String) (c : Int × Option τ) : Prop :=
  c.1 = arm.1.value ∧ ∃ t, c.2 = some t ∧ goes arm.2 t

/-- A statement is what a form says: of the same kind, with a target for every label, in order. -/
inductive Jumps {τ : Type} (goes : String → τ → Prop) : Form → Stmt τ → Prop
  | branch {left : Atom} {op : CompareOp} {right : Atom} {label : String} {condition : Expr} {t : τ} :
      goes label t → Jumps goes (.branch left op right label) (.branch condition (some t))
  | goto {label : String} {t : τ} : goes label t → Jumps goes (.goto label) (.goto (some t))
  | switch {name : String} {arms : List (Numeral × String)} {default : Option String} {scrutinee : Var}
      {cases : List (Int × Option τ)} {last : Option τ} :
      List.Forall₂ (ArmGoes goes) arms cases →
      Option.Rel goes default last → Jumps goes (.switch name arms default) (.switch scrutinee cases last)
  | return {atom : Option Atom} {value : Option Operand} : Jumps goes (.return atom) (.return value)
  | nop : Jumps goes .nop .nop
  | invoke {name : Option String} {method : String} {args : List Atom} {call : Expr} {result : Option Var} :
      Jumps goes (.invoke name method args) (.invoke call result)
  | assign {place : Place} {source : Source} {target value : Expr} :
      Jumps goes (.assign place source) (.assign target value)

variable {line : Nat}

/-! ## The statement of a form -/

theorem forall₂_of_run_mapM {α β : Type} {f : α → Scoped β} {R : α → β → Prop}
    (step : ∀ {a s b s'}, (f a).run s = .ok (b, s') → R a b) {s s' : Scope} {as : List α} {bs : List β}
    (h : (as.mapM f).run s = .ok (bs, s')) : List.Forall₂ R as bs := by
  induction as generalizing s bs with
  | nil =>
    rw [List.mapM_nil] at h
    cases h
    exact .nil
  | cons a as ih =>
    rw [List.mapM_cons] at h
    obtain ⟨b, s₁, ha, h⟩ := run_bind_ok h
    obtain ⟨bs', s₂, has, h⟩ := run_bind_ok h
    cases h
    exact .cons (step ha) (ih has)

/-- A form gives a statement of its kind over its own labels, and a declaration gives none. -/
theorem jumps_of_form {form : Form} {stmt : Option (Stmt String)} {s s' : Scope}
    (h : (form.read line).run s = .ok (stmt, s')) :
    (stmt = none ∧ form.isStatement = false) ∨ ∃ x, stmt = some x ∧ form.isStatement = true ∧ Jumps Eq form x := by
  cases Form.reads_of_run h with
  | param | declare => exact .inl ⟨rfl, rfl⟩
  | branch => exact .inr ⟨_, rfl, rfl, .branch rfl⟩
  | goto => exact .inr ⟨_, rfl, rfl, .goto rfl⟩
  | @switch scrutinee arms default =>
    refine .inr ⟨_, rfl, rfl, .switch ?_ ?_⟩
    · exact List.forall₂_map_right_iff.2 (List.forall₂_same.2 fun arm _ => ⟨rfl, arm.2, rfl, rfl⟩)
    · cases default with
      | none => exact .none
      | some label => exact .some rfl
  | leave | «return» => exact .inr ⟨_, rfl, rfl, .return⟩
  | nop => exact .inr ⟨_, rfl, rfl, .nop⟩
  | call | invoke => exact .inr ⟨_, rfl, rfl, .invoke⟩
  | assign => exact .inr ⟨_, rfl, rfl, .assign⟩

theorem forall₂_mapM_arms {τ υ ε : Type} {goes : String → τ → Prop} {goes' : String → υ → Prop} {f : τ → Except ε υ}
    (hf : ∀ label t u, goes label t → f t = .ok u → goes' label u) {arms : List (Numeral × String)}
    {cases : List (Int × Option τ)} {cases' : List (Int × Option υ)}
    (h : List.Forall₂ (ArmGoes goes) arms cases)
    (hmap : cases.mapM (fun (n, target) => return (n, ← target.mapM f)) = .ok cases') :
    List.Forall₂ (ArmGoes goes') arms cases' := by
  induction h generalizing cases' with
  | nil =>
    cases hmap
    exact .nil
  | cons hc _ ih =>
    rw [List.mapM_cons] at hmap
    obtain ⟨c', hc', hmap⟩ := bind_ok_iff.1 hmap
    obtain ⟨rest, hrest, hmap⟩ := bind_ok_iff.1 hmap
    cases hmap
    refine .cons ?_ (ih hrest)
    obtain ⟨hn, t, ht, hgoes⟩ := hc
    obtain ⟨target, htarget, heq⟩ := bind_ok_iff.1 hc'
    cases heq
    rw [ht] at htarget
    obtain ⟨u, hu, heq⟩ := bind_ok_iff.1 htarget
    cases heq
    exact ⟨hn, u, rfl, hf _ _ _ hgoes hu⟩

/-- Other targets in the places of the old ones. -/
theorem Jumps.mapTargets {τ υ ε : Type} {goes : String → τ → Prop} {goes' : String → υ → Prop} {f : τ → Except ε υ}
    (hf : ∀ label t u, goes label t → f t = .ok u → goes' label u) {form : Form} {x : Stmt τ} {y : Stmt υ}
    (h : Jumps goes form x) (hy : x.mapTargets f = .ok y) : Jumps goes' form y := by
  cases h with
  | branch hgoes =>
    obtain ⟨target, htarget, hy⟩ := bind_ok_iff.1 hy
    obtain ⟨u, hu, heq⟩ := bind_ok_iff.1 htarget
    cases heq
    cases hy
    exact .branch (hf _ _ _ hgoes hu)
  | goto hgoes =>
    obtain ⟨target, htarget, hy⟩ := bind_ok_iff.1 hy
    obtain ⟨u, hu, heq⟩ := bind_ok_iff.1 htarget
    cases heq
    cases hy
    exact .goto (hf _ _ _ hgoes hu)
  | switch harms hdefault =>
    obtain ⟨cases', hcases, hy⟩ := bind_ok_iff.1 hy
    obtain ⟨last, hlast, hy⟩ := bind_ok_iff.1 hy
    cases hy
    refine .switch (forall₂_mapM_arms hf harms hcases) ?_
    cases hdefault with
    | none =>
      cases hlast
      exact .none
    | some hgoes =>
      obtain ⟨u, hu, heq⟩ := bind_ok_iff.1 hlast
      cases heq
      exact .some (hf _ _ _ hgoes hu)
  | «return» =>
    cases hy
    exact .return
  | nop =>
    cases hy
    exact .nop
  | invoke =>
    cases hy
    exact .invoke
  | assign =>
    cases hy
    exact .assign

end Dataflow.Reading
