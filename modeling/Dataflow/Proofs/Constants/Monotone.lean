import Dataflow.Proofs.Constants.Order
/-!
# Where constant propagation is monotone

An operation is monotone in what is known of its operands, with one exception: of a dividend that may vary and a
divisor of which nothing is known a quotient may vary, but once the divisor becomes known to be zero nothing is known
of the quotient. That takes two different variables, so a routine that divides no variable by another has monotone
effects only.
-/
namespace Dataflow

theorem BinOp.divides_iff {op : BinOp} : op.divides = true ↔ op = .arith .div ∨ op = .arith .rem := by
  rcases op with op | op | op | op <;> cases op <;> simp [divides]

theorem Value.le_cases {u v : Value} (h : u.le v = true) : u = .undefined ∨ v = .nac ∨ u = v := by
  cases u <;> cases v <;> simp_all [le]

theorem Value.le_nac (v : Value) : v.le nac = true := by cases v <;> rfl

namespace Constants

variable {op : BinOp} {a a' b b' : Value}

/-- An operation on two values; nothing is known where it fails. -/
def combine (op : BinOp) (a b : Value) : Value := (binary op a b).toOption.getD .undefined

theorem value_binary (env : Env) (op : BinOp) (l r : Operand) :
    value env (.binary op l r) = combine op (operand env l) (operand env r) := rfl

/-! ## Operations -/

theorem combine_zero (h : op.divides = true) (a : Value) : combine op a (.const 0) = .undefined := by
  simp [combine, binary, h, Except.toOption]

theorem combine_nac (hzero : ¬ (op.divides = true ∧ b = .const 0)) (h : a = .nac ∨ b = .nac) :
    combine op a b = .nac := by
  unfold combine binary
  split
  next hguard => exact absurd (by simpa using hguard) hzero
  next =>
    rcases h with rfl | rfl
    · rfl
    · cases a <;> rfl

theorem combine_undefined (ha : a ≠ .nac) (hb : b ≠ .nac) (h : a = .undefined ∨ b = .undefined) :
    combine op a b = .undefined := by
  unfold combine binary
  split
  · rfl
  · rcases h with rfl | rfl
    · cases b with
      | nac => exact absurd rfl hb
      | undefined | const => rfl
    · cases a with
      | nac => exact absurd rfl ha
      | undefined | const => rfl

/-- Operations keep the order, but for a dividend that may vary whose divisor turns out to be zero. -/
theorem combine_mono (ha : a.le a' = true) (hb : b.le b' = true)
    (h : op.divides = true → a = .nac → b = .undefined → b' ≠ .const 0) :
    (combine op a b).le (combine op a' b') = true := by
  by_cases hzero : op.divides = true ∧ b' = .const 0
  · -- Above nothing is known, so below nothing may be known: the divisor is the same zero, or nothing is known of it.
    obtain ⟨hdiv, rfl⟩ := hzero
    rw [combine_zero hdiv, Value.le_undefined]
    rcases Value.le_cases hb with rfl | hnac | rfl
    · have hna : a ≠ .nac := fun hna => h hdiv hna rfl rfl
      exact combine_undefined hna (fun hnac => nomatch hnac) (.inr rfl)
    · cases hnac
    · exact combine_zero hdiv a
  · by_cases htop : a' = .nac ∨ b' = .nac
    · rw [combine_nac hzero htop]
      exact Value.le_nac _
    · -- No operand varies: what is known of both is the same on either side, or one is unknown below.
      obtain ⟨hna', hnb'⟩ := not_or.1 htop
      have hna : a ≠ .nac := fun hna => hna' (by rcases Value.le_cases ha with hu | hn | heq <;> simp_all)
      have hnb : b ≠ .nac := fun hnb => hnb' (by rcases Value.le_cases hb with hu | hn | heq <;> simp_all)
      rcases Value.le_cases ha with hua | hn | heqa
      · rw [combine_undefined hna hnb (.inl hua)]
        exact Value.undefined_le _
      · exact absurd hn hna'
      · rcases Value.le_cases hb with hub | hn | heqb
        · rw [combine_undefined hna hnb (.inr hub)]
          exact Value.undefined_le _
        · exact absurd hn hnb'
        · rw [heqa, heqb]
          exact Value.le_refl _

/-! ## Effects -/

/-- The operator by which a statement gives a variable that holds an integer the result of an operation on two different
such variables. -/
def combined? (s : Statement) : Option BinOp :=
  match definition? s with
  | some (_, .binary op (.var u) (.var w)) => if u ≠ w ∧ u.holdsInt ∧ w.holdsInt then some op else none
  | _ => none

/-- Some statement of the routine combines two variables by an operator. -/
def Combines (r : Routine) (op : BinOp) : Prop := ∃ line ∈ r.body, combined? line.stmt = some op

variable {r : Routine} {g : Graph} {x y : Env}

/-- An expression keeps the order of environments, but for a quotient of a variable that may vary by one that turns out to
be zero. -/
theorem value_mono (hxy : x.le y = true) {e : Expr}
    (he : ∀ op u w, e = .binary op (.var u) (.var w) → op.divides = true →
      x.get u = .nac → x.get w = .undefined → y.get w ≠ .const 0) :
    (value x e).le (value y e) = true := by
  have hoperand : ∀ o, (operand x o).le (operand y o) = true := by
    intro o
    cases o with
    | var v => exact Env.le_iff.1 hxy v
    | literal n => exact Value.le_refl _
  cases e with
  | operand o => exact hoperand o
  | binary op l r =>
    rw [value_binary, value_binary]
    -- A literal does not vary and is not unknown, so the exception needs two variables.
    refine combine_mono (hoperand l) (hoperand r) fun hdiv hnac hundef => ?_
    cases l with
    | literal n => cases hnac
    | var u =>
      cases r with
      | literal n => cases hundef
      | var w => exact he op u w rfl hdiv hnac hundef
  | negate | allocate | cast | field | staticField | element | call => exact Value.le_refl _

theorem after_mono (hxy : x.le y = true) {s : Statement}
    (hs : ∀ v op u w, definition? s = some (v, .binary op (.var u) (.var w)) → op.divides = true →
      x.get u = .nac → x.get w = .undefined → y.get w ≠ .const 0) :
    (after s x).le (after s y) = true := by
  refine Env.le_iff.2 ?_
  intro v
  have hget : (x.get v).le (y.get v) = true := Env.le_iff.1 hxy v
  rw [get_after, get_after]
  cases hd : definition? s with
  | none => exact hget
  | some d =>
    obtain ⟨z, e⟩ := d
    by_cases hzv : z = v
    · simp only [Option.elim, if_pos hzv]
      exact value_mono hxy fun op u w he => hs z op u w (he ▸ hd)
    · simp only [Option.elim, if_neg hzv]
      exact hget

/-- Where no variable is divided by another, effects are monotone. -/
theorem monotone_after (hdiv : ¬ Combines g.routine (.arith .div)) (hrem : ¬ Combines g.routine (.arith .rem)) :
    Equations.Monotone (Ranged g.routine) (fun x y => analysis.le x y = true) fun p => after (g.point p).stmt := by
  intro p x y hx hy hxy
  refine after_mono hxy fun v op u w hd hdivides hnac hundef hzero => ?_
  -- What is known of the two variables tells them apart, and in range it shows that both hold integers.
  have hne : u ≠ w := by
    rintro rfl
    rw [hnac] at hundef
    cases hundef
  have hu : u.holdsInt = true := (hx.tracked u (by simp [hnac])).1
  have hw : w.holdsInt = true := (hy.tracked w (by simp [hzero])).1
  have hcombines : Combines g.routine op := by
    obtain ⟨line, hline, heq⟩ := g.exists_line_of_defined? (definition?_eq_some hd).1
    exact ⟨line, hline, by simp [combined?, heq, hd, hne, hu, hw]⟩
  rcases BinOp.divides_iff.1 hdivides with rfl | rfl
  · exact hdiv hcombines
  · exact hrem hcombines

end Constants

end Dataflow
