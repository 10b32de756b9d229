import Dataflow.Proofs.Solver.Lasting
import Dataflow.Reading.Read
/-!
# Recorded constants last

The transfer of constant propagation is not monotone: a value that may vary falls back to an unknown one when its
divisor turns out to be zero. A constant is never lost that way. Once a run has recorded one, the variable has that
constant or may vary, after every later visit and in every fixed point (`recorded_lasts`).
-/
namespace Dataflow

namespace Value

variable {u w u' w' : Value} {c : Int}

/-- Where one value is a constant, the other is the same constant or may vary. -/
def Keeps (u w : Value) : Prop := ∀ c, u = .const c → w = .const c ∨ w = .nac

theorem join_eq_const (h : u.join w = .const c) : u = .const c ∨ w = .const c := by
  cases u <;> cases w <;> grind [join]

theorem join_of_const_or_nac (h : u = .const c ∨ u = .nac) (w : Value) : u.join w = .const c ∨ u.join w = .nac := by
  rcases h with rfl | rfl
  · cases w with
    | undefined => exact .inl rfl
    | const n =>
      simp only [join]
      split
      · exact .inl rfl
      · exact .inr rfl
    | nac => exact .inr rfl
  · exact .inr rfl

theorem Keeps.join (hu : u.Keeps u') (hw : w.Keeps w') : (u.join w).Keeps (u'.join w') := by
  intro c hc
  rcases join_eq_const hc with hc | hc
  · exact join_of_const_or_nac (hu c hc) w'
  · rw [join_comm]
    exact join_of_const_or_nac (hw c hc) u'

end Value

namespace Constants

variable {env env' : Env} {a b a' b' : Value} {c : Int}

/-- Every constant of one environment is kept in another. -/
def Keeps (env env' : Env) : Prop := ∀ v, (env.get v).Keeps (env'.get v)

/-! ## Evaluation -/

/-- An operation has a constant as its result only if it is carried out. -/
theorem binary_eq_const {op : BinOp} (h : binary op a b = .ok (.const c)) :
    ∃ m n, a = .const m ∧ b = .const n ∧ (op.divides && decide (b = .const 0)) = false := by
  unfold binary at h
  split at h
  · cases h
  next hzero =>
    split at h
    · cases h
    · cases h
    next m n => exact ⟨m, n, rfl, rfl, Bool.eq_false_iff.2 hzero⟩
    · cases h

theorem binary_of_nac {op : BinOp} (hzero : (op.divides && decide (b = .const 0)) = false) (h : a = .nac ∨ b = .nac) :
    binary op a b = .ok .nac := by
  unfold binary
  rw [if_neg (Bool.eq_false_iff.1 hzero)]
  rcases h with rfl | rfl
  · rfl
  · cases a <;> rfl

theorem keeps_binary {op : BinOp} {x x' : Value} (ha : a.Keeps a') (hb : b.Keeps b') (hx : binary op a b = .ok x)
    (hx' : binary op a' b' = .ok x') : x.Keeps x' := by
  rintro c rfl
  obtain ⟨m, n, rfl, rfl, hzero⟩ := binary_eq_const hx
  -- The divisor is the same or may vary, so it is not known to be zero now either.
  rcases hb n rfl with rfl | rfl
  · rcases ha m rfl with rfl | rfl
    · exact .inl (Except.ok.inj (hx'.symm.trans hx))
    · exact .inr (Except.ok.inj (hx'.symm.trans (binary_of_nac hzero (.inl rfl))))
  · exact .inr (Except.ok.inj (hx'.symm.trans (binary_of_nac (Bool.and_false _) (.inr rfl))))

theorem keeps_operand (h : Keeps env env') (o : Operand) : (operand env o).Keeps (operand env' o) := by
  cases o with
  | var v => exact h v
  | literal n => exact fun _ hc => .inl hc

theorem keeps_evaluate {e : Expr} {x x' : Value} (h : Keeps env env') (hx : evaluate env e = .ok x)
    (hx' : evaluate env' e = .ok x') : x.Keeps x' := by
  cases e with
  | operand o =>
    cases hx
    cases hx'
    exact keeps_operand h o
  | binary op l r => exact keeps_binary (keeps_operand h l) (keeps_operand h r) hx hx'
  | negate | allocate | cast | field | staticField | element | call =>
    cases hx'
    exact fun _ _ => .inr rfl

theorem keeps_effect {s : Statement} {x x' : Env} (h : Keeps env env') (hx : effect s env = .ok x)
    (hx' : effect s env' = .ok x') : Keeps x x' := by
  unfold effect at hx hx'
  cases hd : definition? s with
  | none =>
    rw [hd] at hx hx'
    cases hx
    cases hx'
    exact h
  | some d =>
    simp only [hd] at hx hx'
    obtain ⟨u, hu, rfl⟩ := map_ok_iff.1 hx
    obtain ⟨u', hu', rfl⟩ := map_ok_iff.1 hx'
    intro v
    rw [Env.get_set, Env.get_set]
    split
    · exact keeps_evaluate h hu hu'
    · exact h v

/-! ## Runs -/

theorem survives (g : Graph) : (analysis.equations g).Survives Keeps where
  refl _ _ _ hc := .inl hc
  initial _ _ _ hc := nomatch hc
  merge := by
    intro x x' y y' hx hy v
    change ((x.mergeInto y).1.get v).Keeps ((x'.mergeInto y').1.get v)
    rw [Env.get_mergeInto, Env.get_mergeInto]
    exact (hx v).join (hy v)
  transfer := by
    intro p x x' y y' z z' changed changed' hx hz hz' v
    obtain ⟨env, henv, heq⟩ := map_ok_iff.1 hz
    obtain ⟨env', henv', heq'⟩ := map_ok_iff.1 hz'
    -- What is recorded says what the effect says.
    have hget := (Env.replace_spec y env).1 v
    have hget' := (Env.replace_spec y' env').1 v
    rw [heq] at hget
    rw [heq'] at hget'
    rw [hget, hget']
    exact keeps_effect hx henv henv' v

/-- Once a run has recorded a constant for a variable after a node, the variable has that constant or may vary there: after
every later visit, in every fixed point, and so in the result of every run that ends. -/
theorem recorded_lasts {g : Graph} (hg : g.Built) {settings : Settings} {r₀ : Progress Env g.size}
    (h₀ : (analysis.equations g).Reaches (analysis.begin g settings) r₀) {p : Fin g.size} {v : Var} {c : Int}
    (hc : ((analysis.facts r₀.flow).outs.get p).get v = .const c) :
    (∀ r, (analysis.equations g).Reaches r₀ r →
      ((analysis.facts r.flow).outs.get p).get v = .const c ∨ ((analysis.facts r.flow).outs.get p).get v = .nac) ∧
    (∀ f, analysis.FixedPoint g (fun x y => ∀ v, x.get v = y.get v) f →
      (f.outs.get p).get v = .const c ∨ (f.outs.get p).get v = .nac) ∧
    ∀ settings' sol, analysis.solve g settings' = .ok sol →
      (sol.outs.get p).get v = .const c ∨ (sol.outs.get p).get v = .nac := by
  have hlinked := Analysis.linked analysis hg.wired
  have hschedule := Analysis.schedule_consistent analysis g settings
  have hfixed : ∀ f, (analysis.equations g).FixedPoint (fun x y => ∀ v, x.get v = y.get v) (analysis.flow f) →
      (f.outs.get p).get v = .const c ∨ (f.outs.get p).get v = .nac := by
    intro f hf
    have hsame : ∀ {x y z : Env}, Keeps x y → (∀ v, z.get v = y.get v) → Keeps x z := by
      intro x y z hkeeps hget w
      rw [hget w]
      exact hkeeps w
    exact h₀.keeps_fixedPoint (survives g) hlinked hsame hschedule hf p v c hc
  refine ⟨?_, ?_, ?_⟩
  · intro r hreach
    exact h₀.lasts (survives g) hlinked hschedule hreach p v c hc
  · intro f hf
    exact hfixed f (Analysis.equations_of_fixedPoint Analysis.overwrites_constants hf)
  · intro settings' sol hsol
    exact hfixed sol.toFacts (Analysis.fixedPoint_of_solve hg.wired Analysis.overwrites_constants hsol)

/-- Counts a variable up in a loop. -/
def counting : String := "x = 1\nL: x = x + 1\nif (x < 9) goto L\nreturn x"

/-- The first two visits of a queue record that the counter is 2 after the sum. With a stack it may vary there in the
end. -/
theorem recorded_lasts_counting :
    ∃ r g r₀ p v sol, Reading.read counting = .ok r ∧ Graph.build r = .ok g ∧
      (analysis.equations g).Reaches (analysis.begin g {}) r₀ ∧
      ((analysis.facts r₀.flow).outs.get p).get v = .const 2 ∧
      (∀ r, (analysis.equations g).Reaches r₀ r → ((analysis.facts r.flow).outs.get p).get v = .const 2 ∨
        ((analysis.facts r.flow).outs.get p).get v = .nac) ∧
      analysis.solve g { strategy := .lifo } = .ok sol ∧ (sol.outs.get p).get v = .nac := by
  have hrun : ((Reading.read counting).toOption.bind fun r => (Graph.build r).toOption.bind fun g =>
      (g.position? (.stmt 1)).bind fun p => (analysis.begin g {}).schedule.next?.bind fun next₁ =>
        ((analysis.equations g).advance (analysis.begin g {}) next₁.1 next₁.2).toOption.bind fun r₁ =>
          r₁.schedule.next?.bind fun next₂ =>
            ((analysis.equations g).advance r₁ next₂.1 next₂.2).toOption.bind fun r₂ =>
              (analysis.solve g { strategy := .lifo }).toOption.map fun sol =>
                (((analysis.facts r₂.flow).outs.get p).get ⟨"x", .primitive .int⟩,
                  (sol.outs.get p).get ⟨"x", .primitive .int⟩)) = some (.const 2, .nac) := by
    decide +kernel
  obtain ⟨r, hr, h⟩ := Option.bind_eq_some_iff.1 hrun
  obtain ⟨g, hg, h⟩ := Option.bind_eq_some_iff.1 h
  obtain ⟨p, -, h⟩ := Option.bind_eq_some_iff.1 h
  obtain ⟨next₁, hnext₁, h⟩ := Option.bind_eq_some_iff.1 h
  obtain ⟨r₁, hr₁, h⟩ := Option.bind_eq_some_iff.1 h
  obtain ⟨next₂, hnext₂, h⟩ := Option.bind_eq_some_iff.1 h
  obtain ⟨r₂, hr₂, h⟩ := Option.bind_eq_some_iff.1 h
  obtain ⟨sol, hsol, h⟩ := Option.map_eq_some_iff.1 h
  obtain ⟨hconst, hnac⟩ := Prod.mk.inj h
  rw [toOption_eq_some] at hr hg hr₁ hr₂ hsol
  have hreach := (Equations.Reaches.refl.visit hnext₁ hr₁).visit hnext₂ hr₂
  obtain ⟨hlater, -, -⟩ := recorded_lasts (Graph.built_build hg).1 hreach hconst
  exact ⟨r, g, r₂, p, _, sol, hr, hg, hreach, hconst, hlater, hsol, hnac⟩

end Constants

end Dataflow
