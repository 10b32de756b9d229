import Dataflow.Graph.Build
import Dataflow.Proofs.Constants.Execution
import Dataflow.Proofs.Constants.Monotone
import Dataflow.Proofs.Reading.Read
import Dataflow.Proofs.Solver.Agreement
/-!
# Constants describe executions

Whatever solution constant propagation has found, and in whatever order: where an execution arrives, the value of every
variable that holds an integer is the constant that has been found, or has been found to vary. Every statement keeps
that (`describes_after`), and merging at a node only weakens it; that effects are monotone is not needed.
-/
namespace Dataflow

/-- The abstract value allows for a word. -/
def Value.Covers (x : Value) (a : Word) : Prop := x = .const a.toInt ∨ x = .nac

theorem Value.Covers.mono {x y : Value} {a : Word} (h : x.Covers a) (hxy : x.le y = true) : y.Covers a := by
  rcases Value.le_cases hxy with rfl | rfl | rfl
  · rcases h with h | h <;> cases h
  · exact .inr rfl
  · exact h

theorem Word.apply_zero {op : BinOp} (h : op.divides = true) (a : Word) : Word.apply op a 0 = none := by
  rcases BinOp.divides_iff.1 h with rfl | rfl <;> rfl

namespace Constants

/-- The environment allows for all words of a store. -/
def Describes (env : Env) (σ : Store) : Prop :=
  ∀ v a, v.holdsInt = true → σ v = some (.word a) → (env.get v).Covers a

/-- The operands that the value of an expression depends on. -/
def operands : Expr → List Operand
  | .operand o => [o]
  | .binary _ l r => [l, r]
  | _ => []

/-- Where a variable that holds an integer is defined by operands, these hold integers as well. -/
def IntOperands (r : Routine) : Prop :=
  ∀ line ∈ r.body, ∀ d ∈ definition? line.stmt, ∀ o ∈ operands d.2, ∀ u ∈ o.uses, u.holdsInt = true

instance (r : Routine) : Decidable (IntOperands r) :=
  inferInstanceAs (Decidable (∀ line ∈ r.body, ∀ d ∈ definition? line.stmt, ∀ o ∈ operands d.2, ∀ u ∈ o.uses,
    u.holdsInt = true))

variable {env env' : Env} {σ σ' : Store}

theorem Describes.mono (h : Describes env σ) (hle : env.le env' = true) : Describes env' σ :=
  fun v a hv hσ => (h v a hv hσ).mono (Env.le_iff.1 hle v)

/-! ## Statements -/

theorem combine_covers {op : BinOp} {x y : Value} {a b c : Word} (hx : x.Covers b) (hy : y.Covers c)
    (h : Word.apply op b c = some a) : (combine op x y).Covers a := by
  -- The operation on words has a result, so the divisor is not zero, and what covers it is not zero either.
  have hzero : ¬ (op.divides = true ∧ y = .const 0) := by
    rintro ⟨hdiv, rfl⟩
    rcases hy with hy | hy
    · have hc : c = 0 := Word.toInt_eq_zero_iff.1 (Value.const.inj hy).symm
      rw [hc, Word.apply_zero hdiv] at h
      cases h
    · cases hy
  rcases hx with rfl | rfl
  · rcases hy with rfl | rfl
    · refine .inl ?_
      have hguard : ¬ (op.divides && decide (Value.const c.toInt = .const 0)) = true := by simpa using hzero
      rw [combine, binary, if_neg hguard]
      simp only [Word.fold_eq, BitVec.ofInt_toInt, h]
      rfl
    · exact .inr (combine_nac hzero (.inr rfl))
  · exact .inr (combine_nac hzero (.inl rfl))

theorem operand_covers (hσ : σ.Typed) (h : Describes env σ) {o : Operand} (hlit : ∀ n ∈ o.literals, Int32.Fits n)
    (hint : ∀ u ∈ o.uses, u.holdsInt = true) (hassigned : ∀ u ∈ o.uses, σ u ≠ none) :
    ∃ a, σ.word? o = some a ∧ (operand env o).Covers a := by
  cases o with
  | literal n =>
    -- A literal in range is the integer that its word stands for.
    refine ⟨BitVec.ofInt 32 n, rfl, .inl ?_⟩
    rw [← Word.wrap_eq, Int32.wrap_of_fits (hlit n List.mem_cons_self)]
    rfl
  | var u =>
    have hu : u.holdsInt = true := hint u List.mem_cons_self
    obtain ⟨a, ha⟩ := hσ.exists_word hu (hassigned u List.mem_cons_self)
    exact ⟨a, by rw [Store.word?, ha], h u a hu ha⟩

theorem value_covers (hσ : σ.Typed) (h : Describes env σ) {e : Expr} {a : Word} (hlit : ∀ n ∈ e.literals, Int32.Fits n)
    (hint : ∀ o ∈ operands e, ∀ u ∈ o.uses, u.holdsInt = true) (hassigned : ∀ u ∈ e.uses, σ u ≠ none)
    (ha : σ.Yields a e) : (value env e).Covers a := by
  cases e with
  | operand o =>
    obtain ⟨b, hb, hcovers⟩ := operand_covers hσ h hlit (hint o List.mem_cons_self) hassigned
    rw [ha b hb]
    exact hcovers
  | binary op l r =>
    obtain ⟨b, hb, hl⟩ := operand_covers hσ h (fun n hn => hlit n (List.mem_append_left _ hn))
      (hint l List.mem_cons_self) fun u hu => hassigned u (List.mem_append_left _ hu)
    obtain ⟨c, hc, hr⟩ := operand_covers hσ h (fun n hn => hlit n (List.mem_append_right _ hn))
      (hint r (List.mem_cons_of_mem l List.mem_cons_self)) fun u hu => hassigned u (List.mem_append_right _ hu)
    rw [value_binary]
    exact combine_covers hl hr (ha b c hb hc)
  | negate | allocate | cast | field | staticField | element | call => exact .inr rfl

theorem uses_of_definition? {s : Statement} {v : Var} {e : Expr} (h : definition? s = some (v, e)) :
    e.uses ⊆ s.uses := by
  obtain ⟨-, hvalue, -⟩ := definition?_eq_some h
  rcases Stmt.eq_of_value? hvalue with ⟨target, rfl⟩ | ⟨result, rfl⟩
  · exact List.subset_append_left _ _
  · exact List.Subset.refl _

/-- A statement that runs to its end takes what an environment describes to what the environment after it describes. -/
theorem describes_after {s : Statement} (hσ : σ.Typed) (h : Describes env σ) (hlit : ∀ n ∈ s.literals, Int32.Fits n)
    (hint : ∀ d ∈ definition? s, ∀ o ∈ operands d.2, ∀ u ∈ o.uses, u.holdsInt = true)
    (hruns : Store.Runs s σ σ') : Describes (after s env) σ' := by
  intro w b hw hb
  rw [get_after]
  cases hruns.writes with
  | @word v e a hdefined hvalue hv hyields =>
    have hd : definition? s = some (v, e) := by simp only [definition?, hdefined, hvalue, hv, if_true]
    rw [hd]
    by_cases hvw : v = w
    · subst hvw
      rw [Function.update_self] at hb
      cases hb
      simp only [Option.elim, if_true]
      exact value_covers hσ h (fun n hn => hlit n (literals_of_definition? hd hn)) (hint (v, e) hd)
        (fun u hu => hruns.assigned u (uses_of_definition? hd hu)) hyields
    · rw [Function.update_of_ne (Ne.symm hvw)] at hb
      simp only [Option.elim, if_neg hvw]
      exact h w b hw hb
  | @other v hdefined hv =>
    -- The environment ignores what does not hold an integer.
    have hd : definition? s = none := by
      cases hd : definition? s with
      | none => rfl
      | some d =>
        obtain ⟨hdefined', -, hint'⟩ := definition?_eq_some hd
        rw [hdefined] at hdefined'
        cases hdefined'
        rw [hv] at hint'
        cases hint'
    rw [hd]
    by_cases hvw : w = v
    · subst hvw
      rw [Function.update_self] at hb
      cases hb
    · rw [Function.update_of_ne hvw] at hb
      exact h w b hw hb
  | nothing hdefined =>
    have hd : definition? s = none := by simp only [definition?, hdefined]
    rw [hd]
    exact h w b hw hb

theorem describes_boundary {r : Routine} (h : σ.Initial r) : Describes (boundary r) σ := by
  intro v a hv ha
  refine .inr ?_
  have hparam : v ∈ r.params := (h.assigned v).1 (by rw [ha]; exact Option.some_ne_none _)
  rw [get_boundary, if_pos ⟨hparam, hv⟩]

/-! ## Executions -/

variable {g : Graph} {p : Fin g.size}

/-- If the facts before a place describe the store that arrives there, the facts after it describe the store that the
statement leaves; at the entry that is the boundary. -/
theorem describes_leaving (hg : g.Wired) (hr : g.routine.Fits) (hint : IntOperands g.routine)
    {sol : Solution Env g.size} (hsolves : (analysis.equations g).Solves analysis.Same
      (fun p => after (g.point p).stmt) (analysis.flow sol.toFacts))
    (harrives : g.Arrives p σ) (hins : p ≠ g.entry → Describes (sol.ins.get p) σ)
    (hruns : Store.Runs (g.point p).stmt σ σ') : Describes (sol.outs.get p) σ' := by
  by_cases hentry : p = g.entry
  · have hσ := harrives.initial hg hentry
    subst hentry
    rw [hruns.eq_of_defined? rfl]
    exact (describes_boundary hσ).mono hsolves.leaving_root.2
  · obtain ⟨-, hleaving⟩ := hsolves.settled p hentry
    refine (describes_after harrives.typed (hins hentry) (hr.point p).literals (fun d hd => ?_) hruns).mono hleaving.2
    obtain ⟨line, hline, heq⟩ := g.exists_line_of_defined? (definition?_eq_some hd).1
    exact hint line hline d (heq ▸ hd)

/-- Wherever an execution arrives but at the entry, the facts of any solution describe its store. -/
theorem describes_of_arrives (hg : g.Wired) (hr : g.routine.Fits) (hint : IntOperands g.routine)
    {sol : Solution Env g.size} (hsolves : (analysis.equations g).Solves analysis.Same
      (fun p => after (g.point p).stmt) (analysis.flow sol.toFacts))
    (harrives : g.Arrives p σ) (hp : p ≠ g.entry) : Describes (sol.ins.get p) σ := by
  induction harrives with
  | entry hσ => exact absurd rfl hp
  | @next p q σ σ' hfirst hruns hedge ih =>
    have hle : (sol.outs.get p).le (sol.ins.get q) = true := by
      obtain ⟨harriving, -⟩ := hsolves.settled q hp
      exact (lawful.ordered g).gather_le_iff.1 harriving.2 p (hg.mem_succs_iff_mem_preds.1 hedge)
    exact (describes_leaving hg hr hint hsolves hfirst ih hruns).mono hle

/-- Constant propagation is sound: where an execution arrives with a word in a variable that holds an integer, every
run that ends has found this constant, or that the variable may vary. -/
theorem solve_sound {text name : String} {r : Routine} {g : Graph} (hread : Reading.read text name = .ok r)
    (hbuild : Graph.build r = .ok g) (hint : IntOperands r) {settings : Settings} {sol : Solution Env g.size}
    (hsol : analysis.solve g settings = .ok sol) {p : Fin g.size} {σ : Store} (harrives : g.Arrives p σ)
    (hp : p ≠ g.entry) {v : Var} {a : Word} (hv : v.holdsInt = true) (ha : σ v = some (.word a)) :
    (sol.ins.get p).get v = .const a.toInt ∨ (sol.ins.get p).get v = .nac := by
  obtain ⟨hbuilt, rfl⟩ := Graph.built_build hbuild
  have hfits := Reading.fits_read hread
  obtain ⟨-, hsolves⟩ := Analysis.solves_of_solve hbuilt.wired (computes hfits) hsol
  exact describes_of_arrives hbuilt.wired hfits hint hsolves harrives hp v a hv ha

/-- Halves a variable for ever. -/
def halving : Routine where
  name := "main"
  params := []
  body :=
    #[⟨.assign (.var { name := "x" }) (.literal 7), some 1⟩,
      ⟨.assign (.var { name := "x" }) (.binary (.arith .div) (.var { name := "x" }) (.literal 2)), some 2⟩,
      ⟨.goto (some (.stmt 1)), some 3⟩]
  vars := [{ name := "x" }]

def halvingGraph : Graph := (Graph.build halving).toOption.getD (.empty halving)

theorem build_halving : Graph.build halving = .ok halvingGraph := by
  have hsome : (Graph.build halving).toOption.isSome = true := by decide +kernel
  obtain ⟨g, hg⟩ := Option.isSome_iff_exists.1 hsome
  rw [halvingGraph, hg]
  exact toOption_eq_some.1 hg

/-- The execution that halves seven once arrives at the jump with three. -/
theorem arrives_halving :
    halvingGraph.Arrives 3
      (Function.update (Function.update (fun _ => none) { name := "x" } (some (.word 7))) { name := "x" }
        (some (.word 3))) := by
  have hfirst : (halvingGraph.point 1).stmt = .assign (.var { name := "x" }) (.literal 7) := by decide +kernel
  have hsecond : (halvingGraph.point 2).stmt =
      .assign (.var { name := "x" }) (.binary (.arith .div) (.var { name := "x" }) (.literal 2)) := by
    decide +kernel
  have hparams : halvingGraph.routine.params = [] := by decide +kernel
  have hstart : halvingGraph.Arrives halvingGraph.entry fun _ => none :=
    .entry ⟨fun v c hc => (nomatch hc), fun v => by simp [hparams]⟩
  have hentry : halvingGraph.Arrives 1 fun _ => none := hstart.next (Store.runs_nop _) (by decide +kernel)
  have hseven : halvingGraph.Arrives 2 (Function.update (fun _ => none) { name := "x" } (some (.word 7))) := by
    refine hentry.next (q := 2) ?_ (by decide +kernel)
    rw [hfirst]
    exact Store.runs_assign rfl (fun u hu => absurd hu List.not_mem_nil) (fun hf => hf) fun b hb => Option.some.inj hb
  refine hseven.next (q := 3) ?_ (by decide +kernel)
  rw [hsecond]
  refine Store.runs_assign rfl ?_ (fun hf => absurd hf.2 (by decide)) ?_
  · intro u hu
    rw [List.mem_singleton.1 hu, Function.update_self]
    exact Option.some_ne_none _
  · intro b c hb hc
    simp only [Store.word?, Function.update_self, Option.some.injEq] at hb hc
    subst hb hc
    decide

/-- The fact before the jump of the loop, found with a stack, allows for three. -/
theorem solve_sound_halving :
    ∃ sol, Reading.read "x = 7\nL: x = x / 2\ngoto L" "main" = .ok halving ∧ Graph.build halving = .ok halvingGraph ∧
      analysis.solve halvingGraph { strategy := .lifo } = .ok sol ∧
      ((sol.ins.get (3 : Fin halvingGraph.size)).get { name := "x" } = .const 3 ∨
        (sol.ins.get (3 : Fin halvingGraph.size)).get { name := "x" } = .nac) := by
  have hread : (Reading.read "x = 7\nL: x = x / 2\ngoto L" "main").toOption = some halving := by decide +kernel
  have hsome : (analysis.solve halvingGraph { strategy := .lifo }).toOption.isSome = true := by decide +kernel
  rw [toOption_eq_some] at hread
  obtain ⟨sol, hsol⟩ := Option.isSome_iff_exists.1 hsome
  rw [toOption_eq_some] at hsol
  exact ⟨sol, hread, build_halving, hsol, solve_sound (a := 3) hread build_halving (by decide) hsol arrives_halving
    (by decide +kernel) rfl (Function.update_self _ _ _)⟩

end Constants

end Dataflow
