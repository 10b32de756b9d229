import Dataflow.Analyses.Constants
import Dataflow.Proofs.Constants.Word
import Dataflow.Proofs.Graph.Adjacency
import Mathlib.Logic.Function.Basic
/-!
# Executions

What a routine does to its variables, along any path of its flow graph. Variables that hold an integer hold words;
of the others only whether they have been assigned is followed. An execution stops where a variable is read that has
not been assigned, and where a divisor is zero.
-/
namespace Dataflow

inductive Content where
  | word (a : Word)
  /-- Something that is not an integer of 32 bits. -/
  | other
  deriving DecidableEq

/-- The contents of the variables that have been assigned. -/
abbrev Store := Var → Option Content

/-- The expression that a statement evaluates, if any. -/
def Stmt.evaluated? {τ : Type} : Stmt τ → Option Expr
  | branch condition _ => some condition
  | s => s.value?

namespace Store

/-- The word that an operand stands for, if it stands for one. -/
def word? (σ : Store) : Operand → Option Word
  | .literal n => some (BitVec.ofInt 32 n)
  | .var v =>
    match σ v with
    | some (.word a) => some a
    | _ => none

/-- The word may be the value of the expression: that of an operand or of an operation on words is determined, any other
expression may have any value. -/
def Yields (σ : Store) (a : Word) : Expr → Prop
  | .operand o => ∀ b, σ.word? o = some b → a = b
  | .binary op l r => ∀ b c, σ.word? l = some b → σ.word? r = some c → Word.apply op b c = some a
  | _ => True

/-- The expression divides by zero. -/
def Faults (σ : Store) : Expr → Prop
  | .binary op _ r => op.divides = true ∧ σ.word? r = some 0
  | _ => False

/-- What a statement may leave behind: a variable that holds an integer takes a value of the expression that defines it,
any other variable is assigned. -/
inductive Writes (s : Statement) (σ : Store) : Store → Prop
  | word {v : Var} {e : Expr} {a : Word} : s.defined? = some v → s.value? = some e → v.holdsInt = true → σ.Yields a e →
      Writes s σ (Function.update σ v (some (.word a)))
  | other {v : Var} : s.defined? = some v → v.holdsInt = false → Writes s σ (Function.update σ v (some .other))
  | nothing : s.defined? = none → Writes s σ σ

/-- A statement runs to its end: all it reads has been assigned, and it does not divide by zero. -/
structure Runs (s : Statement) (σ σ' : Store) : Prop where
  assigned : ∀ v ∈ s.uses, σ v ≠ none
  defined : ∀ e, s.evaluated? = some e → ¬ σ.Faults e
  writes : Writes s σ σ'

/-- Variables that hold an integer hold words, and the others do not. -/
def Typed (σ : Store) : Prop := ∀ v c, σ v = some c → (v.holdsInt = true ↔ ∃ a, c = .word a)

/-- Exactly the parameters have been assigned. -/
structure Initial (r : Routine) (σ : Store) : Prop where
  typed : σ.Typed
  assigned : ∀ v, σ v ≠ none ↔ v ∈ r.params

theorem Runs.typed {s : Statement} {σ σ' : Store} (h : Runs s σ σ') (hσ : σ.Typed) : σ'.Typed := by
  cases h.writes with
  | @word v e a _ _ hint _ =>
    intro w c hc
    by_cases hwv : w = v
    · subst hwv
      rw [Function.update_self] at hc
      cases hc
      exact ⟨fun _ => ⟨a, rfl⟩, fun _ => hint⟩
    · rw [Function.update_of_ne hwv] at hc
      exact hσ w c hc
  | @other v _ hint =>
    intro w c hc
    by_cases hwv : w = v
    · subst hwv
      rw [Function.update_self] at hc
      cases hc
      exact ⟨fun h => absurd (hint.symm.trans h) (by decide), fun ⟨a, ha⟩ => nomatch ha⟩
    · rw [Function.update_of_ne hwv] at hc
      exact hσ w c hc
  | nothing => exact hσ

/-- A statement that writes no variable leaves the store as it is. -/
theorem Runs.eq_of_defined? {s : Statement} {σ σ' : Store} (h : Runs s σ σ') (hs : s.defined? = none) : σ' = σ := by
  cases h.writes with
  | word hdefined =>
    rw [hs] at hdefined
    cases hdefined
  | other hdefined =>
    rw [hs] at hdefined
    cases hdefined
  | nothing => rfl

theorem runs_nop (σ : Store) : Runs .nop σ σ :=
  ⟨fun _ hv => absurd hv List.not_mem_nil, fun _ he => (nomatch he), .nothing rfl⟩

theorem runs_assign {σ : Store} {v : Var} {e : Expr} {a : Word} (hv : v.holdsInt = true)
    (huses : ∀ u ∈ e.uses, σ u ≠ none) (hfaults : ¬ σ.Faults e) (ha : σ.Yields a e) :
    Runs (.assign (.var v) e) σ (Function.update σ v (some (.word a))) where
  assigned u hu := huses u (by simpa [Stmt.uses, Expr.var?] using hu)
  defined _ he := Option.some.inj he ▸ hfaults
  writes := .word rfl rfl hv ha

/-- In a typed store a variable that holds an integer and has been assigned stands for a word. -/
theorem Typed.exists_word {σ : Store} (h : σ.Typed) {v : Var} (hv : v.holdsInt = true) (hassigned : σ v ≠ none) :
    ∃ a, σ v = some (.word a) := by
  obtain ⟨c, hc⟩ := Option.ne_none_iff_exists'.1 hassigned
  obtain ⟨a, rfl⟩ := (h v c hc).1 hv
  exact ⟨a, hc⟩

end Store

/-- An execution may arrive at a place with a store: it starts at the entry, and goes along edges. -/
inductive Graph.Arrives (g : Graph) : Fin g.size → Store → Prop
  | entry {σ : Store} : σ.Initial g.routine → Arrives g g.entry σ
  | next {p q : Fin g.size} {σ σ' : Store} :
      Arrives g p σ → Store.Runs (g.point p).stmt σ σ' → q ∈ g.succs p → Arrives g q σ'

theorem Graph.Arrives.typed {g : Graph} {p : Fin g.size} {σ : Store} (h : g.Arrives p σ) : σ.Typed := by
  induction h with
  | entry hσ => exact hσ.typed
  | next _ hruns _ ih => exact hruns.typed ih

/-- The entry is where executions start, and they do not come back to it. -/
theorem Graph.Arrives.initial {g : Graph} (hg : g.Wired) {p : Fin g.size} {σ : Store} (h : g.Arrives p σ)
    (hp : p = g.entry) : σ.Initial g.routine := by
  cases h with
  | entry hσ => exact hσ
  | next _ _ hedge =>
    rw [hp, hg.mem_succs_iff_mem_preds, hg.preds_entry] at hedge
    cases hedge

end Dataflow
