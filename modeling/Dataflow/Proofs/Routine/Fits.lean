import Dataflow.Analyses.Int32
/-!
# Variables and literals of a routine

A routine fits if its list of variables holds every variable that it mentions, and if all its literals are integers
of 32 bits.
-/
namespace Dataflow

/-- An integer of 32 bits with a sign. -/
def Int32.Fits (n : Int) : Prop := -0x80000000 ≤ n ∧ n < 0x80000000

instance (n : Int) : Decidable (Int32.Fits n) := inferInstanceAs (Decidable (-0x80000000 ≤ n ∧ n < 0x80000000))

/-- All variables are known, and all literals are integers of 32 bits. -/
structure Fits (known vs : List Var) (ns : List Int) : Prop where
  vars : vs ⊆ known
  literals : ∀ n ∈ ns, Int32.Fits n

namespace Fits

variable {known known' vs vs' : List Var} {ns ns' : List Int}

theorem nil : Fits known [] [] := ⟨List.nil_subset known, fun _ hn => absurd hn List.not_mem_nil⟩

theorem var {v : Var} (h : v ∈ known) : Fits known [v] [] :=
  ⟨fun _ hw => List.mem_singleton.1 hw ▸ h, fun _ hn => absurd hn List.not_mem_nil⟩

theorem literal {n : Int} (h : Int32.Fits n) : Fits known [] [n] :=
  ⟨List.nil_subset known, fun _ hk => List.mem_singleton.1 hk ▸ h⟩

theorem append (h : Fits known vs ns) (h' : Fits known vs' ns') : Fits known (vs ++ vs') (ns ++ ns') :=
  ⟨List.append_subset.2 ⟨h.vars, h'.vars⟩, fun n hn => (List.mem_append.1 hn).elim (h.literals n) (h'.literals n)⟩

theorem mono (h : Fits known vs ns) (hknown : known ⊆ known') : Fits known' vs ns :=
  ⟨fun _ hv => hknown (h.vars hv), h.literals⟩

theorem flatMap {α : Type} {l : List α} {f : α → List Var} {g : α → List Int} (h : ∀ a ∈ l, Fits known (f a) (g a)) :
    Fits known (l.flatMap f) (l.flatMap g) := by
  constructor
  · intro v hv
    obtain ⟨a, ha, hva⟩ := List.mem_flatMap.1 hv
    exact (h a ha).vars hva
  · intro n hn
    obtain ⟨a, ha, hna⟩ := List.mem_flatMap.1 hn
    exact (h a ha).literals n hna

end Fits

/-! ## Literals -/

namespace Operand

def literals : Operand → List Int
  | var _ => []
  | literal n => [n]

def Fits (known : List Var) (o : Operand) : Prop := Dataflow.Fits known o.uses o.literals

end Operand

namespace Expr

def literals : Expr → List Int
  | operand o => o.literals
  | binary _ l r => l.literals ++ r.literals
  | cast _ o => o.literals
  | element _ index => index.literals
  | call _ args => args.flatMap Operand.literals
  | negate _ | allocate _ | field _ _ | staticField _ _ => []

def Fits (known : List Var) (e : Expr) : Prop := Dataflow.Fits known e.uses e.literals

end Expr

namespace Stmt

variable {τ : Type}

def literals : Stmt τ → List Int
  | assign target value => value.literals ++ target.literals
  | invoke call _ => call.literals
  | branch condition _ => condition.literals
  | switch _ cases _ => cases.map (·.1)
  | .return value => value.elim [] Operand.literals
  | goto _ | nop => []

def Fits (known : List Var) (s : Stmt τ) : Prop := Dataflow.Fits known (s.defined?.toList ++ s.uses) s.literals

theorem fits_assign {known : List Var} {target value : Expr} (ht : target.Fits known) (hv : value.Fits known) :
    (assign target value : Stmt τ).Fits known := by
  refine ⟨?_, (hv.append ht).literals⟩
  intro v hmem
  rcases List.mem_append.1 hmem with hdef | huse
  · -- The variable written is the target.
    refine ht.vars ?_
    change v ∈ target.var?.toList at hdef
    unfold Expr.var? at hdef
    split at hdef
    · exact hdef
    · cases hdef
  · rcases List.mem_append.1 huse with huse | huse
    · exact hv.vars huse
    · split at huse
      · cases huse
      · exact ht.vars huse

end Stmt

structure Routine.Fits (r : Routine) : Prop where
  params : r.params ⊆ r.vars
  body : ∀ line ∈ r.body, line.stmt.Fits r.vars

/-! ## Statements at places of a graph -/

theorem Graph.exists_line (g : Graph) (p : Fin g.size) :
    (g.point p).stmt = .nop ∨ ∃ line ∈ g.routine.body, line.stmt = (g.point p).stmt := by
  change g.statement (g.node p) = .nop ∨ ∃ line ∈ g.routine.body, line.stmt = g.statement (g.node p)
  unfold Graph.statement
  split
  next i _ =>
    unfold Routine.stmt?
    cases hline : g.routine.body[i]? with
    | none => exact .inl rfl
    | some line => exact .inr ⟨line, Array.mem_of_getElem? hline, rfl⟩
  next => exact .inl rfl

theorem Graph.exists_line_of_defined? {g : Graph} {p : Fin g.size} {v : Var}
    (h : (g.point p).stmt.defined? = some v) : ∃ line ∈ g.routine.body, line.stmt = (g.point p).stmt := by
  rcases g.exists_line p with hnop | hline
  · rw [hnop] at h
    cases h
  · exact hline

theorem Routine.Fits.point {g : Graph} (h : g.routine.Fits) (p : Fin g.size) :
    (g.point p).stmt.Fits g.routine.vars := by
  rcases g.exists_line p with hnop | ⟨line, hline, heq⟩
  · rw [hnop]
    exact Dataflow.Fits.nil
  · exact heq ▸ h.body line hline

end Dataflow
