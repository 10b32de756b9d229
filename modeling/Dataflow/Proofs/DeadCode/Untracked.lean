import Dataflow.Proofs.DeadCode.Reachable
/-!
# Variables that are not tracked

A comparison of two variables that are not tracked may be true or false, but nothing is known of its value. Merged with
a constant it leaves that constant, and a branch on the constant then cuts off statements that are executed. This takes
a definition that reads a variable of some type that holds no integer, and for every kind of such types there is a
routine where it happens (`spares_iff`).
-/
namespace Dataflow

/-- The primitive type that a type is; references are all of one kind. -/
def Ty.primitive? : Ty → Option Primitive
  | primitive p => some p
  | reference _ => none

theorem Ty.holdsInt_eq (t : Ty) : t.holdsInt = t.primitive?.any Primitive.holdsInt := by cases t <;> rfl

namespace DeadCode

/-- Some definition of a variable that holds an integer reads a variable of a type of the kind, by itself or as an
operand of an operation. -/
def Reads (r : Routine) (kind : Option Primitive) : Prop :=
  ∃ line ∈ r.body, ∃ d ∈ Constants.definition? line.stmt, ∃ o ∈ Constants.operands d.2, ∃ u ∈ o.uses,
    u.type.primitive? = kind

theorem intOperands_of_reads {r : Routine} (h : ∀ kind, Reads r kind → kind.any Primitive.holdsInt = true) :
    Constants.IntOperands r := by
  intro line hline d hd o ho u hu
  rw [Var.holdsInt, Ty.holdsInt_eq]
  exact h _ ⟨line, hline, d, hd, o, ho, u, hu, rfl⟩

/-! ## A comparison that is merged with a constant -/

/-- Compares two parameters of a type. -/
def merging (t : Ty) : String :=
  "param " ++ t.name ++ " p\nparam " ++ t.name ++ " q\nx = 1\nif (p == q) goto B\nx = p == q\n" ++
    "B: if (x == 1) goto C\nreturn x\nC: return x"

def mergingRoutine (t : Ty) : Routine where
  name := "main"
  params := [⟨"p", t⟩, ⟨"q", t⟩]
  body :=
    #[⟨.assign (.var { name := "x" }) (.literal 1), some 3⟩,
      ⟨.branch (.binary (.compare .eq) (.var ⟨"p", t⟩) (.var ⟨"q", t⟩)) (some (.stmt 3)), some 4⟩,
      ⟨.assign (.var { name := "x" }) (.binary (.compare .eq) (.var ⟨"p", t⟩) (.var ⟨"q", t⟩)), some 5⟩,
      ⟨.branch (.binary (.compare .eq) (.var { name := "x" }) (.literal 1)) (some (.stmt 5)), some 6⟩,
      ⟨.return (some (.var { name := "x" })), some 7⟩,
      ⟨.return (some (.var { name := "x" })), some 8⟩]
  vars := [⟨"p", t⟩, ⟨"q", t⟩, { name := "x" }]

def mergingGraph (t : Ty) : Graph := (Graph.build (mergingRoutine t)).toOption.getD (.empty (mergingRoutine t))

/-- Types of all kinds that hold no integers. -/
def untracked : List Ty := [.primitive .long, .primitive .float, .primitive .double, .reference "Object"]

theorem exists_untracked {kind : Option Primitive} (h : ¬ kind.any Primitive.holdsInt = true) :
    ∃ t ∈ untracked, t.primitive? = kind := by
  have hall : ∀ kind ∈ none :: Primitive.all.map some,
      ¬ kind.any Primitive.holdsInt = true → ∃ t ∈ untracked, t.primitive? = kind := by
    decide
  refine hall kind ?_ h
  cases kind with
  | none => exact List.mem_cons_self
  | some p => exact List.mem_cons_of_mem _ (List.mem_map_of_mem p.mem_all)

theorem run_merging : ∀ t ∈ untracked,
    ((Reading.read (merging t)).toOption = some (mergingRoutine t) ∧
      (Graph.build (mergingRoutine t)).toOption.isSome = true) ∧
    ((Constants.analysis.solve (mergingGraph t)).toOption.bind fun constants =>
      (Liveness.analysis.solve (mergingGraph t)).toOption.bind fun live =>
        (detect (mergingGraph t) constants.toFacts live.toFacts).toOption) = some [⟨4, .unreachable⟩] := by
  decide +kernel

theorem merging_ok {t : Ty} (ht : t ∈ untracked) :
    ∃ constants live, Reading.read (merging t) = .ok (mergingRoutine t) ∧
      Graph.build (mergingRoutine t) = .ok (mergingGraph t) ∧
      Constants.analysis.solve (mergingGraph t) = .ok constants ∧
      Liveness.analysis.solve (mergingGraph t) = .ok live ∧
      detect (mergingGraph t) constants.toFacts live.toFacts = .ok [⟨4, .unreachable⟩] := by
  obtain ⟨⟨hread, hbuild⟩, hrun⟩ := run_merging t ht
  obtain ⟨g, hg⟩ := Option.isSome_iff_exists.1 hbuild
  obtain ⟨constants, hconstants, hrun⟩ := Option.bind_eq_some_iff.1 hrun
  obtain ⟨live, hlive, hfindings⟩ := Option.bind_eq_some_iff.1 hrun
  rw [toOption_eq_some] at hread hconstants hlive hfindings
  refine ⟨constants, live, hread, ?_, hconstants, hlive, hfindings⟩
  rw [mergingGraph, hg]
  exact toOption_eq_some.1 hg

/-- No other kind of variable is read by its definitions. -/
theorem reads_merging {t : Ty} (ht : t ∈ untracked) {kind : Option Primitive} (h : Reads (mergingRoutine t) kind) :
    kind = t.primitive? := by
  have hall : ∀ t ∈ untracked, ∀ line ∈ (mergingRoutine t).body, ∀ d ∈ Constants.definition? line.stmt,
      ∀ o ∈ Constants.operands d.2, ∀ u ∈ o.uses, u.type.primitive? = t.primitive? := by
    decide
  obtain ⟨line, hline, d, hd, o, ho, u, hu, rfl⟩ := h
  exact hall t ht line hline d hd o ho u hu

/-! ## An execution of it -/

theorem statements_merging : ∀ t ∈ untracked,
    ((mergingGraph t).routine.params = [⟨"p", t⟩, ⟨"q", t⟩] ∧ t.holdsInt = false) ∧
      ((mergingGraph t).point 1).stmt = .assign (.var { name := "x" }) (.literal 1) ∧
      ((mergingGraph t).point 2).stmt =
        .branch (.binary (.compare .eq) (.var ⟨"p", t⟩) (.var ⟨"q", t⟩)) (some (.stmt 3)) ∧
      ((mergingGraph t).point 3).stmt =
        .assign (.var { name := "x" }) (.binary (.compare .eq) (.var ⟨"p", t⟩) (.var ⟨"q", t⟩)) ∧
      ((mergingGraph t).point 4).stmt =
        .branch (.binary (.compare .eq) (.var { name := "x" }) (.literal 1)) (some (.stmt 5)) ∧
      (mergingGraph t).node 5 = .stmt 4 := by
  decide +kernel

theorem edges_merging : ∀ t ∈ untracked, ∀ way ∈ [(0, 1, EdgeKind.entry), (1, 2, .fallThrough), (2, 3, .ifFalse),
    (3, 4, .fallThrough), (4, 5, .ifFalse)],
    ∃ e ∈ (mergingGraph t).edges, e.source = (mergingGraph t).node way.1 ∧ e.target = (mergingGraph t).node way.2.1 ∧
      e.kind = way.2.2 := by
  decide +kernel

theorem executes_along {g : Graph} {p q : Fin g.size} {s : Statement} {σ σ' : Store} {kind : EdgeKind}
    (h : g.Executes p σ) (hs : (g.point p).stmt = s) (hsteps : Store.Steps s σ σ')
    (hedge : ∃ e ∈ g.edges, e.source = g.node p ∧ e.target = g.node q ∧ e.kind = kind)
    (htakes : ∀ e : Edge, e.kind = kind → g.Takes s σ' e) : g.Executes q σ' := by
  subst hs
  obtain ⟨e, he, hsource, htarget, hkind⟩ := hedge
  exact h.next hsteps he hsource htarget (htakes e hkind)

theorem takes_ifFalse {g : Graph} {σ : Store} {condition : Expr} {target : Option Target} {e : Edge}
    (h : σ.Results 0 condition) (hkind : e.kind = .ifFalse) : g.Takes (.branch condition target) σ e :=
  ⟨0, h, hkind⟩

/-- Of what is not a word a comparison may be false. -/
theorem results_compare {σ : Store} {op : CompareOp} {v : Var} {r : Operand} (hv : σ v = some .other) :
    σ.Results 0 (.binary (.compare op) (.var v) r) := by
  constructor
  · intro b c hb
    rw [Store.word?, hv] at hb
    cases hb
  · exact fun _ _ _ _ => ⟨false, rfl⟩

/-- Both parameters hold something that is not a word. -/
def givenStore (t : Ty) : Store := fun v => if v ∈ [⟨"p", t⟩, ⟨"q", t⟩] then some .other else none

theorem initial_givenStore {t : Ty} {r : Routine} (hr : r.params = [⟨"p", t⟩, ⟨"q", t⟩]) (ht : t.holdsInt = false) :
    (givenStore t).Initial r := by
  constructor
  · intro v c hc
    unfold givenStore at hc
    split at hc
    next hv =>
      cases hc
      have hint : v.holdsInt = false := by
        simp only [List.mem_cons, List.not_mem_nil, or_false] at hv
        rcases hv with rfl | rfl <;> exact ht
      exact ⟨fun h => absurd (hint.symm.trans h) (by decide), fun ⟨a, ha⟩ => nomatch ha⟩
    next => cases hc
  · intro v
    rw [hr, givenStore]
    split
    next hv => exact ⟨fun _ => hv, fun _ => Option.some_ne_none _⟩
    next hv => exact ⟨fun h => absurd rfl h, fun h => absurd h hv⟩

/-- The parameters as they are given, and a word in `x`. -/
def mergingStore (t : Ty) (a : Word) : Store := Function.update (givenStore t) { name := "x" } (some (.word a))

theorem mergingStore_x (t : Ty) (a : Word) : mergingStore t a { name := "x" } = some (.word a) :=
  Function.update_self _ _ _

theorem mergingStore_update (t : Ty) (a b : Word) :
    Function.update (mergingStore t a) { name := "x" } (some (.word b)) = mergingStore t b :=
  Function.update_idem _ _ _

theorem mergingStore_param {t : Ty} (ht : t.holdsInt = false) (a : Word) {u : Var}
    (hu : u ∈ [(⟨"p", t⟩ : Var), ⟨"q", t⟩]) : mergingStore t a u = some .other := by
  have hux : u ≠ { name := "x" } := by
    rintro rfl
    simp only [List.mem_cons, Var.mk.injEq, List.not_mem_nil, or_false] at hu
    rcases hu with ⟨-, rfl⟩ | ⟨-, rfl⟩ <;> cases ht
  rw [mergingStore, Function.update_of_ne hux]
  exact if_pos hu

/-- The comparison is false both times, so `x` is zero at the branch, and the statement after the branch is executed. -/
theorem executes_merging {t : Ty} (ht : t ∈ untracked) : (mergingGraph t).Executes 5 (mergingStore t 0) := by
  obtain ⟨⟨hparams, hint⟩, h₁, h₂, h₃, h₄, -⟩ := statements_merging t ht
  have hedge := edges_merging t ht
  have hother : ∀ u ∈ [(⟨"p", t⟩ : Var), ⟨"q", t⟩], mergingStore t 1 u = some .other :=
    fun u hu => mergingStore_param hint 1 hu
  have hassigned : ∀ u ∈ [(⟨"p", t⟩ : Var), ⟨"q", t⟩], mergingStore t 1 u ≠ none := by
    intro u hu
    rw [hother u hu]
    exact Option.some_ne_none _
  have hentry : (mergingGraph t).Executes 1 (givenStore t) :=
    executes_along (.entry (initial_givenStore hparams hint)) rfl (Store.steps_nop _) (hedge (0, 1, .entry) (by simp))
      fun _ _ => trivial
  have hone : (mergingGraph t).Executes 2 (mergingStore t 1) :=
    executes_along hentry h₁ (Store.steps_assign rfl (fun u hu => absurd hu List.not_mem_nil) (fun hf => hf)
      ⟨fun b hb => Option.some.inj hb, fun _ _ _ he => nomatch he⟩) (hedge (1, 2, .fallThrough) (by simp))
      fun _ _ => trivial
  have hbranch : (mergingGraph t).Executes 3 (mergingStore t 1) :=
    executes_along hone h₂ (Store.steps_branch hassigned fun hf => absurd hf.1 (by decide))
      (hedge (2, 3, .ifFalse) (by simp)) fun _ => takes_ifFalse (results_compare (hother _ List.mem_cons_self))
  have hzero : (mergingGraph t).Executes 4 (mergingStore t 0) := by
    rw [← mergingStore_update t 1 0]
    exact executes_along hbranch h₃ (Store.steps_assign rfl hassigned (fun hf => absurd hf.1 (by decide))
      (results_compare (hother _ List.mem_cons_self))) (hedge (3, 4, .fallThrough) (by simp)) fun _ _ => trivial
  refine executes_along hzero h₄ (Store.steps_branch ?_ fun hf => absurd hf.1 (by decide))
    (hedge (4, 5, .ifFalse) (by simp)) fun _ => takes_ifFalse ⟨?_, fun _ _ _ _ => ⟨false, rfl⟩⟩
  · intro u hu
    rw [List.mem_singleton.1 hu, mergingStore_x]
    exact Option.some_ne_none _
  · intro b c hb hc
    simp only [Store.word?, mergingStore_x, Option.some.injEq] at hb hc
    subst hb hc
    decide

/-! ## What detection depends on -/

/-- Statements that are executed may be found unreachable because definitions may read variables that are not tracked:
if the variables that definitions of variables that hold integers read are confined to some kinds of types, detection
spares what is executed in all routines, whatever solutions it is given, exactly if all of these kinds hold integers. -/
theorem spares_iff (kinds : Set (Option Primitive)) :
    (∀ text name r g settings settings' constants live findings, Reading.read text name = .ok r →
      Graph.build r = .ok g → (∀ kind, Reads r kind → kind ∈ kinds) →
      Constants.analysis.solve g settings = .ok constants → Liveness.analysis.solve g settings' = .ok live →
      detect g constants.toFacts live.toFacts = .ok findings → Spares g findings) ↔
      ∀ kind ∈ kinds, kind.any Primitive.holdsInt = true := by
  constructor
  · intro h kind hkind
    by_contra hint
    obtain ⟨t, ht, rfl⟩ := exists_untracked hint
    obtain ⟨constants, live, hread, hbuild, hconstants, hlive, hfindings⟩ := merging_ok ht
    obtain ⟨-, -, -, -, -, hnode⟩ := statements_merging t ht
    have hspares := h _ _ _ _ _ _ constants live _ hread hbuild (fun k hk => reads_merging ht hk ▸ hkind) hconstants
      hlive hfindings
    exact hspares 4 5 _ hnode (executes_merging ht) List.mem_cons_self
  · intro hkinds text name r g settings settings' constants live findings hread hbuild hreads hconstants _ hfindings
    exact spares_of_intOperands hread hbuild (intOperands_of_reads fun k hk => hkinds k (hreads k hk)) hconstants
      hfindings

/-- An execution arrives at a statement that has been found unreachable. -/
theorem merging_not_spared :
    ∃ r g constants live p σ, Reading.read (merging (.primitive .long)) "main" = .ok r ∧ Graph.build r = .ok g ∧
      Constants.analysis.solve g {} = .ok constants ∧ Liveness.analysis.solve g {} = .ok live ∧
      detect g constants.toFacts live.toFacts = .ok [⟨4, .unreachable⟩] ∧ g.node p = .stmt 4 ∧ g.Executes p σ := by
  have hlong : .primitive .long ∈ untracked := List.mem_cons_self
  obtain ⟨constants, live, hread, hbuild, hconstants, hlive, hfindings⟩ := merging_ok hlong
  obtain ⟨-, -, -, -, -, hnode⟩ := statements_merging _ hlong
  exact ⟨_, _, constants, live, 5, _, hread, hbuild, hconstants, hlive, hfindings, hnode, executes_merging hlong⟩

end DeadCode

end Dataflow
