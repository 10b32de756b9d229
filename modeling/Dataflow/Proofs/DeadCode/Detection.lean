import Dataflow.Proofs.Constants.Folding
import Dataflow.Proofs.DeadCode.Findings
import Dataflow.Proofs.Graph.Adjacency
import Dataflow.Proofs.Graph.Search
import Dataflow.Proofs.Routine.Fits
/-!
# What detection computes

Detection is given facts of any kind, solved or not. An edge is feasible as far as they leave it open (`Keeps`), and
what is found is what its definition says of the places that feasible edges reach. There is one failure: a switch on a
constant that has no arm for it and no default (`Stuck`). A search does not pass such a switch, so detection fails
exactly if feasible edges reach one (`detect_eq_error_iff`). It refuses the graph as malformed then, unless the constant
has too many digits for the message (`detects_iff`).
-/
namespace Dataflow.DeadCode

/-! ## Feasible edges -/

/-- An edge that a switch takes for a constant. -/
def IsCase (n : Int) (e : Edge) : Prop := e.kind = .switchCase ∧ e.caseValue = some n

/-- The first edge for a constant; if there is none, the first default edge. -/
def IsArm (n : Int) (edges : List Edge) (e : Edge) : Prop :=
  IsFirst (IsCase n) edges e ∨ (∀ e' ∈ edges, ¬ IsCase n e') ∧ IsFirst (·.kind = .switchDefault) edges e

/-- Of the edges out of a statement, those that an environment leaves open. Only a constant that decides the branch
closes any. -/
def Keeps (s : Statement) (env : Env) (edges : List Edge) (e : Edge) : Prop :=
  e ∈ edges ∧
    match s with
    | .branch condition _ => ∀ n, Constants.evaluate env condition = .ok (.const n) →
      e.kind = if n = 0 then .ifFalse else .ifTrue
    | .switch scrutinee _ _ => ∀ n, env.get scrutinee = .const n → IsArm n edges e
    | _ => True

/-- A switch on a constant that has neither an edge for it nor a default edge. -/
def Stuck (s : Statement) (env : Env) (edges : List Edge) (n : Int) : Prop :=
  (∃ v cases default, s = .switch v cases default ∧ env.get v = .const n) ∧
    ∀ e ∈ edges, ¬ IsCase n e ∧ e.kind ≠ .switchDefault

/-- If the statement is a branch, its condition is a comparison. -/
def comparing : Statement → Bool
  | .branch (.binary (.compare _) _ _) _ => true
  | .branch _ _ => false
  | _ => true

variable {s : Statement} {env : Env} {edges kept : List Edge} {e : Edge} {n index : Int} {err : DetectError}

theorem find?_case_eq_none_iff :
    (edges.find? fun e => e.kind = .switchCase ∧ e.caseValue = some n) = none ↔ ∀ e ∈ edges, ¬ IsCase n e := by
  simp only [List.find?_eq_none, decide_eq_true_eq, IsCase]

theorem armFor?_eq_some_iff : armFor? edges n = some e ↔ IsArm n edges e := by
  rw [armFor?, Option.or_eq_some_iff, find?_case_eq_none_iff]
  exact or_congr find?_eq_some_iff_isFirst (and_congr_right fun _ => find?_eq_some_iff_isFirst)

theorem armFor?_eq_none_iff : armFor? edges n = none ↔ ∀ e ∈ edges, ¬ IsCase n e ∧ e.kind ≠ .switchDefault := by
  rw [armFor?, Option.or_eq_none_iff, find?_case_eq_none_iff, forall₂_and]
  simp only [List.find?_eq_none, decide_eq_true_eq, ne_eq]

theorem IsArm.mem (h : IsArm n edges e) : e ∈ edges := by
  rcases h with ⟨before, after, rfl, -⟩ | ⟨-, before, after, rfl, -⟩ <;> simp

theorem IsArm.unique {e' : Edge} (h : IsArm n edges e) (h' : IsArm n edges e') : e' = e := by
  rw [← armFor?_eq_some_iff] at h h'
  exact Option.some.inj (h'.symm.trans h)

/-- The edges that detection goes on with are those that the environment leaves open. -/
theorem mem_feasible_iff (h : feasible index s env edges = .ok kept) : e ∈ kept ↔ Keeps s env edges e := by
  unfold feasible at h
  unfold Keeps
  cases s with
  | branch condition target =>
    simp only at h ⊢
    cases hevaluate : Constants.evaluate env condition with
    | error => simp [hevaluate] at h
    | ok v =>
      rw [hevaluate] at h
      cases v with
      | undefined | nac =>
        cases h
        simp
      | const n =>
        cases h
        simp [List.mem_filter]
  | switch scrutinee cases default =>
    simp only at h ⊢
    cases hget : env.get scrutinee with
    | undefined | nac =>
      rw [hget] at h
      cases h
      simp
    | const n =>
      rw [hget] at h
      cases harm : armFor? edges n with
      | none => simp [harm] at h
      | some arm =>
        simp only [harm, Except.ok.injEq] at h
        have harm' := armFor?_eq_some_iff.1 harm
        simp only [← h, List.mem_singleton, Value.const.injEq, forall_eq']
        constructor
        · rintro rfl
          exact ⟨harm'.mem, harm'⟩
        · exact fun he => harm'.unique he.2
  | assign | invoke | goto | «return» | nop =>
    cases h
    simp

theorem exists_evaluate_of_comparing {condition : Expr} {target : Option Target}
    (hs : comparing (.branch condition target) = true) (env : Env) : ∃ v, Constants.evaluate env condition = .ok v := by
  unfold comparing at hs
  split at hs
  next op l r _ heq =>
    cases heq
    refine Constants.exists_binary_of_not_dvd fun n hdiv => ?_
    cases hdiv
  next => cases hs
  next hne => exact absurd rfl (hne _ _)

/-- Comparisons have values, so nothing but a switch fails. -/
theorem feasible_eq_error_iff (hs : comparing s = true) :
    feasible index s env edges = .error err ↔ ∃ n, Stuck s env edges n ∧ err = .noArm index n := by
  unfold feasible Stuck
  cases s with
  | branch condition target =>
    obtain ⟨v, hv⟩ := exists_evaluate_of_comparing hs env
    simp only [hv]
    cases v <;> simp
  | switch scrutinee cases default =>
    simp only [← armFor?_eq_none_iff]
    cases hget : env.get scrutinee with
    | undefined | nac => simp [hget]
    | const n =>
      cases harm : armFor? edges n with
      | none => simp [hget, harm, eq_comm]
      | some arm => simp [hget, harm]
  | assign | invoke | goto | «return» | nop => simp

/-! ## Places that feasible edges reach -/

/-- From one place to the next along a feasible edge. -/
def Passes (g : Graph) (constants : Facts Env g.size) (p q : Fin g.size) : Prop :=
  ∃ e, Keeps (g.point p).stmt (constants.outs.get p) (g.outgoing.get p).toList e ∧ e.target = g.node q

/-- Feasible edges lead from the entry to the place. -/
def Reached (g : Graph) (constants : Facts Env g.size) (p : Fin g.size) : Prop :=
  Relation.ReflTransGen (Passes g constants) g.entry p

/-- The place is a switch on a constant with neither an edge for it nor a default edge. -/
def StuckAt (g : Graph) (constants : Facts Env g.size) (p : Fin g.size) (n : Int) : Prop :=
  Stuck (g.point p).stmt (constants.outs.get p) (g.outgoing.get p).toList n

/-- An assignment to a variable that is not live after it, of a value that is not missed. -/
def Useless (g : Graph) (live : Facts VarSet g.size) (p : Fin g.size) : Prop :=
  ∃ v value, (g.point p).stmt = .assign (.var v) value ∧ value.isPure = true ∧ v ∉ live.outs.get p

/-- Every branch of the routine compares. -/
def Comparing (r : Routine) : Prop := ∀ line ∈ r.body, comparing line.stmt = true

instance (r : Routine) : Decidable (Comparing r) :=
  inferInstanceAs (Decidable (∀ line ∈ r.body, comparing line.stmt = true))

variable {g : Graph} {constants : Facts Env g.size} {live : Facts VarSet g.size} {p q : Fin g.size}
  {findings : List Finding}

theorem Comparing.point (h : Comparing g.routine) (p : Fin g.size) : comparing (g.point p).stmt = true := by
  rcases g.exists_line p with hnop | ⟨line, hline, heq⟩
  · rw [hnop]
    rfl
  · exact heq ▸ h line hline

theorem feasibleSuccs_eq_error_iff (h : Comparing g.routine) :
    feasibleSuccs g constants p = .error err ↔
      ∃ n, StuckAt g constants p n ∧ err = .noArm (g.point p).index n := by
  unfold StuckAt
  rw [← feasible_eq_error_iff (h.point p), feasibleSuccs]
  cases feasible (g.point p).index (g.point p).stmt (constants.outs.get p) (g.outgoing.get p).toList <;>
    simp [Except.map]

theorem passes_of_next (h : Graph.Next (feasibleSuccs g constants) p q) : Passes g constants p q := by
  obtain ⟨qs, hqs, hq⟩ := h
  obtain ⟨kept, hkept, rfl⟩ := map_ok_iff.1 hqs
  obtain ⟨e, he, htarget⟩ := List.mem_filterMap.1 hq
  exact ⟨e, (mem_feasible_iff hkept).1 he, (Graph.node_of_position? htarget).symm⟩

theorem next_of_passes (h : Comparing g.routine) (hpq : Passes g constants p q) :
    Graph.Next (feasibleSuccs g constants) p q := by
  obtain ⟨e, hkeeps, htarget⟩ := hpq
  cases hsuccs : feasibleSuccs g constants p with
  | error err =>
    -- No edge of a switch is feasible where it is stuck.
    obtain ⟨n, ⟨⟨v, cases, default, hswitch, hget⟩, hnone⟩, -⟩ := (feasibleSuccs_eq_error_iff h).1 hsuccs
    rw [hswitch] at hkeeps
    have harm := hkeeps.2 n hget
    rw [← armFor?_eq_some_iff, armFor?_eq_none_iff.2 hnone] at harm
    cases harm
  | ok qs =>
    obtain ⟨kept, hkept, rfl⟩ := map_ok_iff.1 hsuccs
    exact ⟨_, hsuccs, List.mem_filterMap.2 ⟨e, (mem_feasible_iff hkept).2 hkeeps, by rw [htarget, g.position?_node]⟩⟩

theorem reached_iff (h : Comparing g.routine) :
    Relation.ReflTransGen (Graph.Next (feasibleSuccs g constants)) g.entry p ↔ Reached g constants p := by
  constructor
  · exact Relation.ReflTransGen.mono (fun _ _ => passes_of_next) _ _
  · exact Relation.ReflTransGen.mono (fun _ _ => next_of_passes h) _ _

/-- Feasible edges are edges. -/
theorem mem_reachableFrom_of_reached (h : Reached g constants p) : p ∈ g.reachableFrom g.entry := by
  refine Graph.mem_reachableFrom_iff.2 (Relation.ReflTransGen.mono (fun p q hpq => ?_) _ _ h)
  obtain ⟨e, hkeeps, htarget⟩ := hpq
  exact List.mem_filterMap.2 ⟨e, hkeeps.1, by rw [htarget, g.position?_node]⟩

/-! ## Detection -/

/-- The places that feasible edges reach, in the order in which a search finds them, breadth first. -/
def reachedOrder (g : Graph) (constants : Facts Env g.size) : List (Fin g.size) :=
  Graph.order (feasibleSuccs g constants) g.entry

theorem mem_reachedOrder_iff (h : Comparing g.routine) : p ∈ reachedOrder g constants ↔ Reached g constants p :=
  Graph.mem_order_iff.trans (reached_iff h)

/-- The first switch in that order that is stuck. -/
def FirstStuck (g : Graph) (constants : Facts Env g.size) (p : Fin g.size) (n : Int) : Prop :=
  IsFirst (fun q => ∃ m, StuckAt g constants q m) (reachedOrder g constants) p ∧ StuckAt g constants p n

theorem FirstStuck.reached (h : Comparing g.routine) (hp : FirstStuck g constants p n) : Reached g constants p :=
  (mem_reachedOrder_iff h).1 hp.1.mem

theorem exists_firstStuck (h : Comparing g.routine) (hp : Reached g constants p) (hstuck : StuckAt g constants p n) :
    ∃ q m, FirstStuck g constants q m := by
  obtain ⟨q, hq⟩ := (exists_isFirst_iff (P := fun q => ∃ m, StuckAt g constants q m)).2
    ⟨p, (mem_reachedOrder_iff h).2 hp, n, hstuck⟩
  obtain ⟨m, hm⟩ := hq.holds
  exact ⟨q, m, hq, hm⟩

/-- Detection fails exactly if feasible edges reach a switch that is stuck, and at the first of these. -/
theorem detect_eq_error_iff (h : Comparing g.routine) :
    detect g constants live = .error err ↔ ∃ p n, FirstStuck g constants p n ∧ err = .noArm (g.point p).index n := by
  have hdetect : detect g constants live = .error err ↔ reachable g constants = .error err :=
    bind_error_iff.trans (or_iff_left fun ⟨_, _, hfindings⟩ => nomatch hfindings)
  have hfails : (fun q => ∃ e, feasibleSuccs g constants q = .error e) = fun q => ∃ m, StuckAt g constants q m := by
    funext q
    simp [feasibleSuccs_eq_error_iff h, exists_comm]
  rw [hdetect, reachable, Graph.explore_eq_error_iff, hfails]
  refine exists_congr fun p => ?_
  rw [feasibleSuccs_eq_error_iff h, ← exists_and_left]
  exact exists_congr fun n => and_assoc.symm

/-! ## Findings -/

theorem exists_reason?_iff {reached : List (Fin g.size)} :
    (∃ reason, reason? g reached live p = some reason) ↔ p ∉ reached ∨ Useless g live p := by
  unfold reason? Useless
  rw [← isUseless_iff]
  by_cases hp : p ∈ reached <;> cases isUseless (g.point p).stmt (live.outs.get p) <;> simp [hp]

/-- The statements found are those that no feasible edges reach, and those that are useless. -/
theorem mem_indexes_iff (h : Comparing g.routine) (hdetect : detect g constants live = .ok findings) (i : Nat) :
    i ∈ findings.map (·.index) ↔ ∃ p, g.node p = .stmt i ∧ (¬ Reached g constants p ∨ Useless g live p) := by
  obtain ⟨reached, hreachable, hfindings⟩ := detect_eq_ok hdetect
  have hreached : ∀ p, p ∈ reached ↔ Reached g constants p :=
    fun p => (Graph.mem_explore_iff hreachable).trans (reached_iff h)
  simp only [← hreached, ← exists_reason?_iff, List.mem_map, hfindings]
  constructor
  · rintro ⟨f, ⟨p, hp, hreason⟩, rfl⟩
    exact ⟨p, hp, f.reason, hreason⟩
  · rintro ⟨p, hp, reason, hreason⟩
    exact ⟨⟨i, reason⟩, ⟨p, hp, hreason⟩, rfl⟩

theorem val_of_node {i : Nat} (h : g.node p = .stmt i) : p.val = i + 1 := by
  have hposition := Graph.node_eq_iff.1 h
  simp only [Graph.position?] at hposition
  split at hposition <;> cases hposition
  rfl

/-- Places are looked at in the order of their indexes. -/
theorem pairwise_indexes (hdetect : detect g constants live = .ok findings) :
    (findings.map (·.index)).Pairwise (· < ·) := by
  obtain ⟨reached, -, hfindings⟩ := bind_ok_iff.1 hdetect
  cases hfindings
  rw [List.pairwise_map, List.pairwise_filterMap]
  refine (List.pairwise_lt_finRange g.size).imp ?_
  intro p q hpq f hf f' hf'
  split at hf
  next i hi =>
    split at hf'
    next j hj =>
      obtain ⟨_, -, rfl⟩ := Option.map_eq_some_iff.1 hf
      obtain ⟨_, -, rfl⟩ := Option.map_eq_some_iff.1 hf'
      have hp := val_of_node hi
      have hq := val_of_node hj
      have hlt : p.val < q.val := hpq
      change i < j
      omega
    next => cases hf'
  next => cases hf

/-! ## Detection as it is meant -/

/-- Detection as it is meant. It refuses a graph as malformed exactly if feasible edges reach a switch that is stuck. If
they reach none, it finds, in order, the statements that feasible edges do not reach and those that are useless, and so
all that no edges reach. -/
structure Detects (g : Graph) (constants : Facts Env g.size) (live : Facts VarSet g.size) : Prop where
  refused : (∃ fault, detect g constants live = .error (.malformed fault)) ↔
    ∃ p n, Reached g constants p ∧ StuckAt g constants p n
  found : (¬ ∃ p n, Reached g constants p ∧ StuckAt g constants p n) →
    ∃ findings, detect g constants live = .ok findings ∧ (findings.map (·.index)).Pairwise (· < ·) ∧
      (∀ i, i ∈ findings.map (·.index) ↔ ∃ p, g.node p = .stmt i ∧ (¬ Reached g constants p ∨ Useless g live p)) ∧
      ∀ p i, g.node p = .stmt i → p ∉ g.reachableFrom g.entry → i ∈ findings.map (·.index)

theorem exists_malformed_iff {index n : Int} :
    (∃ fault, DetectError.noArm index n = .malformed fault) ↔ Decimal.Short n := by
  unfold DetectError.noArm
  by_cases hn : Decimal.Short n <;> simp [hn]

/-- Detection does as it is meant exactly if the first switch that is stuck, if there is one, is on a constant that the
message can show. -/
theorem detects_iff (h : Comparing g.routine) (constants : Facts Env g.size) (live : Facts VarSet g.size) :
    Detects g constants live ↔ ∀ p n, FirstStuck g constants p n → Decimal.Short n := by
  constructor
  · intro hdetects p n hfirst
    obtain ⟨fault, hfault⟩ := hdetects.refused.2 ⟨p, n, hfirst.reached h, hfirst.2⟩
    have herr : detect g constants live = .error (.noArm (g.point p).index n) :=
      (detect_eq_error_iff h).2 ⟨p, n, hfirst, rfl⟩
    exact exists_malformed_iff.1 ⟨fault, Except.error.inj (herr.symm.trans hfault)⟩
  · intro hshort
    cases hdetect : detect g constants live with
    | error err =>
      obtain ⟨p, n, hfirst, rfl⟩ := (detect_eq_error_iff h).1 hdetect
      obtain ⟨fault, hfault⟩ := exists_malformed_iff.2 (hshort p n hfirst)
      have hstuck : ∃ p n, Reached g constants p ∧ StuckAt g constants p n := ⟨p, n, hfirst.reached h, hfirst.2⟩
      exact ⟨iff_of_true ⟨fault, by rw [hdetect, hfault]⟩ hstuck, fun hnone => absurd hstuck hnone⟩
    | ok findings =>
      have hnofail : ∀ err, detect g constants live ≠ .error err := fun err herr => nomatch hdetect.symm.trans herr
      have hfree : ¬ ∃ p n, Reached g constants p ∧ StuckAt g constants p n := by
        rintro ⟨p, n, hp, hstuck⟩
        obtain ⟨q, m, hfirst⟩ := exists_firstStuck h hp hstuck
        exact hnofail _ ((detect_eq_error_iff h).2 ⟨q, m, hfirst, rfl⟩)
      have hmem := mem_indexes_iff h hdetect
      refine ⟨iff_of_false (fun ⟨_, hfault⟩ => hnofail _ hfault) hfree, fun _ => ⟨findings, hdetect, ?_⟩⟩
      refine ⟨pairwise_indexes hdetect, hmem, fun p i hp hout => ?_⟩
      exact (hmem i).2 ⟨p, hp, .inl (mt mem_reachableFrom_of_reached hout)⟩

/-! ## A switch with two edges for one constant -/

/-- A switch with two edges for 7 and no default edge. -/
def twice : Routine :=
  .ofStmts "twice" [{ name := "x" }]
    [.switch { name := "x" } [(7, some (.stmt 1)), (7, some (.stmt 2))] none, .return none, .return none] none

/-- The same fact before and after every node. -/
def everywhere {F : Type} (g : Graph) (x : F) : Facts F g.size := ⟨.replicate g.size x, .replicate g.size x⟩

/-- The same constant for `x` before and after every node. -/
def fixed (g : Graph) (n : Int) : Facts Env g.size := everywhere g (Env.empty.set { name := "x" } (.const n))

theorem eq_of_stuckAt_fixed {m : Int} (h : StuckAt g (fixed g m) p n) : n = m := by
  obtain ⟨⟨v, cases, default, -, hget⟩, -⟩ := h
  simp only [fixed, everywhere, get_replicate, Env.get_set] at hget
  split at hget
  · exact (Value.const.inj hget).symm
  · cases hget

/-- Where `x` is 7, only the first edge is feasible, so what the second leads to is not reached. Where it is 9, the
switch is stuck. -/
theorem detects_twice :
    ∃ g, Graph.build twice = .ok g ∧ Comparing g.routine ∧ (∃ p, g.node p = .stmt 2 ∧ ¬ Reached g (fixed g 7) p) ∧
      ∃ p n, Reached g (fixed g 9) p ∧ StuckAt g (fixed g 9) p n := by
  have hrun : ((Graph.build twice).toOption.map fun g : Graph =>
      decide (Comparing g.routine) && g.positions.all (fun p => !isUseless (g.point p).stmt .empty) &&
        decide (detect g (fixed g 7) (everywhere g .empty) = .ok [⟨2, .unreachable⟩]) &&
          decide (detect g (fixed g 9) (everywhere g .empty) = .error (.malformed (.noMatchingCase 0 "9")))) =
      some true := by
    decide +kernel
  obtain ⟨g, hg, h⟩ := Option.map_eq_some_iff.1 hrun
  simp only [Bool.and_eq_true, decide_eq_true_eq, List.all_eq_true, Bool.not_eq_true'] at h
  obtain ⟨⟨⟨hcomparing, hpure⟩, hseven⟩, hnine⟩ := h
  rw [toOption_eq_some] at hg
  have hdetects : ∀ m, Decimal.Short m → Detects g (fixed g m) (everywhere g .empty) := fun m hm =>
    (detects_iff hcomparing _ _).2 fun p n hfirst => eq_of_stuckAt_fixed hfirst.2 ▸ hm
  refine ⟨g, hg, hcomparing, ?_, (hdetects 9 (by decide)).refused.1 ⟨_, hnine⟩⟩
  obtain ⟨hrefused, hfound⟩ := hdetects 7 (by decide)
  rw [hseven] at hrefused hfound
  obtain ⟨findings, hfindings, -, hmem, -⟩ := hfound (mt hrefused.2 fun ⟨_, h⟩ => nomatch h)
  cases hfindings
  obtain ⟨p, hp, hdead⟩ := (hmem 2).1 List.mem_cons_self
  refine ⟨p, hp, hdead.resolve_right fun huseless => ?_⟩
  have hno := hpure p (List.mem_finRange p)
  rw [isUseless_iff.2] at hno
  · cases hno
  · simpa [Useless, everywhere] using huseless

/-- The least integer of too many digits. -/
def enormous : Int := .ofNat (Nat.pow 10 Decimal.maxDigits)

theorem not_short_enormous : ¬ Decimal.Short enormous := Decimal.not_short_pow (Nat.le_refl _)

/-- Where `x` is that integer, the switch is stuck as well, and no message can say so. -/
theorem not_detects_enormous :
    ∃ g, Graph.build twice = .ok g ∧ Comparing g.routine ∧ ¬ Detects g (fixed g enormous) (everywhere g .empty) := by
  have hrun : ((Graph.build twice).toOption.map fun g : Graph =>
      decide (Comparing g.routine) && (detect g (fixed g enormous) (everywhere g .empty)).toOption.isNone) =
      some true := by
    decide +kernel
  obtain ⟨g, hg, h⟩ := Option.map_eq_some_iff.1 hrun
  simp only [Bool.and_eq_true, decide_eq_true_eq] at h
  obtain ⟨hcomparing, hfails⟩ := h
  rw [toOption_eq_some] at hg
  refine ⟨g, hg, hcomparing, fun hdetects => ?_⟩
  cases hdetect : detect g (fixed g enormous) (everywhere g .empty) with
  | ok findings =>
    rw [hdetect] at hfails
    cases hfails
  | error err =>
    obtain ⟨p, n, hfirst, rfl⟩ := (detect_eq_error_iff hcomparing).1 hdetect
    obtain ⟨fault, hfault⟩ := hdetects.refused.2 ⟨p, n, hfirst.reached hcomparing, hfirst.2⟩
    have hshort : Decimal.Short n := exists_malformed_iff.1 ⟨fault, Except.error.inj (hdetect.symm.trans hfault)⟩
    exact not_short_enormous (eq_of_stuckAt_fixed hfirst.2 ▸ hshort)

end Dataflow.DeadCode
