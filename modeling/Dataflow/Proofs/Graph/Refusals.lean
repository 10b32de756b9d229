import Dataflow.Proofs.Graph.Faults
import Dataflow.Proofs.Routine.Texts
/-!
# Which routines are refused

A graph is built exactly if control can leave every statement of the routine (`exists_build_iff`). Otherwise the first
statement that it cannot leave decides how the routine is refused (`build_eq_error_iff`): as malformed, unless the
message would have to show that statement and it has no text (`refusesMalformed_iff`).
-/
namespace Dataflow.Graph

/-- Control can leave a statement: it jumps to statements of its routine only, and a switch has an arm or a default. -/
structure Leavable (r : Routine) (s : Statement) : Prop where
  inside : Inside r s
  targets : ∀ scrutinee, s ≠ .switch scrutinee [] none

/-- Control can leave every statement of a routine. -/
def WellFormed (r : Routine) : Prop := ∀ line ∈ r.body, Leavable r line.stmt

/-- The first statement that control cannot leave. -/
structure FirstFault (r : Routine) (i : Nat) (s : Statement) : Prop where
  here : r.stmt? i = some s
  fault : ¬ Leavable r s
  before : ∀ j < i, ∀ s', r.stmt? j = some s' → Leavable r s'

/-- How a routine is refused for a statement that control cannot leave. -/
def refusal (i : Nat) (s : Statement) : BuildError :=
  match s with
  | .switch _ [] none => .malformed (.noTargets i)
  | s => .showing (.outside i) s.text

variable {g : Graph} {r : Routine} {i : Nat} {s : Statement} {ws : List Way} {e : BuildError}

/-! ## One statement -/

theorem destination_eq_error {target : Option Target} (h : destination r i s target = .error e) :
    e = .showing (.outside i) s.text := by
  unfold destination at h
  simp only at h
  split at h
  · split at h
    · cases h
    · exact (Except.error.inj h).symm
  · exact (Except.error.inj h).symm

theorem leavable_of_ways (h : ways r i s = .ok ws) : Leavable r s := by
  have hinside : ∀ {target n}, destination r i s target = .ok n → ∃ j < r.size, target = some (.stmt j) := by
    intro target n hn
    obtain ⟨j, hj, htarget, -⟩ := destination_eq_ok hn
    exact ⟨j, hj, htarget⟩
  cases s with
  | assign | invoke | nop | «return» => exact ⟨fun _ ht => absurd ht List.not_mem_nil, nofun⟩
  | goto target | branch condition target =>
    obtain ⟨n, hn, -⟩ := bind_ok_iff.1 h
    exact ⟨List.forall_mem_singleton.2 (hinside hn), nofun⟩
  | switch scrutinee cases default =>
    unfold ways at h
    simp only at h
    split at h
    · cases h
    next hsome =>
      obtain ⟨arms, harms, h⟩ := bind_ok_iff.1 h
      obtain ⟨last, hlast, -⟩ := bind_ok_iff.1 h
      refine ⟨List.forall_mem_append.2 ⟨?_, ?_⟩, ?_⟩
      · refine List.forall_mem_map.2 fun arm harm => ?_
        obtain ⟨w, hw⟩ := exists_of_mapM harms arm harm
        obtain ⟨n, hn, -⟩ := bind_ok_iff.1 hw
        exact hinside hn
      · refine List.forall_mem_map.2 fun target htarget => ?_
        obtain ⟨w, hw⟩ := exists_of_mapM hlast target htarget
        obtain ⟨n, hn, -⟩ := bind_ok_iff.1 hw
        exact hinside hn
      · rintro _ ⟨⟩
        exact hsome ⟨rfl, rfl⟩

theorem refusal_of_ways (h : ways r i s = .error e) : e = refusal i s := by
  cases s with
  | assign | invoke | nop | «return» => cases h
  | goto target | branch condition target =>
    rcases bind_error_iff.1 h with hn | ⟨n, -, h⟩
    · exact destination_eq_error hn
    · cases h
  | switch scrutinee cases default =>
    unfold ways at h
    simp only at h
    split at h
    next hnone =>
      obtain ⟨hcases, hdefault⟩ := hnone
      rw [List.isEmpty_iff.1 hcases, Option.isNone_iff_eq_none.1 hdefault]
      exact (Except.error.inj h).symm
    next hsome =>
      have hrefusal : refusal i (.switch scrutinee cases default) =
          .showing (.outside i) (Stmt.switch scrutinee cases default).text := by
        unfold refusal
        split
        next heq =>
          cases heq
          exact absurd ⟨rfl, rfl⟩ hsome
        next => rfl
      rw [hrefusal]
      rcases bind_error_iff.1 h with harms | ⟨arms, -, h⟩
      · obtain ⟨arm, -, harm⟩ := exists_of_mapM_error harms
        rcases bind_error_iff.1 harm with hn | ⟨n, -, h⟩
        · exact destination_eq_error hn
        · cases h
      · rcases bind_error_iff.1 h with hlast | ⟨last, -, h⟩
        · obtain ⟨target, -, htarget⟩ := exists_of_mapM_error hlast
          rcases bind_error_iff.1 htarget with hn | ⟨n, -, h⟩
          · exact destination_eq_error hn
          · cases h
        · cases h

theorem ways_eq_error_iff : ways r i s = .error e ↔ ¬ Leavable r s ∧ e = refusal i s := by
  constructor
  · intro h
    refine ⟨fun hs => ?_, refusal_of_ways h⟩
    obtain ⟨ws, hws⟩ := exists_ways (i := i) hs.inside hs.targets
    rw [hws] at h
    cases h
  · rintro ⟨hs, rfl⟩
    cases hways : ways r i s with
    | ok ws => exact absurd (leavable_of_ways hways) hs
    | error e => rw [refusal_of_ways hways]

/-! ## The routine -/

theorem FirstFault.unique {i' : Nat} {s' : Statement} (h : FirstFault r i s) (h' : FirstFault r i' s') :
    i = i' ∧ s = s' := by
  obtain hlt | rfl | hlt := Nat.lt_trichotomy i i'
  · exact absurd (h'.before i hlt s h.here) h.fault
  · exact ⟨rfl, Option.some.inj (h.here.symm.trans h'.here)⟩
  · exact absurd (h.before i' hlt s' h'.here) h'.fault

theorem firstFault_of_build_error (h : build r = .error e) : ∃ i s, FirstFault r i s ∧ e = refusal i s := by
  obtain ⟨i, line, hline, hways, hbefore⟩ := ways_of_build_error h
  obtain ⟨hfault, rfl⟩ := ways_eq_error_iff.1 hways
  refine ⟨i, line.stmt, ⟨by rw [Routine.stmt?, hline, Option.map_some], hfault, fun j hj s' hs' => ?_⟩, rfl⟩
  obtain ⟨line', hline', rfl⟩ := Option.map_eq_some_iff.1 hs'
  obtain ⟨ws, hws⟩ := hbefore j hj line' hline'
  exact leavable_of_ways hws

theorem wellFormed_of_build (h : build r = .ok g) : WellFormed r := by
  intro line hmem
  obtain ⟨i, hline⟩ := Array.getElem?_of_mem hmem
  obtain ⟨ws, hws⟩ := exists_ways_of_build h hline
  exact leavable_of_ways hws

theorem FirstFault.not_wellFormed (h : FirstFault r i s) : ¬ WellFormed r := by
  intro hr
  obtain ⟨line, hline, rfl⟩ := Option.map_eq_some_iff.1 h.here
  exact h.fault (hr line (Array.mem_of_getElem? hline))

/-- A routine is refused exactly if control cannot leave some statement, and for the first of these. -/
theorem build_eq_error_iff : build r = .error e ↔ ∃ i s, FirstFault r i s ∧ e = refusal i s := by
  refine ⟨firstFault_of_build_error, ?_⟩
  rintro ⟨i, s, hfirst, rfl⟩
  cases hbuild : build r with
  | ok g => exact absurd (wellFormed_of_build hbuild) hfirst.not_wellFormed
  | error e =>
    obtain ⟨i', s', hfirst', rfl⟩ := firstFault_of_build_error hbuild
    obtain ⟨rfl, rfl⟩ := hfirst.unique hfirst'
    rfl

theorem exists_build_iff : (∃ g, build r = .ok g) ↔ WellFormed r := by
  constructor
  · rintro ⟨g, hg⟩
    exact wellFormed_of_build hg
  · intro hr
    cases hbuild : build r with
    | ok g => exact ⟨g, rfl⟩
    | error e =>
      obtain ⟨i, s, hfirst, -⟩ := firstFault_of_build_error hbuild
      exact absurd hr hfirst.not_wellFormed

theorem exists_showing_iff {fault : String → Malformed} {text : Except NoText String} :
    (∃ f, BuildError.showing fault text = .malformed f) ↔ ∃ t, text = .ok t := by
  cases text <;> simp [BuildError.showing]

/-- A statement is refused as malformed exactly if the message, where it shows the statement, can be given. -/
theorem exists_malformed_iff :
    (∃ fault, refusal i s = .malformed fault) ↔ ¬ s.LacksArm ∧ ∀ n ∈ s.literals, Decimal.Short n := by
  unfold refusal
  split
  · exact iff_of_true ⟨_, rfl⟩ (by simp [Stmt.LacksArm, Stmt.literals])
  · rw [exists_showing_iff, Stmt.exists_text_iff]

/-- A graph is built exactly if control can leave every statement, and every other routine is refused as malformed. -/
structure RefusesMalformed (r : Routine) : Prop where
  built : (∃ g, build r = .ok g) ↔ WellFormed r
  refused : ¬ WellFormed r → ∃ fault, build r = .error (.malformed fault)

/-- Building a graph accepts and refuses as it should exactly if the first statement that control cannot leave, if there
is one, is no switch with an arm that lacks its target and has no literal of too many digits. -/
theorem refusesMalformed_iff (r : Routine) :
    RefusesMalformed r ↔
      ∀ i s, FirstFault r i s → ¬ s.LacksArm ∧ ∀ n ∈ s.literals, Decimal.Short n := by
  constructor
  · intro h i s hfirst
    obtain ⟨fault, hfault⟩ := h.refused hfirst.not_wellFormed
    obtain ⟨i', s', hfirst', heq⟩ := build_eq_error_iff.1 hfault
    obtain ⟨rfl, rfl⟩ := hfirst.unique hfirst'
    exact exists_malformed_iff.1 ⟨fault, heq.symm⟩
  · intro h
    refine ⟨exists_build_iff, fun hr => ?_⟩
    cases hbuild : build r with
    | ok g => exact absurd (wellFormed_of_build hbuild) hr
    | error e =>
      obtain ⟨i, s, hfirst, rfl⟩ := firstFault_of_build_error hbuild
      obtain ⟨fault, hfault⟩ := exists_malformed_iff.2 (h i s hfirst)
      exact ⟨fault, by rw [hfault]⟩

/-- A switch with one arm, the target of which is not known. -/
def dangling : Routine := .ofStmts "main" [] [.switch { name := "x" } [(1, none)] none] none

theorem not_refusesMalformed_dangling : ¬ RefusesMalformed dangling := by
  intro h
  have hbuild : build dangling = .error (.noText .missing) := rfl
  have hr : ¬ WellFormed dangling := fun hr => by
    obtain ⟨g, hg⟩ := h.built.2 hr
    rw [hbuild] at hg
    cases hg
  obtain ⟨fault, hfault⟩ := h.refused hr
  rw [hbuild] at hfault
  cases hfault

end Dataflow.Graph
