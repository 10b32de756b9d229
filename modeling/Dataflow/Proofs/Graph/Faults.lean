import Dataflow.Proofs.Graph.Adjacency
/-!
# Why a graph cannot be built

The ways out of a statement are edges that a graph takes, so building a graph fails only at a statement whose ways are
not known (`ways_of_build_error`). Where all jumps go to statements of the routine, that is a switch without targets
(`noTargets_of_build_error`).
-/
namespace Dataflow

/-- Where a statement jumps, the arms of a switch first. The default of a switch may be missing. -/
def Stmt.jumps {τ : Type} : Stmt τ → List (Option τ)
  | branch _ target | goto target => [target]
  | switch _ cases default => cases.map (·.2) ++ default.toList.map some
  | assign .. | invoke .. | .return _ | nop => []

namespace Graph

/-- A statement jumps to statements of its routine only. -/
def Inside (r : Routine) (s : Statement) : Prop := ∀ t ∈ s.jumps, ∃ j < r.size, t = some (.stmt j)

/-- A way that an edge can take: it leads to a statement or to the exit, and has a case value if its kind asks for one. -/
structure Way.Fits (r : Routine) (w : Way) : Prop where
  target : w.target = .exit ∨ ∃ j < r.size, w.target = .stmt j
  caseValue : decide (w.kind = .switchCase) = w.caseValue.isSome

variable {g : Graph} {r : Routine} {i : Nat} {s : Statement} {ws : List Way}

/-! ## Ways out of a statement -/

theorem destination_eq_ok {target : Option Target} {n : Node} (h : destination r i s target = .ok n) :
    ∃ j < r.size, target = some (.stmt j) ∧ n = .stmt j := by
  unfold destination at h
  simp only at h
  split at h
  next j =>
    split at h
    next hj =>
      cases h
      exact ⟨j, hj, rfl, rfl⟩
    next => cases h
  next => cases h

theorem exists_destination {target : Option Target} (h : ∃ j < r.size, target = some (.stmt j)) :
    ∃ n, destination r i s target = .ok n := by
  obtain ⟨j, hj, rfl⟩ := h
  exact ⟨.stmt j, if_pos hj⟩

theorem target_after (r : Routine) (i : Nat) : after r i = .exit ∨ ∃ j < r.size, after r i = .stmt j := by
  unfold after
  split
  next h => exact .inr ⟨i + 1, h, rfl⟩
  next => exact .inl rfl

theorem target_of_destination {target : Option Target} {n : Node} (h : destination r i s target = .ok n) :
    n = .exit ∨ ∃ j < r.size, n = .stmt j := by
  obtain ⟨j, hj, -, rfl⟩ := destination_eq_ok h
  exact .inr ⟨j, hj, rfl⟩

theorem fits_of_ways (h : ways r i s = .ok ws) : ∀ w ∈ ws, w.Fits r := by
  cases s with
  | assign | invoke | nop =>
    cases h
    exact List.forall_mem_singleton.2 ⟨target_after r i, rfl⟩
  | «return» value =>
    cases h
    exact List.forall_mem_singleton.2 ⟨.inl rfl, rfl⟩
  | goto target =>
    obtain ⟨n, hn, h⟩ := bind_ok_iff.1 h
    cases h
    exact List.forall_mem_singleton.2 ⟨target_of_destination hn, rfl⟩
  | branch condition target =>
    obtain ⟨n, hn, h⟩ := bind_ok_iff.1 h
    cases h
    exact List.forall_mem_cons.2 ⟨⟨target_of_destination hn, rfl⟩, List.forall_mem_singleton.2 ⟨target_after r i, rfl⟩⟩
  | switch scrutinee cases default =>
    unfold ways at h
    simp only at h
    split at h
    · cases h
    · obtain ⟨arms, harms, h⟩ := bind_ok_iff.1 h
      obtain ⟨last, hlast, h⟩ := bind_ok_iff.1 h
      cases h
      refine List.forall_mem_append.2 ⟨fun w hw => ?_, fun w hw => ?_⟩
      · obtain ⟨arm, -, harm⟩ := exists_of_mem_mapM harms w hw
        obtain ⟨n, hn, heq⟩ := bind_ok_iff.1 harm
        cases heq
        exact ⟨target_of_destination hn, rfl⟩
      · obtain ⟨target, -, hway⟩ := exists_of_mem_mapM hlast w hw
        obtain ⟨n, hn, heq⟩ := bind_ok_iff.1 hway
        cases heq
        exact ⟨target_of_destination hn, rfl⟩

theorem exists_ways (hs : Inside r s) (hswitch : ∀ scrutinee, s ≠ .switch scrutinee [] none) :
    ∃ ws, ways r i s = .ok ws := by
  cases s with
  | assign | invoke | nop | «return» => exact ⟨_, rfl⟩
  | goto target | branch condition target =>
    obtain ⟨n, hn⟩ := exists_destination (hs _ List.mem_cons_self)
    exact ⟨_, bind_ok_iff.2 ⟨n, hn, rfl⟩⟩
  | switch scrutinee cases default =>
    have hsome : ¬ (cases.isEmpty ∧ default.isNone) := by
      rw [List.isEmpty_iff, Option.isNone_iff_eq_none]
      rintro ⟨rfl, rfl⟩
      exact hswitch scrutinee rfl
    simp only [ways, if_neg hsome]
    obtain ⟨arms, harms⟩ : ∃ arms, cases.mapM (m := Except BuildError) (fun arm => do
        return (⟨← destination r i (.switch scrutinee cases default) arm.2, .switchCase, some arm.1⟩ : Way)) =
          .ok arms := by
      refine exists_mapM fun arm harm => ?_
      obtain ⟨n, hn⟩ := exists_destination (hs arm.2 (List.mem_append_left _ (List.mem_map_of_mem harm)))
      exact ⟨_, bind_ok_iff.2 ⟨n, hn, rfl⟩⟩
    obtain ⟨last, hlast⟩ : ∃ last, default.toList.mapM (m := Except BuildError) (fun target => do
        return (⟨← destination r i (.switch scrutinee cases default) (some target), .switchDefault, none⟩ : Way)) =
          .ok last := by
      refine exists_mapM fun target htarget => ?_
      obtain ⟨n, hn⟩ := exists_destination (hs (some target) (List.mem_append_right _ (List.mem_map_of_mem htarget)))
      exact ⟨_, bind_ok_iff.2 ⟨n, hn, rfl⟩⟩
    exact ⟨_, bind_ok_iff.2 ⟨arms, harms, bind_ok_iff.2 ⟨last, hlast, rfl⟩⟩⟩

/-- Where all jumps stay inside, only a switch without targets has no ways out. -/
theorem noTargets_of_ways_error {e : BuildError} (hs : Inside r s) (h : ways r i s = .error e) :
    ∃ scrutinee, s = .switch scrutinee [] none ∧ e = .malformed (.noTargets i) := by
  by_cases hswitch : ∃ scrutinee, s = .switch scrutinee [] none
  · obtain ⟨scrutinee, rfl⟩ := hswitch
    cases h
    exact ⟨scrutinee, rfl, rfl⟩
  · obtain ⟨ws, hws⟩ := exists_ways (i := i) hs (not_exists.1 hswitch)
    rw [hws] at h
    cases h

/-! ## Building -/

theorem exists_addEdge {source : Node} (hsource : source = .entry ∨ ∃ i < g.routine.size, source = .stmt i) {w : Way}
    (hw : w.Fits g.routine) : ∃ g' e, g.addEdge source w.target w.kind w.caseValue = .ok (g', e) := by
  obtain ⟨s, hs, hne⟩ : ∃ s, g.position? source = some s ∧ source ≠ .exit := by
    rcases hsource with rfl | ⟨i, hi, rfl⟩
    · exact ⟨_, rfl, by simp⟩
    · exact ⟨_, dif_pos hi, by simp⟩
  obtain ⟨t, ht, hne'⟩ : ∃ t, g.position? w.target = some t ∧ w.target ≠ .entry := by
    rcases hw.target with htarget | ⟨j, hj, htarget⟩
    · rw [htarget]
      exact ⟨_, rfl, by simp⟩
    · rw [htarget]
      exact ⟨_, dif_pos hj, by simp⟩
  have he : g.Joins ⟨source, w.target, w.kind, w.caseValue⟩ s t :=
    ⟨hs, ht, hne, hne', by simpa using congrArg (· = true) hw.caseValue⟩
  obtain ⟨g', hadd⟩ := addEdge_of_joins he
  exact ⟨g', _, hadd⟩

theorem exists_addWays {source : Node} (hsource : source = .entry ∨ ∃ i < g.routine.size, source = .stmt i)
    (hws : ∀ w ∈ ws, w.Fits g.routine) : ∃ g', g.addWays source ws = .ok g' ∧ g'.routine = g.routine := by
  refine foldlM_succeeds (P := fun g' : Graph => g'.routine = g.routine) (fun g₁ w hw hr => ?_) (fun _ hr => hr) rfl
  obtain ⟨g₂, e, hadd⟩ := exists_addEdge (g := g₁) (hr ▸ hsource) (hr ▸ hws w hw)
  obtain ⟨-, s, t, -, rfl⟩ := addEdge_eq_ok hadd
  exact ⟨g₁.insert e s t, by rw [hadd], hr⟩

theorem firstWay_fits (r : Routine) : Way.Fits r ⟨if 0 < r.size then .stmt 0 else .exit, .entry, none⟩ := by
  refine ⟨?_, rfl⟩
  simp only
  split
  next hr => exact .inr ⟨0, hr, rfl⟩
  next => exact .inl rfl

/-- Edges are added only for statements whose ways are known. -/
theorem exists_ways_of_foldlM {l : List (Line × Nat)} {g' : Graph}
    (h : l.foldlM (fun g (line, i) => do g.addWays (.stmt i) (← ways r i line.stmt)) g = .ok g') :
    ∀ numbered ∈ l, ∃ ws, ways r numbered.2 numbered.1.stmt = .ok ws := by
  refine foldlM_keeps_prefix (P := fun done _ => ∀ numbered ∈ done, ∃ ws, ways r numbered.2 numbered.1.stmt = .ok ws)
    (fun done numbered rest g₁ g₂ _ hdone hadd => ?_) h fun _ hmem => absurd hmem List.not_mem_nil
  obtain ⟨ws, hws, -⟩ := bind_ok_iff.1 hadd
  exact List.forall_mem_append.2 ⟨hdone, List.forall_mem_singleton.2 ⟨ws, hws⟩⟩

theorem exists_ways_of_build (h : build r = .ok g) {line : Line} (hline : r.body[i]? = some line) :
    ∃ ws, ways r i line.stmt = .ok ws := by
  obtain ⟨g₀, -, hbody⟩ := bind_ok_iff.1 h
  refine exists_ways_of_foldlM hbody (line, i) (List.mem_zipIdx_iff_getElem?.2 ?_)
  rw [Array.getElem?_toList]
  exact hline

/-- A graph is built unless the ways out of some statement are not known, and the first of these says why. -/
theorem ways_of_build_error {e : BuildError} (h : build r = .error e) :
    ∃ i line, r.body[i]? = some line ∧ ways r i line.stmt = .error e ∧
      ∀ j < i, ∀ line', r.body[j]? = some line' → ∃ ws, ways r j line'.stmt = .ok ws := by
  obtain ⟨g₀, hentry, hroutine⟩ := exists_addWays (g := Graph.empty r) (.inl rfl)
    (List.forall_mem_singleton.2 (firstWay_fits r))
  rcases bind_error_iff.1 h with hfail | ⟨g₀', hentry', hbody⟩
  · rw [hentry] at hfail
    cases hfail
  rw [hentry] at hentry'
  cases hentry'
  obtain ⟨done, ⟨line, i⟩, rest, g₁, hsplit, hdone, hfail⟩ := foldlM_error_iff.1 hbody
  have hget : ∀ j : Nat, (done ++ (line, i) :: rest)[j]? = r.body[j]?.map fun line => (line, j) := by
    intro j
    rw [← hsplit, List.getElem?_zipIdx, Array.getElem?_toList, Nat.zero_add]
  -- The statement stands after as many as have been done before it.
  have hline : r.body[i]? = some line ∧ i = done.length := by
    have hhere := hget done.length
    rw [List.getElem?_append_right (Nat.le_refl _), Nat.sub_self, List.getElem?_cons_zero] at hhere
    obtain ⟨line', hline', heq⟩ := Option.map_eq_some_iff.1 hhere.symm
    cases heq
    exact ⟨hline', rfl⟩
  obtain ⟨hline, hi⟩ := hline
  refine ⟨i, line, hline, ?_, fun j hj line' hline' => ?_⟩
  · have hroutine₁ : g₁.routine = r := by
      refine foldlM_keeps (P := fun g : Graph => g.routine = r) (fun g₁ g₂ numbered _ hr hadd => ?_) hdone hroutine
      obtain ⟨ws, -, hadd⟩ := bind_ok_iff.1 hadd
      exact (routine_addWays hadd).trans hr
    rcases bind_error_iff.1 hfail with hways | ⟨ws, hways, hadd⟩
    · exact hways
    · -- The graph takes all ways that there are.
      obtain ⟨hlt, -⟩ := Array.getElem?_eq_some_iff.1 hline
      obtain ⟨g₂, hg₂, -⟩ := exists_addWays (g := g₁) (.inr ⟨i, hroutine₁.symm ▸ hlt, rfl⟩)
        (hroutine₁.symm ▸ fits_of_ways hways)
      rw [hg₂] at hadd
      cases hadd
  · have hj' := hget j
    rw [List.getElem?_append_left (hi ▸ hj), hline'] at hj'
    exact exists_ways_of_foldlM hdone _ (List.mem_of_getElem? hj')

/-- Where all jumps stay inside, a graph is built unless some switch has no targets. -/
theorem noTargets_of_build_error {e : BuildError} (hr : ∀ line ∈ r.body, Inside r line.stmt) (h : build r = .error e) :
    ∃ i scrutinee, r.stmt? i = some (.switch scrutinee [] none) ∧ e = .malformed (.noTargets i) := by
  obtain ⟨i, line, hline, hways, -⟩ := ways_of_build_error h
  obtain ⟨scrutinee, hswitch, rfl⟩ := noTargets_of_ways_error (hr line (Array.mem_of_getElem? hline)) hways
  refine ⟨i, scrutinee, ?_, rfl⟩
  rw [Routine.stmt?, hline, Option.map_some, hswitch]

end Graph

end Dataflow
