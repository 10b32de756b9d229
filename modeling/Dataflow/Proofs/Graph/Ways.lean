import Dataflow.Proofs.Graph.Adjacency
import Dataflow.Proofs.Reading.Forms
/-!
# The edges of a routine

The edges of a flow graph are the ways out of its statements, and one edge out of the entry (`mem_edges_of_build`). If
no switch has two arms for one number, the edges out of a node are told apart by their kinds and case values
(`deterministic_build`), so that what decides a branch decides where it leads.
-/
namespace Dataflow.Graph

/-- The edge that a way out of a node makes. -/
def Way.edge (source : Node) (w : Way) : Edge := ⟨source, w.target, w.kind, w.caseValue⟩

/-- The edge out of the entry. -/
def firstEdge (r : Routine) : Edge := ⟨.entry, if 0 < r.size then .stmt 0 else .exit, .entry, none⟩

/-- The edge is a way out of a statement. -/
def Leaves (r : Routine) (i : Nat) (e : Edge) : Prop :=
  ∃ line ws, ∃ w ∈ ws, r.body[i]? = some line ∧ ways r i line.stmt = .ok ws ∧ e = w.edge (.stmt i)

/-- Edges out of one node that are alike in kind and case value are the same. -/
def Deterministic (g : Graph) : Prop :=
  ∀ e ∈ g.edges, ∀ e' ∈ g.edges, e.source = e'.source → e.kind = e'.kind → e.caseValue = e'.caseValue → e = e'

variable {g : Graph} {r : Routine} {i : Nat} {s : Statement} {ws : List Way}

/-! ## Where edges come from -/

theorem mem_edges_addWays {g' : Graph} {source : Node} (h : g.addWays source ws = .ok g') :
    ∀ e ∈ g'.edges, e ∈ g.edges ∨ ∃ w ∈ ws, e = w.edge source := by
  refine foldlM_keeps (P := fun g' => ∀ e ∈ g'.edges, e ∈ g.edges ∨ ∃ w ∈ ws, e = w.edge source)
    (fun g₁ g₂ w hw h₁ hadd => ?_) h fun e he => .inl he
  split at hadd
  next result g₃ e₃ hresult =>
    cases hadd
    obtain ⟨rfl, s, t, -, rfl⟩ := addEdge_eq_ok hresult
    intro e he
    rcases Array.mem_push.1 he with he | rfl
    · exact h₁ e he
    · exact .inr ⟨w, hw, rfl⟩
  · cases hadd

theorem mem_edges_of_build (h : build r = .ok g) : ∀ e ∈ g.edges, e = firstEdge r ∨ ∃ i, Leaves r i e := by
  obtain ⟨g₀, hentry, hbody⟩ := bind_ok_iff.1 h
  refine foldlM_keeps (P := fun g' => ∀ e ∈ g'.edges, e = firstEdge r ∨ ∃ i, Leaves r i e)
    (fun g₁ g₂ numbered hmem h₁ hadd => ?_) hbody ?_
  · obtain ⟨line, i⟩ := numbered
    obtain ⟨ws, hws, hadd⟩ := bind_ok_iff.1 hadd
    have hline : r.body[i]? = some line := by
      rw [← Array.getElem?_toList]
      exact List.mem_zipIdx_iff_getElem?.1 hmem
    intro e he
    rcases mem_edges_addWays hadd e he with he | ⟨w, hw, rfl⟩
    · exact h₁ e he
    · exact .inr ⟨i, line, ws, w, hw, hline, hws, rfl⟩
  · intro e he
    rcases mem_edges_addWays hentry e he with he | ⟨w, hw, rfl⟩
    · exact absurd he (Array.not_mem_empty e)
    · rw [List.mem_singleton.1 hw]
      exact .inl rfl

/-! ## Edges out of one node -/

/-- The ways of the arms of a switch, in order, and the way of its default. -/
theorem ways_switch {scrutinee : Var} {cases : List (Int × Option Target)} {default : Option Target}
    (h : ways r i (.switch scrutinee cases default) = .ok ws) {w : Way} (hw : w ∈ ws) :
    (∃ arm ∈ cases, ∃ n, destination r i (.switch scrutinee cases default) arm.2 = .ok n ∧
        w = ⟨n, .switchCase, some arm.1⟩) ∨
      ∃ target, default = some target ∧ ∃ n, destination r i (.switch scrutinee cases default) (some target) = .ok n ∧
        w = ⟨n, .switchDefault, none⟩ := by
  unfold ways at h
  simp only at h
  split at h
  · cases h
  · obtain ⟨arms, harms, h⟩ := bind_ok_iff.1 h
    obtain ⟨last, hlast, h⟩ := bind_ok_iff.1 h
    cases h
    rcases List.mem_append.1 hw with hw | hw
    · obtain ⟨arm, harm, hway⟩ := exists_of_mem_mapM harms w hw
      obtain ⟨n, hn, heq⟩ := bind_ok_iff.1 hway
      cases heq
      exact .inl ⟨arm, harm, n, hn, rfl⟩
    · obtain ⟨target, htarget, hway⟩ := exists_of_mem_mapM hlast w hw
      obtain ⟨n, hn, heq⟩ := bind_ok_iff.1 hway
      cases heq
      exact .inr ⟨target, Option.mem_toList.1 htarget, n, hn, rfl⟩

theorem ways_unique (hs : s.DistinctArms) (h : ways r i s = .ok ws) {w w' : Way} (hw : w ∈ ws) (hw' : w' ∈ ws)
    (hkind : w.kind = w'.kind) (hcase : w.caseValue = w'.caseValue) : w = w' := by
  cases s with
  | assign | invoke | nop | «return» =>
    cases h
    rw [List.mem_singleton.1 hw, List.mem_singleton.1 hw']
  | goto target =>
    obtain ⟨n, -, h⟩ := bind_ok_iff.1 h
    cases h
    rw [List.mem_singleton.1 hw, List.mem_singleton.1 hw']
  | branch condition target =>
    obtain ⟨n, -, h⟩ := bind_ok_iff.1 h
    cases h
    -- One way if the condition is true, and one if it is false.
    simp only [List.mem_cons, List.not_mem_nil, or_false] at hw hw'
    rcases hw with rfl | rfl <;> rcases hw' with rfl | rfl <;> first | rfl | cases hkind
  | switch scrutinee cases default =>
    rcases ways_switch h hw with ⟨arm, harm, n, hn, rfl⟩ | ⟨target, htarget, n, hn, rfl⟩ <;>
      rcases ways_switch h hw' with ⟨arm', harm', n', hn', rfl⟩ | ⟨target', htarget', n', hn', rfl⟩
    · -- Arms for the same number are the same arm.
      have harms : arm = arm' := List.inj_on_of_nodup_map hs harm harm' (Option.some.inj hcase)
      subst harms
      rw [hn] at hn'
      cases hn'
      rfl
    · cases hkind
    · cases hkind
    · rw [htarget] at htarget'
      cases htarget'
      rw [hn] at hn'
      cases hn'
      rfl

theorem deterministic_build (hr : ∀ line ∈ r.body, line.stmt.DistinctArms) (h : build r = .ok g) :
    g.Deterministic := by
  intro e he e' he' hsource hkind hcase
  rcases mem_edges_of_build h e he with rfl | ⟨i, line, ws, w, hw, hline, hws, rfl⟩ <;>
    rcases mem_edges_of_build h e' he' with rfl | ⟨i', line', ws', w', hw', hline', hws', rfl⟩
  · rfl
  · cases hsource
  · cases hsource
  · cases hsource
    rw [hline] at hline'
    cases hline'
    rw [hws] at hws'
    cases hws'
    rw [ways_unique (hr line (Array.mem_of_getElem? hline)) hws hw hw' hkind hcase]

/-- In the graph of a routine that has been read, what decides a branch decides where it leads. -/
theorem deterministic_of_read {text name : String} (hread : Reading.read text name = .ok r) (h : build r = .ok g) :
    g.Deterministic :=
  deterministic_build (Reading.distinctArms_read hread) h

end Dataflow.Graph
