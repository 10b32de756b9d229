import Dataflow.Proofs.Graph.Adjacency
/-!
# Graphs and their histories

Edges are asked for one after another, and some are refused. Whatever is asked for, a graph stands for the edges that it
has admitted, in order, and for nothing else (`represents_history`): a refused edge leaves no trace.
-/
namespace Dataflow.Graph

/-- An edge that a graph admits: it joins two of its nodes, does not leave the exit or enter the entry, and has a case
value exactly if its kind asks for one. -/
def Admits (g : Graph) (e : Edge) : Prop :=
  g.contains e.source = true ∧ g.contains e.target = true ∧ e.source ≠ .exit ∧ e.target ≠ .entry ∧
    (e.kind = .switchCase ↔ e.caseValue.isSome = true)

instance (g : Graph) (e : Edge) : Decidable (g.Admits e) := inferInstanceAs (Decidable (_ ∧ _ ∧ _ ∧ _ ∧ (_ ↔ _)))

/-- The graph after an edge has been asked for, whether it was added or not. -/
def ask (g : Graph) (e : Edge) : Graph :=
  match (Edit.addEdge e.source e.target e.kind e.caseValue).run g with
  | .ok _ g' => g'
  | .error _ g' => g'

/-- The graph after several edges have been asked for. -/
def history (g : Graph) (es : List Edge) : Graph := es.foldl ask g

/-- What a graph shows at its nodes is what its list of edges says, in the same order. -/
structure Represents (g : Graph) : Prop where
  outEdges : ∀ n, g.contains n = true → ∃ es, g.outEdges? n = some es ∧ es.toList = g.edges.toList.filter (·.source = n)
  inEdges : ∀ n, g.contains n = true → ∃ es, g.inEdges? n = some es ∧ es.toList = g.edges.toList.filter (·.target = n)
  joins : ∀ e ∈ g.edges, g.contains e.source = true ∧ g.contains e.target = true
  caseValue : ∀ e ∈ g.edges, e.kind = .switchCase ↔ e.caseValue.isSome = true
  entry : g.inEdges? .entry = some #[]
  exit : g.outEdges? .exit = some #[]

variable {g : Graph} {e : Edge}

/-! ## One edge -/

theorem admits_iff : g.Admits e ↔ ∃ s t, g.Joins e s t := by
  constructor
  · rintro ⟨hs, ht, hsource, htarget, hcase⟩
    obtain ⟨s, hs⟩ := Option.isSome_iff_exists.1 hs
    obtain ⟨t, ht⟩ := Option.isSome_iff_exists.1 ht
    exact ⟨s, t, hs, ht, hsource, htarget, hcase⟩
  · rintro ⟨s, t, he⟩
    exact ⟨he.source_mem, he.target_mem, he.source_ne, he.target_ne, he.caseValue⟩

/-- Which edges a graph admits does not depend on the edges that it has. -/
theorem admits_congr {g' : Graph} (h : g'.routine = g.routine) : g'.Admits e ↔ g.Admits e := by
  cases g
  cases g'
  cases h
  rfl

theorem run_error_iff {g' : Graph} :
    (∃ fault, (Edit.addEdge e.source e.target e.kind e.caseValue).run g = .error fault g') ↔ ¬ g.Admits e ∧ g' = g := by
  rw [admits_iff]
  obtain ⟨hnone, fault, hrun⟩ | ⟨s, t, he, hrun⟩ := g.edit_addEdge_run e.source e.target e.kind e.caseValue
  · rw [hrun]
    constructor
    · rintro ⟨fault', heq⟩
      cases heq
      exact ⟨fun ⟨s, t, he⟩ => hnone s t he, rfl⟩
    · rintro ⟨-, rfl⟩
      exact ⟨fault, rfl⟩
  · rw [hrun]
    constructor
    · rintro ⟨fault', heq⟩
      cases heq
    · rintro ⟨hnone, -⟩
      exact absurd ⟨s, t, he⟩ hnone

theorem ask_of_admits (h : g.Admits e) : ∃ s t, g.Joins e s t ∧ g.ask e = g.insert e s t := by
  obtain ⟨hnone, -⟩ | ⟨s, t, he, hrun⟩ := g.edit_addEdge_run e.source e.target e.kind e.caseValue
  · obtain ⟨s, t, he⟩ := admits_iff.1 h
    exact absurd he (hnone s t)
  · exact ⟨s, t, he, by rw [ask, hrun]⟩

theorem ask_of_not_admits (h : ¬ g.Admits e) : g.ask e = g := by
  obtain ⟨fault, hrun⟩ := run_error_iff.2 ⟨h, rfl⟩
  rw [ask, hrun]

theorem routine_ask (g : Graph) (e : Edge) : (g.ask e).routine = g.routine := by
  by_cases he : g.Admits e
  · obtain ⟨s, t, -, hask⟩ := ask_of_admits he
    rw [hask]
    rfl
  · rw [ask_of_not_admits he]

theorem edges_ask (g : Graph) (e : Edge) :
    (g.ask e).edges.toList = g.edges.toList ++ if g.Admits e then [e] else [] := by
  by_cases he : g.Admits e
  · obtain ⟨s, t, -, hask⟩ := ask_of_admits he
    rw [hask, if_pos he]
    exact Array.toList_push
  · rw [ask_of_not_admits he, if_neg he, List.append_nil]

theorem Wired.ask (h : g.Wired) (e : Edge) : (g.ask e).Wired := by
  by_cases he : g.Admits e
  · obtain ⟨s, t, hj, hask⟩ := ask_of_admits he
    rw [hask]
    exact h.insert hj
  · rw [ask_of_not_admits he]
    exact h

/-! ## A history -/

theorem Wired.history (h : g.Wired) (es : List Edge) : (g.history es).Wired := by
  induction es generalizing g with
  | nil => exact h
  | cons e es ih => exact ih (h.ask e)

theorem edges_history (g : Graph) (es : List Edge) :
    (g.history es).edges.toList = g.edges.toList ++ es.filter (g.Admits ·) := by
  induction es generalizing g with
  | nil => exact (List.append_nil _).symm
  | cons e es ih =>
    have hadmits : es.filter ((g.ask e).Admits ·) = es.filter (g.Admits ·) :=
      List.filter_congr fun e' _ => by rw [decide_eq_decide, admits_congr (g.routine_ask e)]
    change ((g.ask e).history es).edges.toList = _
    rw [ih, edges_ask, hadmits, List.append_assoc, List.filter_cons]
    by_cases he : g.Admits e <;> simp [he]

/-- The edges at a node, where a graph is wired up. -/
theorem exists_ends {table : Vector (Array Edge) g.size} {f : Edge → Node}
    (h : ∀ p : Fin g.size, (table.get p).toList = g.edges.toList.filter (f · = g.node p)) {n : Node}
    (hn : g.contains n = true) :
    ∃ es, (g.position? n).map table.get = some es ∧ es.toList = g.edges.toList.filter (f · = n) := by
  obtain ⟨p, hp⟩ := Option.isSome_iff_exists.1 hn
  refine ⟨table.get p, by rw [hp, Option.map_some], ?_⟩
  rw [h p, node_of_position? hp]

theorem eq_empty_of_toList_filter {es : Array Edge} {all : List Edge} {P : Edge → Prop} [DecidablePred P]
    (h : es.toList = all.filter (P ·)) (hP : ∀ e ∈ all, ¬ P e) : es = #[] := by
  rw [List.filter_eq_nil_iff.2 fun e he => by simpa using hP e he] at h
  exact Array.toList_eq_nil_iff.1 h

theorem Wired.represents (h : g.Wired) : g.Represents := by
  have hjoins : ∀ {e}, e ∈ g.edges → g.Admits e := fun he => admits_iff.2 (h.joins _ he)
  have hout := fun n hn => exists_ends (n := n) h.outgoing hn
  have hin := fun n hn => exists_ends (n := n) h.incoming hn
  refine ⟨hout, hin, fun e he => ⟨(hjoins he).1, (hjoins he).2.1⟩, fun e he => (hjoins he).2.2.2.2, ?_, ?_⟩
  · obtain ⟨es, hes, hlist⟩ := hin .entry rfl
    rw [inEdges?, hes, eq_empty_of_toList_filter hlist fun e he => (hjoins (Array.mem_toList_iff.1 he)).2.2.2.1]
  · obtain ⟨es, hes, hlist⟩ := hout .exit rfl
    rw [outEdges?, hes, eq_empty_of_toList_filter hlist fun e he => (hjoins (Array.mem_toList_iff.1 he)).2.2.1]

/-- After every history of a graph that starts without edges, or with those of its routine, it stands for its edges:
those from the start and those that it has admitted, in order. An edge that it does not admit is refused, and leaves it
as it was. -/
theorem represents_history {r : Routine} {start : Graph} (hstart : start = empty r ∨ build r = .ok start)
    (es : List Edge) :
    (start.history es).Represents ∧
    (start.history es).edges.toList = start.edges.toList ++ es.filter (start.Admits ·) ∧
    ∀ e g', (∃ fault, (Edit.addEdge e.source e.target e.kind e.caseValue).run (start.history es) = .error fault g') ↔
      ¬ (start.history es).Admits e ∧ g' = start.history es := by
  have hwired : start.Wired := by
    rcases hstart with rfl | hbuild
    · exact wired_empty r
    · exact (built_build hbuild).1.wired
  exact ⟨(hwired.history es).represents, start.edges_history es, fun _ _ => run_error_iff⟩

/-- A statement that jumps to itself. -/
def spin : Routine := .ofStmts "spin" [] [.goto (some (.stmt 0))] none

/-- Two edges like one that is there, and one of every kind that is refused. -/
def requests : List Edge :=
  [⟨.stmt 0, .stmt 0, .goto, none⟩, ⟨.stmt 1, .stmt 0, .goto, none⟩, ⟨.stmt 0, .detached, .goto, none⟩,
   ⟨.exit, .stmt 0, .goto, none⟩, ⟨.stmt 0, .entry, .goto, none⟩, ⟨.stmt 0, .stmt 0, .goto, some 1⟩,
   ⟨.stmt 0, .exit, .switchCase, none⟩, ⟨.stmt 0, .stmt 0, .goto, none⟩]

theorem represents_history_spin :
    ∃ g, build spin = .ok g ∧ (g.history requests).Represents ∧
      (g.history requests).edges.toList =
        ⟨.entry, .stmt 0, .entry, none⟩ :: List.replicate 3 ⟨.stmt 0, .stmt 0, .goto, none⟩ := by
  have hbuild : ((build spin).toOption.map fun g => g.edges.toList ++ requests.filter (g.Admits ·)) =
      some (⟨.entry, .stmt 0, .entry, none⟩ :: List.replicate 3 ⟨.stmt 0, .stmt 0, .goto, none⟩) := by
    decide
  obtain ⟨g, hg, hedges⟩ := Option.map_eq_some_iff.1 hbuild
  rw [toOption_eq_some] at hg
  obtain ⟨hrepresents, hlist, -⟩ := represents_history (.inr hg) requests
  exact ⟨g, hg, hrepresents, hlist.trans hedges⟩

end Dataflow.Graph
