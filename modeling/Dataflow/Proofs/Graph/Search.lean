import Dataflow.Graph.Reach
import Dataflow.Proofs.Fold
import Mathlib.Data.Fintype.Card
import Mathlib.Logic.Relation
/-!
# What a search finds

Every state of a search splits what has been found into places that are done, all of whose successors have been found,
and the queue (`Frontier`). There are enough rounds to empty the queue, so a search that does not fail finds exactly
what its start reaches (`mem_explore_iff`). One that fails does so at the first place of the order (`order`) whose
successors are not known (`explore_eq_error_iff`).
-/
namespace Dataflow

/-! ## The first of a list -/

section
variable {α : Type} {P : α → Prop} {l : List α} {a b : α}

/-- The first member of a list with a property. -/
def IsFirst (P : α → Prop) (l : List α) (a : α) : Prop :=
  ∃ before after, l = before ++ a :: after ∧ P a ∧ ∀ b ∈ before, ¬ P b

theorem find?_eq_some_iff_isFirst [DecidablePred P] : l.find? (fun b => decide (P b)) = some a ↔ IsFirst P l a := by
  simp only [List.find?_eq_some_iff_append, decide_eq_true_eq, Bool.not_eq_true', decide_eq_false_iff_not, IsFirst]
  constructor
  · rintro ⟨hP, before, after, hl, hbefore⟩
    exact ⟨before, after, hl, hP, hbefore⟩
  · rintro ⟨before, after, hl, hP, hbefore⟩
    exact ⟨hP, before, after, hl, hbefore⟩

theorem IsFirst.mem (h : IsFirst P l a) : a ∈ l := by
  obtain ⟨before, after, rfl, -⟩ := h
  exact List.mem_append_right before List.mem_cons_self

theorem IsFirst.holds (h : IsFirst P l a) : P a := by
  obtain ⟨-, -, -, hP, -⟩ := h
  exact hP

theorem IsFirst.unique (ha : IsFirst P l a) (hb : IsFirst P l b) : a = b := by
  classical
  rw [← find?_eq_some_iff_isFirst] at ha hb
  exact Option.some.inj (ha.symm.trans hb)

theorem isFirst_of_unique (ha : a ∈ l) (hP : P a) (hunique : ∀ b ∈ l, P b → b = a) : IsFirst P l a := by
  obtain ⟨before, after, rfl, hnew⟩ := List.eq_append_cons_of_mem ha
  refine ⟨before, after, rfl, hP, fun b hb hPb => hnew ?_⟩
  exact hunique b (List.mem_append_left _ hb) hPb ▸ hb

theorem exists_isFirst_iff : (∃ a, IsFirst P l a) ↔ ∃ a ∈ l, P a := by
  classical
  simp only [← find?_eq_some_iff_isFirst, ← Option.isSome_iff_exists, List.find?_isSome, decide_eq_true_eq]

end

namespace Graph

/-! ## States of a search -/

variable {n : Nat} {ε : Type}

/-- One of the known successors of a place. -/
def Next (next : Fin n → Except ε (List (Fin n))) (p q : Fin n) : Prop := ∃ qs, next p = .ok qs ∧ q ∈ qs

/-- A state of a search. -/
structure Frontier (next : Fin n → Except ε (List (Fin n))) (start : Fin n) (done queue : List (Fin n)) : Prop where
  distinct : (done ++ queue).Nodup
  origin : start ∈ done ++ queue
  closed : ∀ p ∈ done, ∃ qs, next p = .ok qs ∧ ∀ q ∈ qs, q ∈ done ++ queue
  reached : ∀ p ∈ done ++ queue, Relation.ReflTransGen (Next next) start p

variable {next : Fin n → Except ε (List (Fin n))} {start p q : Fin n} {done queue found : List (Fin n)}

theorem mem_fresh {ps : List (Fin n)} : q ∈ fresh found ps ↔ q ∈ ps ∧ q ∉ found := by
  induction ps generalizing found with
  | nil => simp [fresh]
  | cons p ps ih =>
    unfold fresh
    by_cases hp : p ∈ found
    · rw [if_pos hp, ih, List.mem_cons]
      constructor
      · exact fun h => ⟨.inr h.1, h.2⟩
      · rintro ⟨rfl | hq, hnew⟩
        · exact absurd hp hnew
        · exact ⟨hq, hnew⟩
    · rw [if_neg hp, List.mem_cons, ih, List.mem_cons, List.mem_cons]
      by_cases hqp : q = p
      · simp [hqp, hp]
      · simp [hqp]

theorem nodup_fresh (found ps : List (Fin n)) : (fresh found ps).Nodup := by
  induction ps generalizing found with
  | nil => exact List.nodup_nil
  | cons p ps ih =>
    unfold fresh
    split
    · exact ih found
    · exact List.nodup_cons.2 ⟨fun hp => (mem_fresh.1 hp).2 List.mem_cons_self, ih _⟩

theorem frontier_start (next : Fin n → Except ε (List (Fin n))) (start : Fin n) : Frontier next start [] [start] where
  distinct := List.nodup_singleton start
  origin := List.mem_cons_self
  closed _ hp := absurd hp List.not_mem_nil
  reached _ hp := List.mem_singleton.1 hp ▸ .refl

/-- The place taken off the queue is done once its successors have been appended. -/
theorem Frontier.advance (h : Frontier next start done (p :: queue)) {qs : List (Fin n)} (hp : next p = .ok qs) :
    Frontier next start (done ++ [p]) (queue ++ fresh (done ++ p :: queue) qs) := by
  have hsplit : ∀ x, x ∈ (done ++ [p]) ++ (queue ++ fresh (done ++ p :: queue) qs) ↔
      x ∈ done ++ p :: queue ∨ x ∈ fresh (done ++ p :: queue) qs := by
    intro x
    simp only [List.mem_append, List.mem_cons, List.not_mem_nil, or_false, or_assoc]
  constructor
  · have hdisjoint : (done ++ p :: queue).Disjoint (fresh (done ++ p :: queue) qs) :=
      fun x hx hnew => (mem_fresh.1 hnew).2 hx
    simpa using h.distinct.append (nodup_fresh _ _) hdisjoint
  · exact (hsplit start).2 (.inl h.origin)
  · intro x hx
    rcases List.mem_append.1 hx with hx | hx
    · obtain ⟨xs, hxs, hall⟩ := h.closed x hx
      exact ⟨xs, hxs, fun y hy => (hsplit y).2 (.inl (hall y hy))⟩
    · rw [List.mem_singleton.1 hx]
      refine ⟨qs, hp, fun y hy => (hsplit y).2 ?_⟩
      by_cases hold : y ∈ done ++ p :: queue
      · exact .inl hold
      · exact .inr (mem_fresh.2 ⟨hy, hold⟩)
  · intro x hx
    rcases (hsplit x).1 hx with hx | hx
    · exact h.reached x hx
    · have hmem : p ∈ done ++ p :: queue := List.mem_append_right _ List.mem_cons_self
      exact (h.reached p hmem).tail ⟨qs, hp, (mem_fresh.1 hx).1⟩

/-- A search with as many rounds as places are not done yet empties its queue. -/
theorem search_eq_ok {rounds : Nat} (h : Frontier next start done queue) (hrounds : n ≤ rounds + done.length)
    (hsearch : search next rounds (done ++ queue) queue = .ok found) : Frontier next start found [] := by
  induction rounds generalizing done queue with
  | zero =>
    -- All places are done, and none is in the queue as well.
    have hlength : (done ++ queue).length ≤ n := h.distinct.length_le_card.trans_eq (Fintype.card_fin n)
    rw [List.length_append] at hlength
    have hqueue : queue = [] := List.length_eq_zero_iff.1 (by omega)
    subst hqueue
    rw [search, List.append_nil] at hsearch
    cases hsearch
    exact h
  | succ rounds ih =>
    cases queue with
    | nil =>
      simp only [search, List.append_nil] at hsearch
      cases hsearch
      exact h
    | cons p queue =>
      rw [search] at hsearch
      obtain ⟨qs, hp, hsearch⟩ := bind_ok_iff.1 hsearch
      refine ih (h.advance hp) ?_ ?_
      · rw [List.length_append, List.length_singleton]
        omega
      · simpa using hsearch

theorem explore_eq_ok (h : explore next start = .ok found) : Frontier next start found [] :=
  search_eq_ok (frontier_start next start) (Nat.le_add_right n 0) h

/-- A search that does not fail finds all that its start reaches, and nothing else. -/
theorem mem_explore_iff (h : explore next start = .ok found) :
    p ∈ found ↔ Relation.ReflTransGen (Next next) start p := by
  have hfrontier := explore_eq_ok h
  constructor
  · exact fun hp => hfrontier.reached p (List.mem_append_left _ hp)
  · intro hp
    induction hp with
    | refl => exact List.append_nil found ▸ hfrontier.origin
    | @tail p q _ hpq ih =>
      obtain ⟨qs, hqs, hq⟩ := hpq
      obtain ⟨qs', hqs', hall⟩ := hfrontier.closed p ih
      rw [hqs] at hqs'
      cases hqs'
      exact List.append_nil found ▸ hall q hq

/-- A search that does not fail has looked at all that its start reaches. -/
theorem exists_next_of_explore (h : explore next start = .ok found)
    (hp : Relation.ReflTransGen (Next next) start p) : ∃ qs, next p = .ok qs := by
  obtain ⟨qs, hqs, -⟩ := (explore_eq_ok h).closed p ((mem_explore_iff h).2 hp)
  exact ⟨qs, hqs⟩

/-! ## Failures -/

/-- What a search goes by that no failure ends: a place leads nowhere where its successors are not known. -/
def known (next : Fin n → Except ε (List (Fin n))) (p : Fin n) : Except Empty (List (Fin n)) :=
  .ok ((next p).toOption.getD [])

/-- The places that a search finds if no failure ends it, in the order of discovery. -/
def order (next : Fin n → Except ε (List (Fin n))) (start : Fin n) : List (Fin n) :=
  match explore (known next) start with
  | .ok found => found

theorem known_of_ok {qs : List (Fin n)} (h : next p = .ok qs) : known next p = .ok qs := by
  rw [known, h]
  rfl

theorem explore_known (next : Fin n → Except ε (List (Fin n))) (start : Fin n) :
    explore (known next) start = .ok (order next start) := by
  unfold order
  split
  next found hfound => exact hfound

theorem next_known_iff : Next (known next) p q ↔ Next next p q := by
  cases hp : next p with
  | error e => simp [Next, known, hp, Except.toOption]
  | ok qs => simp [Next, known_of_ok hp, hp]

theorem mem_order_iff : p ∈ order next start ↔ Relation.ReflTransGen (Next next) start p := by
  have hnext : Next (known next) = Next next := by
    funext p q
    exact propext next_known_iff
  rw [mem_explore_iff (explore_known next start), hnext]

/-- What has been found stays in front. -/
theorem prefix_of_search {rounds : Nat} {before : List (Fin n)} (h : search next rounds before queue = .ok found) :
    before <+: found := by
  induction rounds generalizing before queue with
  | zero =>
    rw [search] at h
    cases h
    exact List.prefix_refl _
  | succ rounds ih =>
    cases queue with
    | nil =>
      simp only [search] at h
      cases h
      exact List.prefix_refl _
    | cons p queue =>
      rw [search] at h
      obtain ⟨qs, -, h⟩ := bind_ok_iff.1 h
      exact (List.prefix_append _ _).trans (ih h)

/-- A search that fails has found the places before the failure in that order. -/
theorem isFirst_of_search_eq_error {rounds : Nat} {e : ε} {all : List (Fin n)}
    (hdone : ∀ p ∈ done, ∃ qs, next p = .ok qs) (hsearch : search next rounds (done ++ queue) queue = .error e)
    (hall : search (known next) rounds (done ++ queue) queue = .ok all) :
    ∃ p, IsFirst (fun q => ∃ e, next q = .error e) all p ∧ next p = .error e := by
  induction rounds generalizing done queue with
  | zero => simp [search] at hsearch
  | succ rounds ih =>
    cases queue with
    | nil => simp [search] at hsearch
    | cons p queue =>
      obtain ⟨after, rfl⟩ := prefix_of_search hall
      rw [search] at hsearch hall
      rcases bind_error_iff.1 hsearch with hp | ⟨qs, hp, hsearch⟩
      · refine ⟨p, ⟨done, queue ++ after, by simp, ⟨e, hp⟩, ?_⟩, hp⟩
        rintro q hq ⟨e', he'⟩
        obtain ⟨qs, hqs⟩ := hdone q hq
        rw [he'] at hqs
        cases hqs
      · rw [known_of_ok hp] at hall
        have hdone' : ∀ q ∈ done ++ [p], ∃ qs, next q = .ok qs := by
          rw [List.forall_mem_append, List.forall_mem_singleton]
          exact ⟨hdone, qs, hp⟩
        have hfound : ∀ new, done ++ p :: queue ++ new = done ++ [p] ++ (queue ++ new) := fun new => by simp
        simp only [hfound] at hsearch
        exact ih hdone' hsearch (hfound _ ▸ hall)

/-- A search fails exactly if the successors of a place that it would find are not known, and at the first of these. -/
theorem explore_eq_error_iff {e : ε} :
    explore next start = .error e ↔
      ∃ p, IsFirst (fun q => ∃ e, next q = .error e) (order next start) p ∧ next p = .error e := by
  have hfirst : ∀ {e : ε}, explore next start = .error e →
      ∃ p, IsFirst (fun q => ∃ e, next q = .error e) (order next start) p ∧ next p = .error e := fun h =>
    isFirst_of_search_eq_error (fun _ hp => absurd hp List.not_mem_nil) h (explore_known next start)
  refine ⟨hfirst, ?_⟩
  rintro ⟨p, hp, he⟩
  cases hexplore : explore next start with
  | ok found =>
    obtain ⟨qs, hqs⟩ := exists_next_of_explore hexplore (mem_order_iff.1 hp.mem)
    rw [he] at hqs
    cases hqs
  | error e' =>
    obtain ⟨p', hp', he'⟩ := hfirst hexplore
    rw [hp'.unique hp] at he'
    rw [← he, ← he']

/-! ## Reachable places -/

theorem mem_reachableFrom_iff {g : Graph} {p q : Fin g.size} :
    q ∈ g.reachableFrom p ↔ Relation.ReflTransGen (fun p q => q ∈ g.succs p) p q := by
  have hnext : Next (ε := Empty) (fun q => .ok (g.succs q)) = fun p q => q ∈ g.succs p := by
    funext p q
    simp [Next]
  rw [reachableFrom]
  split
  next found hfound => rw [mem_explore_iff hfound, hnext]

end Graph

end Dataflow
