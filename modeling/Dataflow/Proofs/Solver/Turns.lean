import Dataflow.Proofs.Solver.Pending
import Mathlib.Data.Finset.Card
/-!
# Worklists and their histories

Nodes are pushed and taken one after another. Whatever the history, a worklist keeps every node that was pushed and not
taken since, and each of them once; and it takes them in turn: the one that has waited longest, or shortest, or the one
of smallest rank. With ranks that holds exactly as long as no node that is pushed shares its rank with a later node
(`orderly_iff`), because a rank stands for the last node that has it.
-/
namespace Dataflow.Worklist

variable {n : Nat}

inductive Op (n : Nat) where
  | push (p : Fin n)
  | pop

/-- The worklist after an operation. From an empty one nothing is taken. -/
def act (w : Worklist n) : Op n → Worklist n
  | .push p => w.push p
  | .pop =>
    match w.pop? with
    | none => w
    | some (_, w') => w'

section
variable (strategy : Strategy) (rank : Fin n → Int) (ops : List (Op n))

/-- The worklist after a history. -/
def after : Worklist n := ops.foldl act { strategy, rank }

/-- The operation at `k` takes `p`. -/
def Takes (k : Nat) (p : Fin n) : Prop :=
  ops[k]? = some .pop ∧ ∃ w', (after strategy rank (ops.take k)).pop? = some (p, w')

/-- The operation at `k` has pushed `p`, which was not pending then and has been ever since. -/
structure PendingSince (p : Fin n) (k : Nat) : Prop where
  pushed : ops[k]? = some (.push p)
  before : p ∉ (after strategy rank (ops.take k)).pending
  since : ∀ m, k < m → m ≤ ops.length → p ∈ (after strategy rank (ops.take m)).pending

/-- The turn of `p` comes before that of `q`. -/
def Precedes (p q : Fin n) : Prop :=
  match strategy with
  | .fifo => ∃ i j, PendingSince strategy rank ops p i ∧ PendingSince strategy rank ops q j ∧ i < j
  | .lifo => ∃ i j, PendingSince strategy rank ops p i ∧ PendingSince strategy rank ops q j ∧ j < i
  | .priority => rank p < rank q

end

/-- What is pending is there once, in the queue or by its rank; pushing it again changes nothing; and of all that is
pending, a pop takes what comes before the rest. -/
structure InOrder (w : Worklist n) (before : Fin n → Fin n → Prop) : Prop where
  matched : w.Matched
  ranks : w.strategy = .priority → w.ranks.Nodup
  size : w.size = w.pending.toFinset.card
  again : ∀ p ∈ w.pending, w.push p = w
  turn : w.pending ≠ [] → ∃ p w', w.pop? = some (p, w') ∧ p ∈ w.pending ∧
    (∀ q, q ∈ w'.pending ↔ q ∈ w.pending ∧ q ≠ p) ∧ ∀ q ∈ w.pending, q ≠ p → before p q

/-- After a history a worklist is in order. A node that was taken twice was pushed in between, and what is pending are
the nodes that were pushed and not taken since. -/
structure Orderly (strategy : Strategy) (rank : Fin n → Int) (ops : List (Op n)) : Prop where
  inOrder : (after strategy rank ops).InOrder (Precedes strategy rank ops)
  between : ∀ i j p, i < j → Takes strategy rank ops i p → Takes strategy rank ops j p →
    ∃ k, i < k ∧ k < j ∧ ops[k]? = some (.push p)
  kept : ∀ p, p ∈ (after strategy rank ops).pending ↔
    ∃ k, ops[k]? = some (.push p) ∧ ∀ j, k < j → ¬ Takes strategy rank ops j p

/-- No later node shares the rank of `p`. -/
def Stands (rank : Fin n → Int) (p : Fin n) : Prop := ∀ q, p < q → rank q ≠ rank p

variable {strategy : Strategy} {rank : Fin n → Int} {ops : List (Op n)} {op : Op n} {w w' : Worklist n} {p q : Fin n}

/-! ## One operation -/

/-- What an operation makes of a worklist, in three cases. -/
inductive Acts (w : Worklist n) : Op n → Worklist n → Prop
  | push (p : Fin n) : Acts w (.push p) (w.push p)
  | idle (h : w.pop? = none) : Acts w .pop w
  | take {p : Fin n} {w' : Worklist n} (h : w.pop? = some (p, w')) (hpops : w.Pops p w') : Acts w .pop w'

theorem acts (w : Worklist n) (op : Op n) : w.Acts op (w.act op) := by
  cases op with
  | push p => exact .push p
  | pop =>
    simp only [act]
    split
    next h => exact .idle h
    next h => exact .take h (pops_of_pop? h)

theorem act_pop_of_some (hp : w.pop? = some (p, w')) : w.act .pop = w' := by simp only [act, hp]

theorem strategy_act (w : Worklist n) (op : Op n) : (w.act op).strategy = w.strategy := by
  have h := w.acts op
  generalize w.act op = w' at h ⊢
  cases h with
  | push p => exact strategy_push w p
  | idle => rfl
  | take _ hpops => exact hpops.strategy

theorem rank_act (w : Worklist n) (op : Op n) : (w.act op).rank = w.rank := by
  have h := w.acts op
  generalize w.act op = w' at h ⊢
  cases h with
  | push p => exact rank_push w p
  | idle => rfl
  | take _ hpops => exact hpops.rank

theorem nodup_act (h : w.pending.Nodup) (op : Op n) : (w.act op).pending.Nodup := by
  have hacts := w.acts op
  generalize w.act op = w' at hacts ⊢
  cases hacts with
  | push p => exact nodup_push h p
  | idle => exact h
  | take _ hpops =>
    rw [hpops.pending]
    exact h.erase _

/-- What is pending stays so until it is taken. -/
theorem mem_act_or_pop? (h : p ∈ w.pending) (op : Op n) :
    p ∈ (w.act op).pending ∨ op = .pop ∧ ∃ w', w.pop? = some (p, w') := by
  have hacts := w.acts op
  generalize w.act op = w' at hacts ⊢
  cases hacts with
  | push q => exact .inl (mem_push.2 (.inr h))
  | idle => exact .inl h
  | @take q w' hpop hpops =>
    by_cases hpq : p = q
    · exact .inr ⟨rfl, w', hpq ▸ hpop⟩
    · rw [hpops.pending]
      exact .inl ((List.mem_erase_of_ne hpq).2 h)

/-- Only a push makes a node pending. -/
theorem eq_push_of_mem_act (h : p ∈ (w.act op).pending) (hp : p ∉ w.pending) : op = .push p := by
  have hacts := w.acts op
  generalize w.act op = w' at hacts h
  cases hacts with
  | push q =>
    rcases mem_push.1 h with rfl | hq
    · rfl
    · exact absurd hq hp
  | idle => exact absurd h hp
  | take _ hpops =>
    rw [hpops.pending] at h
    exact absurd (List.mem_of_mem_erase h) hp

/-- A node that was taken is pending no more. -/
theorem not_mem_of_pop? (h : w.pending.Nodup) (hp : w.pop? = some (p, w')) : p ∉ w'.pending := by
  rw [(pops_of_pop? hp).pending]
  exact h.not_mem_erase

/-! ## Ranks -/

theorem rank_ne_of_holder? {r : Int} (hp : w.holder? r = some p) (hpq : p < q) : w.rank q ≠ r := by
  obtain ⟨-, before, rest, heq, hbefore⟩ := List.find?_eq_some_iff_append.1 hp
  have hdescending : (before ++ p :: rest).Pairwise (· > ·) := by
    rw [← heq, List.pairwise_reverse]
    exact List.pairwise_lt_finRange n
  have hq : q ∈ before ++ p :: rest := by
    rw [← heq]
    simp
  rcases List.mem_append.1 hq with hq | hq
  · simpa using hbefore q hq
  · -- What comes after `p` in descending order is not greater.
    rcases List.mem_cons.1 hq with rfl | hq
    · exact absurd hpq (Fin.lt_irrefl _)
    · have hqp : q < p := (List.pairwise_cons.1 (List.pairwise_append.1 hdescending).2.1).1 q hq
      exact absurd (Fin.lt_trans hpq hqp) (Fin.lt_irrefl _)

/-- A rank stands for the last node that has it. -/
theorem holder?_eq_some_iff {r : Int} : w.holder? r = some p ↔ w.rank p = r ∧ ∀ q, p < q → w.rank q ≠ r := by
  constructor
  · exact fun h => ⟨rank_of_holder? h, fun q hpq => rank_ne_of_holder? h hpq⟩
  · rintro ⟨hp, hlast⟩
    obtain ⟨q, hq⟩ := Option.ne_none_iff_exists'.1 (holder?_ne_none hp)
    rw [hq]
    rcases Nat.lt_trichotomy p q with hpq | heq | hqp
    · exact absurd (rank_of_holder? hq) (hlast q hpq)
    · rw [Fin.ext heq]
    · exact absurd hp (rank_ne_of_holder? hq hqp)

theorem holder?_of_stands (h : Stands w.rank p) : w.holder? (w.rank p) = some p :=
  holder?_eq_some_iff.2 ⟨rfl, h⟩

theorem sorted_insertRank {r : Int} {rs : List Int} (h : rs.Pairwise (· ≤ ·)) :
    (insertRank r rs).Pairwise (· ≤ ·) := by
  induction rs with
  | nil => exact List.pairwise_singleton _ _
  | cons s rest ih =>
    obtain ⟨hs, hrest⟩ := List.pairwise_cons.1 h
    unfold insertRank
    split
    next hr =>
      have hrest : ∀ t ∈ rest, r ≤ t := fun t ht => Int.le_trans hr (hs t ht)
      exact List.pairwise_cons.2 ⟨List.forall_mem_cons.2 ⟨hr, hrest⟩, h⟩
    next hr =>
      refine List.pairwise_cons.2 ⟨fun t ht => ?_, ih hrest⟩
      rcases List.mem_cons.1 ((insertRank_perm r rest).subset ht) with rfl | ht
      · exact Int.le_of_lt (Int.not_le.1 hr)
      · exact hs t ht

/-! ## Histories -/

theorem after_concat (strategy : Strategy) (rank : Fin n → Int) (ops : List (Op n)) (op : Op n) :
    after strategy rank (ops ++ [op]) = (after strategy rank ops).act op := by
  simp only [after, List.foldl_append, List.foldl_cons, List.foldl_nil]

theorem after_take_succ {k : Nat} (h : ops[k]? = some op) :
    after strategy rank (ops.take (k + 1)) = (after strategy rank (ops.take k)).act op := by
  rw [List.take_add_one, h, Option.toList_some, after_concat]

/-- What holds at the start and is kept by every operation holds after every history. -/
theorem after_keeps (P : Worklist n → Prop) (hstart : P { strategy, rank }) (hact : ∀ w op, P w → P (w.act op)) :
    P (after strategy rank ops) :=
  List.foldlRecOn ops act hstart fun w hw op _ => hact w op hw

theorem strategy_after (strategy : Strategy) (rank : Fin n → Int) (ops : List (Op n)) :
    (after strategy rank ops).strategy = strategy :=
  after_keeps (·.strategy = strategy) rfl fun w op h => (strategy_act w op).trans h

theorem rank_after (strategy : Strategy) (rank : Fin n → Int) (ops : List (Op n)) :
    (after strategy rank ops).rank = rank :=
  after_keeps (·.rank = rank) rfl fun w op h => (rank_act w op).trans h

theorem nodup_after (strategy : Strategy) (rank : Fin n → Int) (ops : List (Op n)) :
    (after strategy rank ops).pending.Nodup :=
  after_keeps (·.pending.Nodup) List.nodup_nil fun _ op h => nodup_act h op

/-- What was pushed stays pending until it is taken. -/
theorem pending_or_takes {k m : Nat} (h : ops[k]? = some (.push p)) (hkm : k < m) :
    p ∈ (after strategy rank (ops.take m)).pending ∨ ∃ j, k < j ∧ j < m ∧ Takes strategy rank ops j p := by
  induction m, hkm using Nat.le_induction with
  | base => exact .inl (by rw [after_take_succ h]; exact mem_push.2 (.inl rfl))
  | succ m hkm ih =>
    rcases ih with hp | ⟨j, hkj, hjm, hj⟩
    · cases hop : ops[m]? with
      | none =>
        refine .inl ?_
        rwa [List.take_add_one, hop, Option.toList_none, List.append_nil]
      | some op =>
        rw [after_take_succ hop]
        refine (mem_act_or_pop? hp op).imp_right ?_
        rintro ⟨rfl, htakes⟩
        exact ⟨m, hkm, Nat.lt_succ_self m, hop, htakes⟩
    · exact .inr ⟨j, hkj, Nat.lt_succ_of_lt hjm, hj⟩

/-- A node becomes pending by a push. -/
theorem exists_push {a b : Nat} (hab : a ≤ b) (ha : p ∉ (after strategy rank (ops.take a)).pending)
    (hb : p ∈ (after strategy rank (ops.take b)).pending) :
    ∃ k, a ≤ k ∧ k < b ∧ ops[k]? = some (.push p) := by
  induction b, hab using Nat.le_induction with
  | base => exact absurd hb ha
  | succ m ham ih =>
    by_cases hm : p ∈ (after strategy rank (ops.take m)).pending
    · obtain ⟨k, hak, hkm, hk⟩ := ih hm
      exact ⟨k, hak, Nat.lt_succ_of_lt hkm, hk⟩
    · cases hop : ops[m]? with
      | none =>
        rw [List.take_add_one, hop, Option.toList_none, List.append_nil] at hb
        exact absurd hb hm
      | some op =>
        rw [after_take_succ hop] at hb
        refine ⟨m, ham, Nat.lt_succ_self m, ?_⟩
        rw [hop, eq_push_of_mem_act hb hm]

theorem Takes.not_pending {k : Nat} (h : Takes strategy rank ops k p) :
    p ∉ (after strategy rank (ops.take (k + 1))).pending := by
  obtain ⟨hop, w', hpop⟩ := h
  rw [after_take_succ hop, act_pop_of_some hpop]
  exact not_mem_of_pop? (nodup_after ..) hpop

theorem Takes.lt_length {k : Nat} (h : Takes strategy rank ops k p) : k < ops.length :=
  (List.getElem?_eq_some_iff.1 h.1).1

/-! ## Since when a node is pending -/

theorem PendingSince.lt_length {k : Nat} (h : PendingSince strategy rank ops p k) : k < ops.length :=
  (List.getElem?_eq_some_iff.1 h.pushed).1

theorem PendingSince.concat {k : Nat} (h : PendingSince strategy rank ops p k)
    (hp : p ∈ (after strategy rank (ops ++ [op])).pending) : PendingSince strategy rank (ops ++ [op]) p k := by
  have hk := h.lt_length
  have htake : ∀ {m}, m ≤ ops.length → (ops ++ [op]).take m = ops.take m := List.take_append_of_le_length
  refine ⟨?_, ?_, ?_⟩
  · rw [List.getElem?_append_left hk]
    exact h.pushed
  · rw [htake (Nat.le_of_lt hk)]
    exact h.before
  · intro m hkm hm
    rcases Nat.lt_or_ge ops.length m with hlt | hle
    · rwa [List.take_of_length_le (by rw [List.length_append, List.length_singleton]; exact hlt)]
    · rw [htake hle]
      exact h.since m hkm hle

theorem pendingSince_push (hp : p ∉ (after strategy rank ops).pending) :
    PendingSince strategy rank (ops ++ [.push p]) p ops.length := by
  refine ⟨List.getElem?_concat_length, ?_, ?_⟩
  · rwa [List.take_left]
  · intro m hm hm'
    rw [List.length_append, List.length_singleton] at hm'
    rw [List.take_of_length_le (by rw [List.length_append, List.length_singleton]; exact hm), after_concat]
    exact mem_push.2 (.inl rfl)

theorem exists_pendingSince (hp : p ∈ (after strategy rank ops).pending) :
    ∃ k, PendingSince strategy rank ops p k := by
  induction ops using List.reverseRecOn with
  | nil => cases hp
  | append_singleton ops op ih =>
    by_cases hbefore : p ∈ (after strategy rank ops).pending
    · obtain ⟨k, hk⟩ := ih hbefore
      exact ⟨k, hk.concat hp⟩
    · have hpush := hp
      rw [after_concat] at hpush
      obtain rfl := eq_push_of_mem_act hpush hbefore
      exact ⟨_, pendingSince_push hbefore⟩

theorem push_mem_of_pending (hp : p ∈ (after strategy rank ops).pending) : .push p ∈ ops := by
  obtain ⟨k, hk⟩ := exists_pendingSince hp
  exact List.mem_of_getElem? hk.pushed

/-! ## Whose turn it is -/

/-- Where the nodes that are pushed stand for their ranks, so does what is pending. -/
theorem holder?_after (h : strategy = .priority → ∀ p, .push p ∈ ops → Stands rank p)
    (hs : (after strategy rank ops).strategy = .priority) (hp : p ∈ (after strategy rank ops).pending) :
    (after strategy rank ops).holder? ((after strategy rank ops).rank p) = some p := by
  rw [strategy_after] at hs
  refine holder?_of_stands ?_
  rw [rank_after]
  exact h hs p (push_mem_of_pending hp)

theorem matched_after (h : strategy = .priority → ∀ p, .push p ∈ ops → Stands rank p) :
    (after strategy rank ops).Matched := by
  induction ops using List.reverseRecOn with
  | nil => exact matched_empty strategy rank
  | append_singleton ops op ih =>
    have hops : strategy = .priority → ∀ p, .push p ∈ ops → Stands rank p :=
      fun hs p hp => h hs p (List.mem_append_left _ hp)
    have hacts := (after strategy rank ops).acts op
    rw [after_concat]
    generalize (after strategy rank ops).act op = w' at hacts ⊢
    cases hacts with
    | push p => exact (ih hops).push p
    | idle => exact ih hops
    | take hpop => exact ((ih hops).pop? (fun hs q hq => holder?_after hops hs hq) hpop).2

/-- What is taken was pending. -/
theorem mem_of_pop?_after (h : strategy = .priority → ∀ p, .push p ∈ ops → Stands rank p)
    (hpop : (after strategy rank ops).pop? = some (p, w')) : p ∈ (after strategy rank ops).pending :=
  ((matched_after h).pop? (fun hs _ hq => holder?_after h hs hq) hpop).1

theorem sorted_act (hs : w.strategy = .priority) (h : w.ranks.Pairwise (· ≤ ·)) (op : Op n) :
    (w.act op).ranks.Pairwise (· ≤ ·) := by
  have hacts := w.acts op
  generalize w.act op = w' at hacts ⊢
  cases hacts with
  | push p =>
    by_cases hp : p ∈ w.pending
    · rw [push_of_mem hp]
      exact h
    · simp only [push, if_neg (not_contains hp), hs]
      exact sorted_insertRank h
  | idle => exact h
  | take _ hpops =>
    rw [(hpops.ranks hs).1] at h
    exact (List.pairwise_cons.1 h).2

theorem sorted_after (hs : strategy = .priority) : (after strategy rank ops).ranks.Pairwise (· ≤ ·) := by
  induction ops using List.reverseRecOn with
  | nil => exact .nil
  | append_singleton ops op ih =>
    rw [after_concat]
    exact sorted_act (by rw [strategy_after, hs]) ih op

theorem Precedes.concat (h : Precedes strategy rank ops p q)
    (hp : p ∈ (after strategy rank (ops ++ [op])).pending) (hq : q ∈ (after strategy rank (ops ++ [op])).pending) :
    Precedes strategy rank (ops ++ [op]) p q := by
  unfold Precedes at h ⊢
  cases strategy with
  | fifo | lifo =>
    obtain ⟨i, j, hi, hj, hij⟩ := h
    exact ⟨i, j, hi.concat hp, hj.concat hq, hij⟩
  | priority => exact h

/-- Nodes that were in the order of their turns are so still, as far as they have stayed. -/
theorem pairwise_concat {ps qs : List (Fin n)} (h : ps.Pairwise (Precedes strategy rank ops)) (hqs : qs.Sublist ps)
    (hstay : ∀ q ∈ qs, q ∈ (after strategy rank (ops ++ [op])).pending) :
    qs.Pairwise (Precedes strategy rank (ops ++ [op])) :=
  (h.sublist hqs).imp_of_mem fun hp hq h => h.concat (hstay _ hp) (hstay _ hq)

theorem mem_queue_after (hs : strategy ≠ .priority) :
    p ∈ (after strategy rank ops).queue ↔ p ∈ (after strategy rank ops).pending :=
  ((matched_after fun hpr => absurd hpr hs).queue (by rwa [strategy_after])).mem_iff

/-- A node that is pushed anew is the last that has become pending: it goes to the end of a queue, or to its front. -/
theorem queue_push (hs : strategy ≠ .priority) (hp : p ∉ (after strategy rank ops).pending)
    (h : (after strategy rank ops).queue.Pairwise (Precedes strategy rank ops)) :
    (after strategy rank (ops ++ [.push p])).queue.Pairwise (Precedes strategy rank (ops ++ [.push p])) := by
  have hnew := pendingSince_push hp
  have hstay : ∀ q ∈ (after strategy rank ops).queue, q ∈ (after strategy rank (ops ++ [.push p])).pending := by
    intro q hq
    rw [after_concat]
    exact mem_push.2 (.inr ((mem_queue_after hs).1 hq))
  have hearlier : ∀ q ∈ (after strategy rank ops).queue,
      ∃ i, PendingSince strategy rank (ops ++ [.push p]) q i ∧ i < ops.length := by
    intro q hq
    obtain ⟨i, hi⟩ := exists_pendingSince ((mem_queue_after hs).1 hq)
    exact ⟨i, hi.concat (hstay q hq), hi.lt_length⟩
  have hold := pairwise_concat h (List.Sublist.refl _) hstay
  rw [after_concat, act, push, if_neg (not_contains hp)]
  simp only [strategy_after]
  cases strategy with
  | priority => exact absurd rfl hs
  | fifo =>
    refine List.pairwise_append.2 ⟨hold, List.pairwise_singleton _ _, fun q hq r hr => ?_⟩
    obtain rfl := List.mem_singleton.1 hr
    obtain ⟨i, hi, hlt⟩ := hearlier q hq
    exact ⟨i, ops.length, hi, hnew, hlt⟩
  | lifo =>
    refine List.pairwise_cons.2 ⟨fun q hq => ?_, hold⟩
    obtain ⟨i, hi, hlt⟩ := hearlier q hq
    exact ⟨ops.length, i, hnew, hi, hlt⟩

/-- Nodes queue in the order of their turns. -/
theorem queue_after (hs : strategy ≠ .priority) :
    (after strategy rank ops).queue.Pairwise (Precedes strategy rank ops) := by
  induction ops using List.reverseRecOn with
  | nil => exact .nil
  | append_singleton ops op ih =>
    by_cases hnew : ∃ p, op = .push p ∧ p ∉ (after strategy rank ops).pending
    · obtain ⟨p, rfl, hp⟩ := hnew
      exact queue_push hs hp ih
    · -- Nothing joins the queue; at most its first node leaves it.
      refine pairwise_concat ih ?_ fun q hq => (mem_queue_after hs).1 hq
      have hacts := (after strategy rank ops).acts op
      rw [after_concat]
      generalize (after strategy rank ops).act op = w' at hacts ⊢
      cases hacts with
      | push p => rw [push_of_mem (by simpa using hnew)]
      | idle => exact List.Sublist.refl _
      | take _ hpops =>
        rw [hpops.queue (by rwa [strategy_after])]
        exact List.sublist_cons_self _ _

/-- The node that is taken comes before all others. -/
theorem precedes_of_pop? (h : strategy = .priority → ∀ p, .push p ∈ ops → Stands rank p)
    (hpop : (after strategy rank ops).pop? = some (p, w')) (hq : q ∈ (after strategy rank ops).pending)
    (hqp : q ≠ p) : Precedes strategy rank ops p q := by
  have hmatched := matched_after h
  by_cases hs : strategy = .priority
  · have hs' : (after strategy rank ops).strategy = .priority := by rw [strategy_after, hs]
    have hsorted : (after strategy rank ops).ranks.Pairwise (· ≤ ·) := sorted_after hs
    have hmem := (hmatched.ranks hs').symm.subset (List.mem_map_of_mem hq)
    have hholder := holder?_after h hs' hq
    obtain ⟨hranks, hp⟩ := (pops_of_pop? hpop).ranks hs'
    rw [hranks] at hsorted hmem
    rw [rank_after] at hsorted hmem hholder hp
    -- The first rank is the smallest, and no other node that is pending has it.
    have hle : rank p ≤ rank q := by
      rcases List.mem_cons.1 hmem with heq | hmem
      · exact Int.le_of_eq heq.symm
      · exact (List.pairwise_cons.1 hsorted).1 _ hmem
    have hne : rank p ≠ rank q := by
      intro heq
      rw [heq, hholder] at hp
      exact hqp (Option.some.inj hp)
    subst hs
    exact Int.lt_iff_le_and_ne.2 ⟨hle, hne⟩
  · have hs' : (after strategy rank ops).strategy ≠ .priority := by rwa [strategy_after]
    have hturns : (after strategy rank ops).queue.Pairwise (Precedes strategy rank ops) := queue_after hs
    have hmem := (hmatched.queue hs').symm.subset hq
    rw [(pops_of_pop? hpop).queue hs'] at hturns hmem
    exact (List.pairwise_cons.1 hturns).1 q ((List.mem_cons.1 hmem).resolve_left hqp)

theorem inOrder_after (h : strategy = .priority → ∀ p, .push p ∈ ops → Stands rank p) :
    (after strategy rank ops).InOrder (Precedes strategy rank ops) := by
  have hmatched := matched_after h
  refine ⟨hmatched, fun hs => ?_, (List.toFinset_card_of_nodup hmatched.nodup).symm, fun p hp => push_of_mem hp, ?_⟩
  · refine (hmatched.ranks hs).nodup_iff.2 (List.Nodup.map_on ?_ hmatched.nodup)
    intro p hp q hq heq
    have hp := holder?_after h hs hp
    rw [heq, holder?_after h hs hq] at hp
    exact (Option.some.inj hp).symm
  · intro hne
    obtain ⟨⟨p, w'⟩, hpop⟩ := Option.ne_none_iff_exists'.1 (mt hmatched.pending_of_pop?_none hne)
    refine ⟨p, w', hpop, mem_of_pop?_after h hpop, fun q => ?_, fun q hq hqp => precedes_of_pop? h hpop hq hqp⟩
    rw [(pops_of_pop? hpop).pending, hmatched.nodup.mem_erase_iff, and_comm]

/-- A node that is taken was pushed since it was taken before. -/
theorem Takes.pushed_between (h : strategy = .priority → ∀ p, .push p ∈ ops → Stands rank p) {i j : Nat}
    (hij : i < j) (hi : Takes strategy rank ops i p) (hj : Takes strategy rank ops j p) :
    ∃ k, i < k ∧ k < j ∧ ops[k]? = some (.push p) := by
  obtain ⟨-, w', hpop⟩ := hj
  have hbefore : strategy = .priority → ∀ p, .push p ∈ ops.take j → Stands rank p :=
    fun hs p hp => h hs p (List.mem_of_mem_take hp)
  exact exists_push hij hi.not_pending (mem_of_pop?_after hbefore hpop)

theorem mem_pending_iff : p ∈ (after strategy rank ops).pending ↔
    ∃ k, ops[k]? = some (.push p) ∧ ∀ j, k < j → ¬ Takes strategy rank ops j p := by
  constructor
  · intro hp
    obtain ⟨k, hk⟩ := exists_pendingSince hp
    refine ⟨k, hk.pushed, fun j hkj hj => ?_⟩
    exact hj.not_pending (hk.since (j + 1) (Nat.lt_succ_of_lt hkj) hj.lt_length)
  · rintro ⟨k, hk, hnever⟩
    have hlast : p ∈ (after strategy rank (ops.take ops.length)).pending ∨ _ :=
      pending_or_takes hk (List.getElem?_eq_some_iff.1 hk).1
    rcases hlast with hp | ⟨j, hkj, -, hj⟩
    · rwa [List.take_length] at hp
    · exact absurd hj (hnever j hkj)

/-- Queues and stacks are worked off in order, whatever the ranks. By ranks that goes for all histories of some nodes
exactly if each of these stands for its rank. -/
theorem orderly_iff (strategy : Strategy) (rank : Fin n → Int) (S : Fin n → Prop) :
    (∀ ops, (∀ p, .push p ∈ ops → S p) → Orderly strategy rank ops) ↔
      (strategy = .priority → ∀ p, S p → Stands rank p) := by
  constructor
  · intro h hs p hp
    have hpending : (after strategy rank [.push p]).pending = [p] :=
      pending_push (w := { strategy, rank }) List.not_mem_nil
    have horderly := h [.push p] fun q hq => by cases List.mem_singleton.1 hq; exact hp
    obtain ⟨q, w', hpop, hq, -⟩ := horderly.inOrder.turn (by rw [hpending]; exact List.cons_ne_nil _ _)
    rw [hpending, List.mem_singleton] at hq
    subst hq
    obtain ⟨-, hholder⟩ := (pops_of_pop? hpop).ranks (by rw [strategy_after, hs])
    have hlast := (holder?_eq_some_iff.1 hholder).2
    rwa [rank_after] at hlast
  · intro h ops hops
    have hstands : strategy = .priority → ∀ p, .push p ∈ ops → Stands rank p := fun hs p hp => h hs p (hops p hp)
    exact ⟨inOrder_after hstands, fun i j p => Takes.pushed_between hstands, fun p => mem_pending_iff⟩

/-- One rank for two nodes. -/
def tied : Fin 2 → Int := fun _ => 0

/-- With the first of two tied nodes pushed and no other, the second is taken. -/
theorem not_orderly_tied :
    (∀ p q, .push p ∈ [Op.push (0 : Fin 2)] → .push q ∈ [Op.push (0 : Fin 2)] → tied p = tied q → p = q) ∧
      ¬ Orderly .priority tied [.push 0] := by
  constructor
  · intro p q hp hq _
    cases List.mem_singleton.1 hp
    cases List.mem_singleton.1 hq
    rfl
  · intro h
    have htaken : (after .priority tied [.push 0]).pop?.map (·.1) = some 1 := by decide
    obtain ⟨p, w', hpop, hp, -⟩ := h.inOrder.turn (by decide)
    rw [hpop] at htaken
    cases htaken
    exact absurd hp (by decide)

end Dataflow.Worklist
