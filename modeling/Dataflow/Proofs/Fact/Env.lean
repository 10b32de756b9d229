import Dataflow.Fact.Env
import Mathlib.Data.List.Perm.Subperm
/-!
# Equal environments and their joins

An environment is what it says of every variable: `Env.same` compares just that, and merging two environments
joins what they say, variable by variable.
-/
namespace Dataflow

namespace Value

@[simp] theorem undefined_join (v : Value) : undefined.join v = v := by cases v <;> rfl

@[simp] theorem join_self (v : Value) : v.join v = v := by cases v <;> simp [join]

theorem join_le_iff {u v w : Value} : (u.join v).le w = true ↔ u.le w = true ∧ v.le w = true := by
  constructor
  · intro h
    have hv : v.le (u.join v) = true := by rw [join_comm]; exact le_join_left v u
    exact ⟨le_trans (le_join_left u v) h, le_trans hv h⟩
  · exact fun h => join_le h.1 h.2

end Value

namespace Env

variable {a b c : Env} {v : Var}

theorem mem_keys_iff : v ∈ a.keys ↔ a.get v ≠ .undefined := by
  constructor
  · intro h
    obtain ⟨e, he, rfl⟩ := List.mem_map.1 h
    rw [get_of_mem he]
    exact a.known e he
  · exact fun h => List.mem_map.2 ⟨_, mem_of_get h, rfl⟩

theorem lookup_of_not_mem {l : List (Var × Value)} (h : v ∉ l.map (·.1)) : lookup l v = .undefined := by
  by_contra hne
  exact h (List.mem_map.2 ⟨_, mem_of_lookup hne, rfl⟩)

theorem put_of_mem {l : List (Var × Value)} (hl : (l.map (·.1)).Nodup) {v : Var} {x : Value} (h : (v, x) ∈ l) :
    put l v x = l := by
  induction l with
  | nil => cases h
  | cons e rest ih =>
    obtain ⟨k, y⟩ := e
    rw [List.map_cons, List.nodup_cons] at hl
    rcases List.mem_cons.1 h with heq | h
    · cases heq
      simp [put]
    · have hk : k ≠ v := by
        rintro rfl
        exact hl.1 (List.mem_map.2 ⟨_, h, rfl⟩)
      rw [put, if_neg hk, ih hl.2 h]

theorem set_of_mem {x : Value} (h : (v, x) ∈ a.entries) : a.set v x = a := by
  obtain ⟨entries, distinct, known⟩ := a
  simp only [set, dif_neg (known _ h), put_of_mem distinct h]

theorem contains_iff : a.contains v = true ↔ a.get v ≠ .undefined := by
  rw [← mem_keys_iff]
  simp [contains, keys]

/-! ## Equality -/

theorem keys_perm (h : ∀ v, a.get v = b.get v) : a.keys.Perm b.keys :=
  (List.perm_ext_iff_of_nodup a.distinct b.distinct).2 fun v => by
    change v ∈ a.keys ↔ v ∈ b.keys
    rw [mem_keys_iff, mem_keys_iff, h v]

theorem length_keys (a : Env) : a.keys.length = a.size := List.length_map _

theorem same_iff : a.same b = true ↔ ∀ v, a.get v = b.get v := by
  simp only [same, Bool.and_eq_true, decide_eq_true_eq, List.all_eq_true]
  constructor
  · rintro ⟨hsize, hall⟩ v
    have hsub : a.keys ⊆ b.keys := by
      intro k hk
      obtain ⟨e, he, rfl⟩ := List.mem_map.1 hk
      rw [mem_keys_iff, hall e he]
      exact a.known e he
    -- No more keys on the other side, and all of this side among them: the same keys.
    have hperm : a.keys.Perm b.keys := by
      have hlength : b.keys.length = a.keys.length := by rw [length_keys, length_keys, hsize]
      exact (List.Nodup.subperm a.distinct hsub).perm_of_length_le (Nat.le_of_eq hlength)
    by_cases hv : v ∈ a.keys
    · exact (hall _ (mem_of_get (mem_keys_iff.1 hv))).symm
    · have hb : v ∉ b.keys := fun hb => hv (hperm.symm.subset hb)
      rw [not_not.1 (mt mem_keys_iff.2 hv), not_not.1 (mt mem_keys_iff.2 hb)]
  · intro h
    constructor
    · rw [← length_keys, ← length_keys, (keys_perm h).length_eq]
    · intro e he
      rw [← h, get_of_mem he]

/-- Taking over an environment leaves it, and counts as a change exactly if it was another one. -/
theorem replace_spec (target source : Env) :
    (∀ v, (target.replace source).1.get v = source.get v) ∧
      ((target.replace source).2 = true ↔ ¬ ∀ v, (target.replace source).1.get v = target.get v) := by
  unfold replace
  split
  next h => exact ⟨same_iff.1 h, by simp⟩
  next h =>
    refine ⟨fun v => rfl, ?_⟩
    simp only [same_iff, true_iff] at h ⊢
    exact fun hc => h fun v => (hc v).symm

/-! ## Order -/

theorem le_refl (a : Env) : a.le a = true := le_iff.2 fun _ => Value.le_refl _

theorem le_trans (h : a.le b = true) (h' : b.le c = true) : a.le c = true :=
  le_iff.2 fun v => Value.le_trans (le_iff.1 h v) (le_iff.1 h' v)

theorem le_antisymm_iff : a.le b = true ∧ b.le a = true ↔ ∀ v, a.get v = b.get v := by
  constructor
  · exact fun h v => Value.le_antisymm (le_iff.1 h.1 v) (le_iff.1 h.2 v)
  · intro h
    refine ⟨le_iff.2 ?_, le_iff.2 ?_⟩
    · intro v
      rw [h v]
      exact Value.le_refl _
    · intro v
      rw [h v]
      exact Value.le_refl _

/-! ## Merging -/

/-- What merging does with one entry. -/
def joinEntry (t : Env × Bool) (e : Var × Value) : Env × Bool :=
  let r := t.1.update e.1 (e.2.join (t.1.get e.1))
  (r.1, t.2 || r.2)

theorem mergeInto_eq (source target : Env) :
    source.mergeInto target = source.entries.foldl joinEntry (target, false) := rfl

theorem get_joinEntry (t : Env × Bool) (k v : Var) (x : Value) :
    (joinEntry t (k, x)).1.get v = if k = v then x.join (t.1.get k) else t.1.get v :=
  get_set ..

theorem joinEntry_changed_iff (t : Env × Bool) (e : Var × Value) :
    (joinEntry t e).2 = true ↔ t.2 = true ∨ e.2.join (t.1.get e.1) ≠ t.1.get e.1 := by
  simp only [joinEntry, update, Bool.or_eq_true, bne_iff_ne, ne_comm]

theorem get_foldl_joinEntry {l : List (Var × Value)} (hl : (l.map (·.1)).Nodup) (t : Env × Bool) (v : Var) :
    (l.foldl joinEntry t).1.get v = (lookup l v).join (t.1.get v) := by
  induction l generalizing t with
  | nil => simp [lookup]
  | cons e rest ih =>
    obtain ⟨k, x⟩ := e
    rw [List.map_cons, List.nodup_cons] at hl
    rw [List.foldl_cons, ih hl.2, get_joinEntry, lookup]
    by_cases hk : k = v
    · subst hk
      simp [lookup_of_not_mem hl.1]
    · simp [hk]

theorem foldl_joinEntry_changed_iff {l : List (Var × Value)} (hl : (l.map (·.1)).Nodup) (t : Env × Bool) :
    (l.foldl joinEntry t).2 = true ↔ t.2 = true ∨ ∃ e ∈ l, e.2.join (t.1.get e.1) ≠ t.1.get e.1 := by
  induction l generalizing t with
  | nil => simp
  | cons e rest ih =>
    rw [List.map_cons, List.nodup_cons] at hl
    -- No other entry is of the variable that has just been joined.
    have hrest : ∀ f ∈ rest, (joinEntry t e).1.get f.1 = t.1.get f.1 := by
      intro f hf
      rw [get_joinEntry t e.1 f.1 e.2, if_neg]
      rintro heq
      exact hl.1 (heq ▸ List.mem_map_of_mem hf)
    have hsame : (∃ f ∈ rest, f.2.join ((joinEntry t e).1.get f.1) ≠ (joinEntry t e).1.get f.1) ↔
        ∃ f ∈ rest, f.2.join (t.1.get f.1) ≠ t.1.get f.1 :=
      exists_congr fun f => and_congr_right fun hf => by rw [hrest f hf]
    rw [List.foldl_cons, ih hl.2, hsame, joinEntry_changed_iff, List.exists_mem_cons_iff, or_assoc]

/-- Merging joins what two environments say of a variable. -/
theorem get_mergeInto (source target : Env) (v : Var) :
    (source.mergeInto target).1.get v = (source.get v).join (target.get v) :=
  get_foldl_joinEntry source.distinct (target, false) v

/-- Merging counts as a change exactly if it is one. -/
theorem mergeInto_changed_iff (source target : Env) :
    (source.mergeInto target).2 = true ↔ ¬ ∀ v, (source.mergeInto target).1.get v = target.get v := by
  rw [mergeInto_eq, foldl_joinEntry_changed_iff source.distinct, ← mergeInto_eq, not_forall]
  simp only [get_mergeInto, Bool.false_eq_true, false_or]
  constructor
  · rintro ⟨⟨v, x⟩, he, hne⟩
    exact ⟨v, by rwa [get_of_mem he]⟩
  · rintro ⟨v, hne⟩
    have hv : source.get v ≠ .undefined := by
      intro hv
      rw [hv, Value.undefined_join] at hne
      exact hne rfl
    exact ⟨_, mem_of_get hv, hne⟩

theorem mergeInto_le_iff : (a.mergeInto b).1.le c = true ↔ a.le c = true ∧ b.le c = true := by
  simp only [le_iff, get_mergeInto, Value.join_le_iff, forall_and]

/-- An environment that has an entry already joins it without a trace. -/
theorem joinEntry_of_mem {e : Var × Value} (h : e ∈ a.entries) (changed : Bool) :
    joinEntry (a, changed) e = (a, changed) := by
  obtain ⟨v, x⟩ := e
  simp only [joinEntry, update, get_of_mem h, Value.join_self, set_of_mem h, bne_self_eq_false, Bool.or_false]

end Env

end Dataflow
