import Dataflow.Proofs.Fact.Env
import Mathlib.Logic.Function.Basic
/-!
# Environments and their histories

Environments are changed in place, one command after another, and a command may name the same one twice. Whatever the
history, equal environments are those that say the same of every variable, a command reports a change exactly if there
is one, and merging joins: in what order, how often, and whether on itself makes no difference (`history_canonical`).
-/
namespace Dataflow.Env

/-- What is done to one of several environments, which comes last where there are two. -/
inductive Command (ι : Type) where
  | update (target : ι) (v : Var) (x : Value)
  | remove (target : ι) (v : Var)
  | copy (source target : ι)
  | replace (source target : ι)
  | merge (source target : ι)

/-- What a command answers: whether it has changed anything, or what was known of the variable that it forgets. -/
inductive Reply where
  | changed (b : Bool)
  | was (x : Option Value)
  | done

variable {ι : Type}

/-- The least environment above two. -/
structure IsLub (a b e : Env) : Prop where
  left : a.le e = true
  right : b.le e = true
  least : ∀ c, a.le c = true → b.le c = true → e.le c = true

theorem isLub_mergeInto (a b : Env) : IsLub a b (a.mergeInto b).1 := by
  obtain ⟨ha, hb⟩ := mergeInto_le_iff.1 (le_refl (a.mergeInto b).1)
  exact ⟨ha, hb, fun c hac hbc => mergeInto_le_iff.2 ⟨hac, hbc⟩⟩

/-- The same environments on two lists, in whatever order and however often. -/
def SameSet (envs : ι → Env) (ss rs : List ι) : Prop :=
  ∀ e, (∃ s ∈ ss, (envs s).same e = true) ↔ ∃ r ∈ rs, (envs r).same e = true

theorem SameSet.forall_le {envs : ι → Env} {ss rs : List ι} (h : SameSet envs ss rs) {e : Env}
    (hss : ∀ s ∈ ss, (envs s).le e = true) : ∀ r ∈ rs, (envs r).le e = true := by
  intro r hr
  obtain ⟨s, hs, hsame⟩ := (h (envs r)).2 ⟨r, hr, same_iff.2 fun _ => rfl⟩
  exact le_trans (le_antisymm_iff.2 (same_iff.1 hsame)).2 (hss s hs)

theorem SameSet.symm {envs : ι → Env} {ss rs : List ι} (h : SameSet envs ss rs) : SameSet envs rs ss :=
  fun e => (h e).symm

def Command.target : Command ι → ι
  | .update i _ _ | .remove i _ | .copy _ i | .replace _ i | .merge _ i => i

variable [DecidableEq ι]

/-- Merges `source` into `target` from its entry at `k` on. The entries are read one by one, as they are by then; it
fails if their number has changed on the way. -/
def mergeFrom (source target : ι) (count : Nat) (envs : ι → Env) (changed : Bool) (k : Nat) :
    Option ((ι → Env) × Bool) :=
  if h : (envs source).size = count then
    match he : (envs source).entries[k]? with
    | none => some (envs, changed)
    | some e =>
      have hk : k < count := h ▸ (List.getElem?_eq_some_iff.1 he).1
      let r := joinEntry (envs target, changed) e
      mergeFrom source target count (Function.update envs target r.1) r.2 (k + 1)
  else none
termination_by count - k

/-- The environments after a command, and its answer. -/
def Command.run (envs : ι → Env) : Command ι → Option ((ι → Env) × Reply)
  | .update i v x =>
    let (e, b) := (envs i).update v x
    some (Function.update envs i e, .changed b)
  | .remove i v =>
    let (e, x) := (envs i).remove v
    some (Function.update envs i e, .was x)
  | .copy s t => some (Function.update envs t (envs s), .done)
  | .replace s t =>
    let (e, b) := (envs t).replace (envs s)
    some (Function.update envs t e, .changed b)
  | .merge s t => (mergeFrom s t (envs s).size envs false 0).map fun (envs, b) => (envs, .changed b)

/-- The environments after several commands. -/
def history (envs : ι → Env) (cs : List (Command ι)) : Option (ι → Env) :=
  cs.foldlM (fun envs c => (c.run envs).map (·.1)) envs

/-! ## What a command is to do -/

/-- What is known of the variables, after a command, in its target. -/
def Command.leaves (envs : ι → Env) : Command ι → Var → Value
  | .update i v x => Function.update (envs i).get v x
  | .remove i v => Function.update (envs i).get v .undefined
  | .copy s _ | .replace s _ => (envs s).get
  | .merge s t => fun v => ((envs s).get v).join ((envs t).get v)

/-- The answer to a command, where `differs` says whether its target is another one than before. -/
def Command.Answers (envs : ι → Env) (differs : Prop) : Command ι → Reply → Prop
  | .remove i v, reply => ∃ x, reply = .was x ∧ x.getD .undefined = (envs i).get v ∧ (x.isSome = true ↔ differs)
  | .copy _ _, reply => reply = .done
  | .update _ _ _, reply | .replace _ _, reply | .merge _ _, reply => ∃ b, reply = .changed b ∧ (b = true ↔ differs)

/-- A command has its effect on its target and on no other environment, and reports what it did. -/
structure Command.Does (c : Command ι) (before after : ι → Env) (reply : Reply) : Prop where
  leaves : (after c.target).get = c.leaves before
  others : ∀ i, i ≠ c.target → after i = before i
  answers : c.Answers before ((after c.target).same (before c.target) = false) reply
  isLub : ∀ s t, c = .merge s t → IsLub (before s) (before t) (after t)

/-- What is stored is known; environments are equal exactly if they say the same of every variable, and exactly if each
is below the other; every command does what it is to do; and several that are merged into one leave there what depends
on nothing but which they are. -/
structure Canonical (envs : ι → Env) : Prop where
  known : ∀ i v, (envs i).contains v = true ↔ (envs i).get v ≠ .undefined
  same_iff_get : ∀ i j, (envs i).same (envs j) = true ↔ ∀ v, (envs i).get v = (envs j).get v
  same_iff_le : ∀ i j, (envs i).same (envs j) = true ↔ (envs i).le (envs j) = true ∧ (envs j).le (envs i) = true
  does : ∀ c : Command ι, ∃ after reply, c.run envs = some (after, reply) ∧ c.Does envs after reply
  merged : ∀ t ss rs, SameSet envs ss rs →
    ∃ a b, history envs (ss.map (.merge · t)) = some a ∧ history envs (rs.map (.merge · t)) = some b ∧
      (a t).same (b t) = true

variable {envs envs' : ι → Env}

/-! ## In place -/

/-- Reading entry by entry makes no difference, also where an environment is merged into itself. -/
theorem mergeFrom_eq (envs : ι → Env) (s t : ι) (changed : Bool) (k : Nat) :
    mergeFrom s t (envs s).size envs changed k =
      some (Function.update envs t (((envs s).entries.drop k).foldl joinEntry (envs t, changed)).1,
        (((envs s).entries.drop k).foldl joinEntry (envs t, changed)).2) := by
  induction hl : (envs s).entries.drop k generalizing envs changed k with
  | nil =>
    have hk : (envs s).entries[k]? = none := List.getElem?_eq_none (List.drop_eq_nil_iff.1 hl)
    rw [mergeFrom, dif_pos rfl]
    split
    · simp only [List.foldl_nil, Function.update_eq_self]
    next he => rw [hk] at he; cases he
  | cons e rest ih =>
    have hk : (envs s).entries[k]? = some e := by
      rw [← List.head?_drop, hl, List.head?_cons]
    have hrest : (envs s).entries.drop (k + 1) = rest := by
      rw [← List.tail_drop, hl, List.tail_cons]
    let r := joinEntry (envs t, changed) e
    -- What is read stays as it is: an environment joins its own entries without a trace.
    have hs : Function.update envs t r.1 s = envs s := by
      by_cases hst : s = t
      · subst hst
        rw [Function.update_self]
        exact congrArg Prod.fst (joinEntry_of_mem (List.mem_of_getElem? hk) changed)
      · exact Function.update_of_ne hst _ _
    rw [mergeFrom, dif_pos rfl]
    split
    next he => rw [hk] at he; cases he
    next e' he =>
      rw [hk] at he
      cases he
      have h := ih (Function.update envs t r.1) r.2 (k + 1) (by rw [hs, hrest])
      rw [hs, Function.update_self, Function.update_idem] at h
      exact h

theorem run_merge (envs : ι → Env) (s t : ι) :
    (Command.merge s t).run envs =
      some (Function.update envs t ((envs s).mergeInto (envs t)).1, .changed ((envs s).mergeInto (envs t)).2) := by
  rw [Command.run, mergeFrom_eq, List.drop_zero, ← mergeInto_eq, Option.map_some]

/-! ## One command -/

theorem same_eq_false_iff {a b : Env} : a.same b = false ↔ ¬ ∀ v, a.get v = b.get v := by
  rw [← same_iff, Bool.not_eq_true]

theorem get_set_eq_update (e : Env) (v : Var) (x : Value) : (e.set v x).get = Function.update e.get v x := by
  funext w
  rw [get_set, Function.update_apply]
  simp only [eq_comm]

theorem get_erase_eq_update (e : Env) (v : Var) : (e.erase v).get = Function.update e.get v .undefined := by
  funext w
  rw [get_erase, Function.update_apply]
  simp only [eq_comm]

/-- Writing one value is a change exactly if it is another one than before. -/
theorem same_eq_false_of_update {a b : Env} {v : Var} {x : Value} (h : b.get = Function.update a.get v x) :
    b.same a = false ↔ a.get v ≠ x := by
  rw [same_eq_false_iff, h]
  constructor
  · rintro hne rfl
    exact hne fun w => by rw [Function.update_eq_self]
  · intro hne hall
    have hv := hall v
    rw [Function.update_self] at hv
    exact hne hv.symm

/-- One environment is written, and nothing else. -/
theorem Command.does_update {c : Command ι} {e : Env} {reply : Reply} (hleaves : e.get = c.leaves envs)
    (hanswers : c.Answers envs (e.same (envs c.target) = false) reply)
    (hlub : ∀ s t, c = .merge s t → IsLub (envs s) (envs t) e) :
    c.Does envs (Function.update envs c.target e) reply := by
  refine ⟨?_, fun i hi => Function.update_of_ne hi _ _, ?_, ?_⟩
  · rwa [Function.update_self]
  · rwa [Function.update_self]
  · rintro s t rfl
    exact (Function.update_self t e envs).symm ▸ hlub s t rfl

/-- A command succeeds and does what it is to do. -/
theorem Command.exists_run (envs : ι → Env) (c : Command ι) :
    ∃ after reply, c.run envs = some (after, reply) ∧ c.Does envs after reply := by
  cases c with
  | update i v x =>
    refine ⟨_, _, rfl, does_update (get_set_eq_update ..) ⟨_, rfl, ?_⟩ nofun⟩
    exact bne_iff_ne.trans (same_eq_false_of_update (get_set_eq_update ..)).symm
  | remove i v =>
    have hdiffers := contains_iff.trans (same_eq_false_of_update (get_erase_eq_update (envs i) v)).symm
    refine ⟨_, _, rfl, does_update (get_erase_eq_update ..) ⟨_, rfl, ?_, ?_⟩ nofun⟩
    · split
      · rfl
      next hv => exact (not_not.1 (mt contains_iff.2 hv)).symm
    · rw [Option.isSome_ite]
      exact hdiffers
  | copy s t => exact ⟨_, _, rfl, does_update rfl rfl nofun⟩
  | replace s t =>
    obtain ⟨hget, hchanged⟩ := replace_spec (envs t) (envs s)
    exact ⟨_, _, rfl, does_update (funext hget) ⟨_, rfl, hchanged.trans same_eq_false_iff.symm⟩ nofun⟩
  | merge s t =>
    refine ⟨_, _, run_merge envs s t, does_update (funext (get_mergeInto _ _)) ⟨_, rfl, ?_⟩ ?_⟩
    · exact (mergeInto_changed_iff _ _).trans same_eq_false_iff.symm
    · intro s' t' h
      cases h
      exact isLub_mergeInto _ _

/-! ## Several commands -/

theorem history_cons {c : Command ι} {reply : Reply} (h : c.run envs = some (envs', reply)) (cs : List (Command ι)) :
    history envs (c :: cs) = history envs' cs := by
  simp only [history, List.foldlM_cons, h, Option.map_some, Option.bind_eq_bind, Option.bind_some]

theorem exists_history (envs : ι → Env) (cs : List (Command ι)) : ∃ envs', history envs cs = some envs' := by
  induction cs generalizing envs with
  | nil => exact ⟨envs, rfl⟩
  | cons c cs ih =>
    obtain ⟨after, reply, hrun, -⟩ := c.exists_run envs
    rw [history_cons hrun]
    exact ih after

/-- Environments that are merged into one, itself perhaps among them, leave the least above all of them. -/
theorem history_merge (envs : ι → Env) (t : ι) (ss : List ι) :
    ∃ envs', history envs (ss.map (.merge · t)) = some envs' ∧
      ∀ e, (envs' t).le e = true ↔ (envs t).le e = true ∧ ∀ s ∈ ss, (envs s).le e = true := by
  induction ss generalizing envs with
  | nil => exact ⟨envs, rfl, fun e => by simp⟩
  | cons s ss ih =>
    obtain ⟨after, reply, hrun, hdoes⟩ := (Command.merge s t).exists_run envs
    obtain ⟨envs', hhistory, hle⟩ := ih after
    refine ⟨envs', by rw [List.map_cons, history_cons hrun, hhistory], fun e => ?_⟩
    have hlub := hdoes.isLub s t rfl
    have hafter : (after t).le e = true ↔ (envs s).le e = true ∧ (envs t).le e = true :=
      ⟨fun h => ⟨le_trans hlub.left h, le_trans hlub.right h⟩, fun h => hlub.least e h.1 h.2⟩
    rw [hle, List.forall_mem_cons, hafter]
    constructor
    · rintro ⟨⟨hs, ht⟩, hss⟩
      refine ⟨ht, hs, fun r hr => ?_⟩
      by_cases hrt : r = t
      · exact hrt ▸ ht
      · exact hdoes.others r hrt ▸ hss r hr
    · rintro ⟨ht, hs, hss⟩
      refine ⟨⟨hs, ht⟩, fun r hr => ?_⟩
      by_cases hrt : r = t
      · exact hrt ▸ hafter.2 ⟨hs, ht⟩
      · exact (hdoes.others r hrt).symm ▸ hss r hr

/-- After every history of any number of environments, all of them are in canonical form. -/
theorem history_canonical (start : ι → Env) (cs : List (Command ι)) :
    ∃ envs, history start cs = some envs ∧ Canonical envs := by
  obtain ⟨envs, hhistory⟩ := exists_history start cs
  refine ⟨envs, hhistory, ?_⟩
  refine ⟨fun i v => contains_iff, fun i j => same_iff, fun i j => same_iff.trans le_antisymm_iff.symm,
    fun c => c.exists_run envs, ?_⟩
  intro t ss rs hset
  obtain ⟨a, ha, hale⟩ := history_merge envs t ss
  obtain ⟨b, hb, hble⟩ := history_merge envs t rs
  refine ⟨a, b, ha, hb, same_iff.2 (le_antisymm_iff.1 ⟨?_, ?_⟩)⟩
  · obtain ⟨ht, hrs⟩ := (hble (b t)).1 (le_refl _)
    exact (hale _).2 ⟨ht, hset.symm.forall_le hrs⟩
  · obtain ⟨ht, hss⟩ := (hale (a t)).1 (le_refl _)
    exact (hble _).2 ⟨ht, hset.forall_le hss⟩

end Dataflow.Env
