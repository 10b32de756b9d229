import Dataflow.Proofs.Reading.Jumps
/-!
# Where statements come from

Every statement of a routine that has been read is that of a form, with the targets of its jumps in place
(`exists_form_of_read`). So what forms guarantee, holds of all statements: no switch has two arms for one number.
-/
namespace Dataflow

/-- The arms of a switch. -/
def Stmt.arms {τ : Type} : Stmt τ → List (Int × Option τ)
  | switch _ cases _ => cases
  | _ => []

/-- No switch has two arms for one number. -/
def Stmt.DistinctArms {τ : Type} (s : Stmt τ) : Prop := (s.arms.map (·.1)).Nodup

namespace Reading

variable {line : Nat} {x : Stmt String}

/-- Statements of forms, and the one that is added where labels wait to the end. -/
def Written (x : Stmt String) : Prop :=
  x = .nop ∨ ∃ form line s s', (Form.read line form).run s = .ok (some x, s')

theorem written_addLine {a a' : Assembly} {source : SourceLine} (h : ∀ l ∈ a.body, Written l.stmt)
    (ha : a.addLine line source = .ok a') : ∀ l ∈ a'.body, Written l.stmt := by
  obtain ⟨stmt, hread, hbody⟩ := addLine_eq_ok ha
  intro l hl
  rw [hbody] at hl
  cases stmt with
  | none => exact h l hl
  | some x =>
    rcases Array.mem_push.1 hl with hl | rfl
    · exact h l hl
    · cases hform : source.form with
      | none =>
        rw [hform] at hread
        cases hread
      | some form =>
        rw [hform] at hread
        exact .inr ⟨form, line, a.scope, a'.scope, hread⟩

theorem exists_form_of_read {text name : String} {r : Routine} (h : read text name = .ok r) :
    ∀ l ∈ r.body, ∃ x, Written x ∧ ∃ f : String → Except ReadError Target, x.mapTargets f = .ok l.stmt := by
  obtain ⟨a, ha, hr⟩ := read_eq_ok (I := fun a => ∀ l ∈ a.body, Written l.stmt)
    (fun l hl => absurd hl (Array.not_mem_empty l)) written_addLine h
  intro l hl
  obtain ⟨l', hl', f, hf⟩ := exists_of_finish hr l hl
  rcases mem_close_body hl' with hl' | hnop
  · exact ⟨l'.stmt, ha l' hl', f, hf⟩
  · exact ⟨l'.stmt, .inl hnop, f, hf⟩

/-! ## The arms of a switch -/

theorem nodup_of_repeated? {seen ns : List Int} (h : repeated? seen ns = none) :
    ns.Nodup ∧ ∀ n ∈ ns, n ∉ seen := by
  induction ns generalizing seen with
  | nil => exact ⟨List.nodup_nil, fun _ hn => absurd hn List.not_mem_nil⟩
  | cons n ns ih =>
    unfold repeated? at h
    split at h
    · cases h
    next hn =>
      obtain ⟨hnodup, hnew⟩ := ih h
      refine ⟨List.nodup_cons.2 ⟨fun hmem => hnew n hmem List.mem_cons_self, hnodup⟩, ?_⟩
      refine List.forall_mem_cons.2 ⟨hn, fun m hm hseen => ?_⟩
      exact hnew m hm (List.mem_cons_of_mem n hseen)

theorem distinctArms_of_form {form : Form} {s s' : Scope} (h : (form.read line).run s = .ok (some x, s')) :
    x.DistinctArms := by
  cases Form.reads_of_run h with
  | switch _ hrepeated =>
    -- The numbers of the arms have been checked.
    unfold Stmt.DistinctArms Stmt.arms
    rw [List.map_map]
    exact (nodup_of_repeated? hrepeated).1
  | branch | goto | leave | «return» | nop | call | invoke | assign => exact List.nodup_nil

theorem map_fst_mapM {τ υ ε : Type} {f : τ → Except ε υ} {arms : List (Int × Option τ)}
    {arms' : List (Int × Option υ)}
    (h : arms.mapM (fun (n, target) => return (n, ← target.mapM f)) = .ok arms') :
    arms'.map (·.1) = arms.map (·.1) := by
  induction arms generalizing arms' with
  | nil =>
    cases h
    rfl
  | cons arm arms ih =>
    rw [List.mapM_cons] at h
    obtain ⟨arm', harm, h⟩ := bind_ok_iff.1 h
    obtain ⟨rest, hrest, h⟩ := bind_ok_iff.1 h
    cases h
    obtain ⟨target, -, heq⟩ := bind_ok_iff.1 harm
    cases heq
    rw [List.map_cons, List.map_cons, ih hrest]

/-- Targets in their places leave the numbers of the arms. -/
theorem map_fst_arms {τ υ ε : Type} {f : τ → Except ε υ} {x : Stmt τ} {y : Stmt υ} (h : x.mapTargets f = .ok y) :
    y.arms.map (·.1) = x.arms.map (·.1) := by
  cases x with
  | assign | invoke | «return» | nop =>
    cases h
    rfl
  | branch condition target | goto target =>
    obtain ⟨target', -, h⟩ := bind_ok_iff.1 h
    cases h
    rfl
  | switch scrutinee arms default =>
    obtain ⟨arms', harms, h⟩ := bind_ok_iff.1 h
    obtain ⟨default', -, h⟩ := bind_ok_iff.1 h
    cases h
    exact map_fst_mapM harms

/-- In a routine that has been read no switch has two arms for one number. -/
theorem distinctArms_read {text name : String} {r : Routine} (h : read text name = .ok r) :
    ∀ l ∈ r.body, l.stmt.DistinctArms := by
  intro l hl
  obtain ⟨x, hx, f, hf⟩ := exists_form_of_read h l hl
  rw [Stmt.DistinctArms, map_fst_arms hf]
  rcases hx with rfl | ⟨form, line, s, s', hread⟩
  · exact List.nodup_nil
  · exact distinctArms_of_form hread

end Reading

end Dataflow
