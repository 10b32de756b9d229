import Dataflow.Proofs.Reading.Literals
import Dataflow.Proofs.Reading.Rereading
/-!
# How reading fails

Reading a text gives a routine, or names a line and what is wrong with it (`failsAtLine_iff`). The exception is a
literal with too many digits to be converted: where reading comes to one, the failure names no line.
-/
namespace Dataflow

/-- What is not put in place stands among the targets. -/
theorem Stmt.exists_of_mapTargets_error {τ υ ε : Type} {f : τ → Except ε υ} {x : Stmt τ} {e : ε}
    (h : x.mapTargets f = .error e) : ∃ t ∈ x.targets, f t = .error e := by
  have hoption : ∀ {target : Option τ} {e : ε}, target.mapM f = .error e → ∃ t ∈ target.toList, f t = .error e := by
    intro target e h
    cases target with
    | none => cases h
    | some t =>
      rcases bind_error_iff.1 h with h | ⟨u, -, h⟩
      · exact ⟨t, List.mem_cons_self, h⟩
      · cases h
  cases x with
  | assign | invoke | «return» | nop => cases h
  | branch condition target | goto target =>
    rcases bind_error_iff.1 h with h | ⟨target', -, h⟩
    · exact hoption h
    · cases h
  | switch scrutinee cases default =>
    rcases bind_error_iff.1 h with h | ⟨cases', -, h⟩
    · obtain ⟨⟨n, target⟩, hc, h⟩ := exists_of_mapM_error h
      rcases bind_error_iff.1 h with h | ⟨target', -, h⟩
      · obtain ⟨t, ht, hfail⟩ := hoption h
        exact ⟨t, List.mem_append_left _ (List.mem_filterMap.2 ⟨_, hc, Option.mem_toList.1 ht⟩), hfail⟩
      · cases h
    · rcases bind_error_iff.1 h with h | ⟨default', -, h⟩
      · obtain ⟨t, ht, hfail⟩ := hoption h
        exact ⟨t, List.mem_append_right _ ht, hfail⟩
      · cases h

namespace Reading

variable {a : Assembly} {o : Outline} {n : Nat} {e : ReadError} {text name : String}

/-! ## What is wrong with a line -/

/-- The labels that a form jumps to. -/
def Form.labels : Form → List String
  | branch _ _ _ label | goto label => [label]
  | switch _ arms default => arms.map (·.2) ++ default.toList
  | _ => []

/-- The lines before one have been read, and the line says something. -/
def Reaches (text : String) (n : Nat) (a : Assembly) (source : SourceLine) : Prop :=
  ∃ done cs rest, numberedLines text = done ++ (cs, n) :: rest ∧ done.foldlM step {} = .ok a ∧
    (withoutComment cs).all Text.isBlank = false ∧ readLine n (withoutComment cs) = .ok source

/-- What can be wrong with a line of a text: it does not follow the grammar, a literal in it does not fit in 32 bits,
it clashes with what is known before it, its label is also on an earlier line, or no line has a label that it jumps
to. -/
inductive Offends (text : String) (n : Nat) : SyntaxFault → Prop
  | unreadable {cs left : List Char} {source : SourceLine} : (cs, n) ∈ numberedLines text →
      (withoutComment cs).all Text.isBlank = false → Grammar.line (withoutComment cs) = some (source, left) →
      left ≠ [] → Offends text n (.unreadable (String.ofList (Text.trim (withoutComment cs)))
        ((withoutComment cs).length - left.length + 1))
  | literalRange {source : SourceLine} {form : Form} {k : Numeral} : Says (numberedLines text) n source →
      source.form = some form → k ∈ form.numerals → k.outOfRange = true → Offends text n (.literalRange k.text)
  | clash {a : Assembly} {source : SourceLine} {form : Form} {fault : SyntaxFault} : Reaches text n a source →
      source.form = some form → Clashes a.scope form fault → Offends text n fault
  | duplicateLabel {label : String} {m : Nat} : m < n → (outline (numberedLines text)).defines label m →
      (outline (numberedLines text)).defines label n → Offends text n (.duplicateLabel label)
  | unknownLabel {form : Form} {label : String} : (outline (numberedLines text)).holds n form → label ∈ form.labels →
      (∀ m, ¬ (outline (numberedLines text)).defines label m) → Offends text n (.unknownLabel label)

/-- Reading comes to a line with a literal of some kind, the first of the kind on its line. -/
def Meets (kind : Numeral → Bool) (text : String) (n : Nat) (k : Numeral) : Prop :=
  ∃ a source form, Reaches text n a source ∧ source.form = some form ∧ form.numerals.find? kind = some k

/-- The only way to fail is at a line that offends. In particular a literal that does not fit in 32 bits is reported on
its line. -/
structure FailsAtLine (text name : String) : Prop where
  outcome : (∃ r, read text name = .ok r) ∨ ∃ n fault, read text name = .error (.atLine n fault) ∧ Offends text n fault
  literal : ∀ n k, Meets Numeral.outOfRange text n k →
    read text name = .error (.atLine n (.literalRange k.text))

/-! ## Labels -/

theorem Jumps.mem_labels {form : Form} {x : Stmt String} (h : Jumps Eq form x) :
    ∀ label ∈ x.targets, label ∈ form.labels := by
  intro label hlabel
  cases h with
  | branch hgoes | goto hgoes =>
    cases hgoes
    exact hlabel
  | switch harms hdefault =>
    rcases List.mem_append.1 hlabel with hlabel | hlabel
    · obtain ⟨c, hc, hlabel⟩ := List.mem_filterMap.1 hlabel
      obtain ⟨i, hi⟩ := List.getElem?_of_mem hc
      obtain ⟨arm, harm, -, t, ht, rfl⟩ := forall₂_getElem? harms hi
      rw [ht] at hlabel
      cases hlabel
      exact List.mem_append_left _ (List.mem_map_of_mem (List.mem_of_getElem? harm))
    · cases hdefault with
      | none => cases hlabel
      | some hgoes =>
        cases hgoes
        exact List.mem_append_right _ hlabel
  | «return» | nop | invoke | assign => cases hlabel

/-- What is known as a label is one on some line, and conversely. -/
theorem Laid.knows_iff (h : Laid o a) {label : String} : a.knows label = true ↔ ∃ m, o.defines label m := by
  constructor
  · intro hknows
    simp only [Assembly.knows, Bool.or_eq_true, List.any_eq_true, decide_eq_true_eq] at hknows
    rcases hknows with ⟨⟨_, i⟩, hi, rfl⟩ | ⟨⟨_, m⟩, hm, rfl⟩
    · obtain ⟨m, l, hm, -⟩ := h.labels _ i hi
      exact ⟨m, hm⟩
    · exact ⟨m, (h.waiting _ m hm).1⟩
  · rintro ⟨m, hm⟩
    exact h.known label m hm

theorem knows_of_lookup_close {label : String} (h : a.close.labels.lookup label = none) : a.knows label = false := by
  unfold Assembly.close at h
  split at h
  next hwaiting =>
    rw [List.lookup_eq_none_iff] at h
    simp only [Assembly.knows, hwaiting, List.any_nil, Bool.or_false, List.any_eq_false, decide_eq_true_eq]
    rintro p hp rfl
    simpa using h p hp
  next =>
    rw [Assembly.append, List.lookup_eq_none_iff] at h
    simp only [Assembly.knows, Bool.or_eq_false_iff, List.any_eq_false, decide_eq_true_eq]
    constructor
    · rintro p hp rfl
      simpa using h p (List.mem_append_left _ hp)
    · rintro p hp rfl
      simpa using h (p.1, a.body.size) (List.mem_append_right _ (List.mem_map_of_mem hp))

theorem resolve_error {labels : List (String × Nat)} {l : Labelled} (h : Assembly.resolve labels l = .error e) :
    ∃ label ∈ l.stmt.targets, labels.lookup label = none ∧ e = .atLine l.line (.unknownLabel label) := by
  rcases bind_error_iff.1 h with h | ⟨x, -, h⟩
  · obtain ⟨label, hlabel, hfail⟩ := Stmt.exists_of_mapTargets_error h
    split at hfail
    · cases hfail
    next hnone =>
      cases hfail
      exact ⟨label, hlabel, hnone, rfl⟩
  · cases h

/-- What has been read to the end fails only at a jump to a label that is on no line. -/
theorem Laid.finish_error (h : Laid o a) (he : a.finish name = .error e) :
    ∃ n form label, o.holds n form ∧ label ∈ form.labels ∧ (∀ m, ¬ o.defines label m) ∧
      e = .atLine n (.unknownLabel label) := by
  obtain ⟨l, hl, hresolve⟩ : ∃ l ∈ a.close.body, Assembly.resolve a.close.labels l = .error e := by
    rcases bind_error_iff.1 he with he | ⟨body, -, he⟩
    · rw [Array.mapM_eq_mapM_toList] at he
      rcases bind_error_iff.1 he with he | ⟨lines, -, he⟩
      · obtain ⟨l, hl, hresolve⟩ := exists_of_mapM_error he
        exact ⟨l, Array.mem_toList_iff.1 hl, hresolve⟩
      · cases he
    · cases he
  obtain ⟨label, hlabel, hlookup, rfl⟩ := resolve_error hresolve
  rcases mem_close_body hl with hl | hnop
  · obtain ⟨form, hform, hjumps⟩ := h.written l hl
    refine ⟨l.line, form, label, hform, hjumps.mem_labels label hlabel, ?_, rfl⟩
    intro m hm
    have hknows := knows_of_lookup_close hlookup
    rw [h.known label m hm] at hknows
    cases hknows
  · -- The statement that is appended jumps nowhere.
    rw [hnop] at hlabel
    cases hlabel

/-! ## Lines -/

theorem line_isSome (cs : List Char) : ∃ p, Grammar.line cs = some p := by
  simp [Grammar.line, bind_apply, blanks_apply, optional_apply, map_apply]

theorem readLine_error {cs : List Char} (h : readLine n cs = .error e) :
    ∃ source left, Grammar.line cs = some (source, left) ∧ left ≠ [] ∧
      e = .atLine n (.unreadable (String.ofList (Text.trim cs)) (cs.length - left.length + 1)) := by
  unfold readLine at h
  split at h
  · cases h
  next source left hleft hline =>
    cases h
    exact ⟨source, left, hline, hleft, rfl⟩
  next hnone =>
    obtain ⟨p, hp⟩ := line_isSome cs
    rw [hp] at hnone
    cases hnone

/-- Reading fails at a line, at a literal that is refused or with something that is wrong with the line. -/
theorem step_error {done rest : List (List Char × Nat)} {cs : List Char}
    (htext : numberedLines text = done ++ (cs, n) :: rest) (ha : done.foldlM step {} = .ok a)
    (h : step a (cs, n) = .error e) :
    (∃ k, Meets Numeral.refused text n k ∧ e = k.fault n) ∨ ∃ fault, Offends text n fault ∧ e = .atLine n fault := by
  have hmem : (cs, n) ∈ numberedLines text := by
    rw [htext]
    exact List.mem_append_right _ List.mem_cons_self
  unfold step at h
  simp only at h
  split at h
  · cases h
  next hblank =>
    rw [Bool.not_eq_true] at hblank
    rcases bind_error_iff.1 h with h | ⟨source, hread, h⟩
    · obtain ⟨source, left, hline, hleft, rfl⟩ := readLine_error h
      exact .inr ⟨_, .unreadable hmem hblank hline hleft, rfl⟩
    have hreaches : Reaches text n a source := ⟨done, cs, rest, htext, ha, hblank, hread⟩
    rw [addLine_eq] at h
    rcases bind_error_iff.1 h with h | ⟨⟨stmt, scope⟩, -, h⟩
    · cases hform : source.form with
      | none =>
        rw [hform] at h
        cases h
      | some form =>
        rw [hform] at h
        rcases form.read_error h with ⟨k, hk, rfl⟩ | ⟨fault, hfault, rfl⟩
        · exact .inl ⟨k, ⟨a, source, form, hreaches, hform, hk⟩, rfl⟩
        · exact .inr ⟨fault, .clash hreaches hform hfault, rfl⟩
    · cases hlabel : source.label with
      | none =>
        rw [hlabel] at h
        cases h
      | some label =>
        simp only [hlabel, Assembly.label] at h
        split at h
        next hknows =>
          cases h
          -- The label is known from a line that has been read, which is an earlier one.
          obtain ⟨m, source', ⟨cs', hmem', hline⟩, hlabel'⟩ :=
            (laid_of_foldlM htext ha).knows_iff.1 hknows
          refine .inr ⟨_, .duplicateLabel (numberedLines_ascending htext _ hmem') ?_ ?_, rfl⟩
          · refine ⟨source', ⟨cs', ?_, hline⟩, hlabel'⟩
            rw [htext]
            exact List.mem_append_left _ hmem'
          · exact ⟨source, ⟨cs, hmem, hblank, hread⟩, hlabel⟩
        · cases h

/-! ## Texts -/

theorem read_error (h : read text name = .error e) :
    (∃ n k, Meets Numeral.refused text n k ∧ e = k.fault n) ∨
      ∃ n fault, Offends text n fault ∧ e = .atLine n fault := by
  rcases bind_error_iff.1 h with h | ⟨a, ha, h⟩
  · obtain ⟨done, ⟨cs, n⟩, rest, a, htext, ha, hstep⟩ := foldlM_error_iff.1 h
    exact (step_error htext ha hstep).imp (fun ⟨k, hk⟩ => ⟨n, k, hk⟩) fun ⟨fault, hfault⟩ => ⟨n, fault, hfault⟩
  · obtain ⟨n, form, label, hform, hlabel, hdefines, rfl⟩ :=
      (laid_of_foldlM (List.append_nil _).symm ha).finish_error h
    exact .inr ⟨n, _, .unknownLabel hform hlabel hdefines, rfl⟩

/-- Reading does not get past a literal that is refused. -/
theorem read_of_meets {k : Numeral} (h : Meets Numeral.refused text n k) : read text name = .error (k.fault n) := by
  obtain ⟨a, source, form, ⟨done, cs, rest, htext, ha, hblank, hread⟩, hform, hk⟩ := h
  refine bind_error_iff.2 (.inl (foldlM_error_iff.2 ⟨done, (cs, n), rest, a, htext, ha, ?_⟩))
  rw [step_of_source hblank hread, addLine_eq, hform]
  exact bind_error_iff.2 (.inl (form.read_refused hk a.scope))

/-! ## Literals with too many digits -/

theorem Numeral.outOfRange_of_refused {k : Numeral} (h : k.refused = true)
    (hdigits : k.digits.length ≤ Decimal.maxDigits) :
    k.outOfRange = true := by
  simpa [Numeral.refused, Nat.not_lt.2 hdigits] using h

theorem Numeral.fault_of_le {k : Numeral} (h : k.digits.length ≤ Decimal.maxDigits) :
    k.fault n = .atLine n (.literalRange k.text) := if_neg (Nat.not_lt.2 h)

theorem Numeral.fault_of_lt {k : Numeral} (h : Decimal.maxDigits < k.digits.length) :
    k.fault n = .literalTooLong := if_pos h

theorem Meets.offends {k : Numeral} (h : Meets Numeral.refused text n k)
    (hdigits : k.digits.length ≤ Decimal.maxDigits) :
    Offends text n (.literalRange k.text) := by
  obtain ⟨a, source, form, ⟨done, cs, rest, htext, -, hblank, hread⟩, hform, hk⟩ := h
  have hmem : (cs, n) ∈ numberedLines text := by
    rw [htext]
    exact List.mem_append_right _ List.mem_cons_self
  exact .literalRange ⟨cs, hmem, hblank, hread⟩ hform (List.mem_of_find?_eq_some hk)
    (Numeral.outOfRange_of_refused (List.find?_some hk) hdigits)

/-- Where a literal does not fit in 32 bits, one is refused: the same, unless that one has too many digits. -/
theorem Meets.exists_refused {k : Numeral} (h : Meets Numeral.outOfRange text n k) :
    ∃ k', Meets Numeral.refused text n k' ∧ (k'.digits.length ≤ Decimal.maxDigits → k' = k) := by
  obtain ⟨a, source, form, hreaches, hform, hk⟩ := h
  have hrefuses : ∀ k : Numeral, k.refused = false → k.outOfRange = false := by
    intro k hk
    rw [Numeral.refused, Bool.or_eq_false_iff] at hk
    exact hk.2
  cases hfind : form.numerals.find? Numeral.refused with
  | none =>
    rw [List.find?_eq_none] at hfind
    have hrefused := Bool.eq_false_iff.2 (hfind k (List.mem_of_find?_eq_some hk))
    have hrange := List.find?_some hk
    rw [hrefuses k hrefused] at hrange
    cases hrange
  | some k' =>
    refine ⟨k', ⟨a, source, form, hreaches, hform, hfind⟩, fun hdigits => ?_⟩
    obtain ⟨hrefused, before, after, hsplit, hbefore⟩ := List.find?_eq_some_iff_append.1 hfind
    have hfirst : form.numerals.find? Numeral.outOfRange = some k' := by
      refine List.find?_eq_some_iff_append.2 ⟨Numeral.outOfRange_of_refused hrefused hdigits, before, after, hsplit, ?_⟩
      intro k hk
      have hk := hbefore k hk
      rw [Bool.not_eq_true'] at hk ⊢
      exact hrefuses k hk
    exact Option.some.inj (hfirst.symm.trans hk)

/-- Reading a text fails only at a line that offends, exactly if it comes to no literal with too many digits. -/
theorem failsAtLine_iff (text name : String) :
    FailsAtLine text name ↔ ∀ n k, Meets Numeral.refused text n k → k.digits.length ≤ Decimal.maxDigits := by
  constructor
  · intro h n k hk
    by_contra hdigits
    have hread : read text name = .error (k.fault n) := read_of_meets hk
    rw [Numeral.fault_of_lt (Nat.not_le.1 hdigits)] at hread
    rcases h.outcome with ⟨r, hr⟩ | ⟨m, fault, hr, -⟩ <;> rw [hread] at hr <;> cases hr
  · intro h
    refine ⟨?_, fun n k hk => ?_⟩
    · cases hread : read text name with
      | ok r => exact .inl ⟨r, rfl⟩
      | error e =>
        rcases read_error hread with ⟨n, k, hk, rfl⟩ | ⟨n, fault, hfault, rfl⟩
        · refine .inr ⟨n, _, ?_, hk.offends (h n k hk)⟩
          rw [Numeral.fault_of_le (h n k hk)]
        · exact .inr ⟨n, fault, rfl, hfault⟩
    · obtain ⟨k', hk', heq⟩ := hk.exists_refused
      obtain rfl := heq (h n k' hk')
      rw [read_of_meets hk', Numeral.fault_of_le (h n k' hk')]

/-- A text that is the text of a form says the form, on its only line. -/
theorem reaches_text {form : Form} (hform : form.Spelled) (ht : form.text? = some text) :
    Reaches text 1 {} ⟨none, some form⟩ := by
  have hlabel : ∀ l ∈ (none : Option String), IsName l := by simp
  have hprecedes : Precedes none [] := ⟨[], by simp, rfl⟩
  obtain ⟨hplain, hblank, hread⟩ := readLine_printed (n := 1) hform ht hlabel hprecedes
  rw [List.nil_append] at hplain hblank hread
  have hne : text.toList ≠ [] := by
    intro hnil
    rw [hnil] at hblank
    cases hblank
  have hlines : Text.lines (text.toList ++ []) = text.toList :: (Text.lines []).tail :=
    Text.lines_append hne (fun c hc => (hplain c hc).2) fun _ hc => nomatch hc
  refine ⟨[], text.toList, [], ?_, rfl, ?_, ?_⟩
  · rw [List.append_nil] at hlines
    rw [numberedLines, hlines]
    rfl
  · rwa [withoutComment_of_plain hplain]
  · rwa [withoutComment_of_plain hplain]

/-- A number with one digit more than are converted. -/
def ones : Numeral := ⟨false, String.ofList (List.replicate (Decimal.maxDigits + 1) '1')⟩

theorem not_failsAtLine_ones : ¬ FailsAtLine ("x = " ++ ones.text) "main" := by
  have hform : Form.Spelled (.assign (.name "x") (.number ones)) := by
    have hunshadowed : Unshadowed "x" := by
      constructor
      · rintro (h | ⟨cs, h⟩) <;> simp at h
      · rintro (h | ⟨cs, h⟩) <;> simp at h
    refine ⟨isName_of_name (by decide), hunshadowed, '1', List.replicate Decimal.maxDigits '1', ?_, rfl, ?_⟩
    · rw [ones, String.toList_ofList, List.replicate_succ]
    · intro c hc
      rw [List.eq_of_mem_replicate hc]
      rfl
  have hdigits : Decimal.maxDigits < ones.digits.length := by simp [ones]
  have hrefused : ones.refused = true := by simp [Numeral.refused, hdigits]
  have hmeets : Meets Numeral.refused ("x = " ++ ones.text) 1 ones := by
    refine ⟨_, _, _, reaches_text hform ?_, rfl, ?_⟩
    · rfl
    · exact List.find?_cons_of_pos hrefused
  have hread : read ("x = " ++ ones.text) "main" = .error (ones.fault 1) := read_of_meets hmeets
  rw [Numeral.fault_of_lt hdigits] at hread
  intro h
  rcases h.outcome with ⟨r, hr⟩ | ⟨n, fault, hr, -⟩ <;> rw [hread] at hr <;> cases hr

end Reading

end Dataflow
