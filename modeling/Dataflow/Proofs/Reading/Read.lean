import Dataflow.Proofs.Reading.Scope
import Dataflow.Reading.Read
/-!
# What has been read fits

The statements of a routine that has been read mention only variables of the routine, and literals of 32 bits
(`fits_read`). Scopes only grow, so that what was known at a line is known at the end.
-/
namespace Dataflow.Reading

variable {line : Nat} {s s' : Scope}

/-! ## Lines -/

theorem forM_declare_ok {type : Ty} {names : List String} {u : Unit}
    (h : (names.forM fun name => discard (declare line type name)).run s = .ok (u, s')) : s.Grows s' := by
  induction names generalizing s with
  | nil =>
    cases h
    exact .refl _
  | cons name names ih =>
    obtain ⟨u₁, s₁, hname, h⟩ := run_bind_ok h
    obtain ⟨⟨v, s₂⟩, hv, heq⟩ := bind_ok_iff.1 hname
    cases heq
    exact (declare_ok hv).1.trans (ih h)

theorem Form.read_ok {form : Form} {stmt : Option (Stmt String)} (h : (form.read line).run s = .ok (stmt, s')) :
    s.Grows s' ∧ ∀ x, stmt = some x → x.Fits s'.vars := by
  cases reads_of_run h with
  | param _ hv =>
    obtain ⟨hgrow, hmem⟩ := declare_ok hv
    refine ⟨⟨hgrow.vars, ?_⟩, fun _ hx => nomatch hx⟩
    intro hp
    exact List.append_subset.2 ⟨hgrow.params hp, (Fits.var hmem).vars⟩
  | declare hnames => exact ⟨forM_declare_ok hnames, fun _ hx => nomatch hx⟩
  | branch hl hr =>
    obtain ⟨hgrow, hfits⟩ := Atom.read_ok hl
    obtain ⟨hgrow', hfits'⟩ := Atom.read_ok hr
    exact ⟨hgrow.trans hgrow', fun x hx => Option.some.inj hx ▸ (hfits.mono hgrow'.vars).append hfits'⟩
  | goto | leave | nop => exact ⟨.refl _, fun x hx => Option.some.inj hx ▸ .nil⟩
  | switch harms _ hv =>
    obtain ⟨hgrow, hmem⟩ := mention_ok hv
    refine ⟨hgrow, fun x hx => Option.some.inj hx ▸ ⟨(Fits.var hmem).vars, fun n hn => ?_⟩⟩
    obtain ⟨c, hc, rfl⟩ := List.mem_map.1 hn
    obtain ⟨arm, harm, rfl⟩ := List.mem_map.1 hc
    exact harms arm harm
  | «return» ha =>
    obtain ⟨hgrow, hfits⟩ := Atom.read_ok ha
    exact ⟨hgrow, fun x hx => Option.some.inj hx ▸ hfits⟩
  | call hargs =>
    obtain ⟨hgrow, hfits⟩ := args_read_ok hargs
    exact ⟨hgrow, fun x hx => Option.some.inj hx ▸ Fits.flatMap hfits⟩
  | invoke hargs hv =>
    obtain ⟨hgrow, hfits⟩ := args_read_ok hargs
    obtain ⟨hgrow', hmem⟩ := mention_ok hv
    have hcall : Fits s'.vars _ _ := Fits.flatMap fun o ho => (hfits o ho).mono hgrow'.vars
    exact ⟨hgrow.trans hgrow', fun x hx => Option.some.inj hx ▸ (Fits.var hmem).append hcall⟩
  | assign ht hv =>
    obtain ⟨hgrow, hfits⟩ := Place.read_ok ht
    obtain ⟨hgrow', hfits'⟩ := Source.read_ok hv
    exact ⟨hgrow.trans hgrow', fun x hx => Option.some.inj hx ▸ Stmt.fits_assign (hfits.mono hgrow'.vars) hfits'⟩

/-! ## The routine -/

/-- What holds of all that has been read up to a line. -/
structure Assembly.Fits (a : Assembly) : Prop where
  params : a.scope.params ⊆ a.scope.vars
  body : ∀ l ∈ a.body, l.stmt.Fits a.scope.vars

/-- A label takes its place among those that wait. -/
def Assembly.label (a : Assembly) (line : Nat) : Option String → Except ReadError Assembly
  | none => .ok a
  | some name =>
    if a.knows name then .error (.atLine line (.duplicateLabel name))
    else .ok { a with waiting := a.waiting ++ [(name, line)] }

theorem label_ok {a a' : Assembly} {label : Option String} (h : a.label line label = .ok a') :
    a'.scope = a.scope ∧ a'.body = a.body := by
  cases label with
  | none =>
    cases h
    exact ⟨rfl, rfl⟩
  | some name =>
    simp only [Assembly.label] at h
    split at h
    · cases h
    · cases h
      exact ⟨rfl, rfl⟩

theorem addLine_eq (a : Assembly) (source : SourceLine) :
    a.addLine line source =
      (source.form.elim (.ok (none, a.scope)) fun form => (form.read line).run a.scope) >>= fun (stmt, scope) =>
        ({ a with scope }.label line source.label).map fun a => stmt.elim a (a.append · line) := by
  cases hform : source.form <;> cases hlabel : source.label <;>
    simp only [Assembly.addLine, hform, hlabel, Assembly.label] <;>
    refine bind_congr fun ⟨stmt, scope⟩ => ?_
  · cases stmt <;> rfl
  · cases stmt <;> simp only <;> split <;> rfl
  · cases stmt <;> rfl
  · cases stmt <;> simp only <;> split <;> rfl

/-- A line reads its form in the scope before it, and adds the statement that comes of it, if any. -/
theorem addLine_eq_ok {a a' : Assembly} {source : SourceLine} (h : a.addLine line source = .ok a') :
    ∃ stmt, (source.form.elim (.ok (none, a.scope)) fun form => (form.read line).run a.scope) = .ok (stmt, a'.scope) ∧
      a'.body = stmt.elim a.body fun x => a.body.push ⟨x, line⟩ := by
  rw [addLine_eq] at h
  obtain ⟨⟨stmt, scope⟩, hread, h⟩ := bind_ok_iff.1 h
  obtain ⟨a₁, hlabel, rfl⟩ := map_ok_iff.1 h
  obtain ⟨hscope, hbody⟩ : a₁.scope = scope ∧ a₁.body = a.body := label_ok hlabel
  refine ⟨stmt, ?_, ?_⟩
  · rw [hread, ← hscope]
    cases stmt <;> rfl
  · rw [← hbody]
    cases stmt <;> rfl

theorem Assembly.Fits.addLine {a a' : Assembly} (h : a.Fits) {source : SourceLine}
    (ha : a.addLine line source = .ok a') : a'.Fits := by
  obtain ⟨stmt, hread, hbody⟩ := addLine_eq_ok ha
  obtain ⟨hgrow, hfits⟩ : a.scope.Grows a'.scope ∧ ∀ x, stmt = some x → x.Fits a'.scope.vars := by
    cases hform : source.form with
    | none =>
      simp only [hform, Option.elim, Except.ok.injEq, Prod.mk.injEq] at hread
      obtain ⟨rfl, hscope⟩ := hread
      exact ⟨hscope ▸ .refl _, fun _ hx => nomatch hx⟩
    | some form =>
      rw [hform] at hread
      exact form.read_ok hread
  -- The statements before the line still fit, as the scope has only grown.
  have hbefore : ∀ l ∈ a.body, l.stmt.Fits a'.scope.vars := fun l hl => (h.body l hl).mono hgrow.vars
  refine ⟨hgrow.params h.params, ?_⟩
  intro l hl
  rw [hbody] at hl
  cases stmt with
  | none => exact hbefore l hl
  | some x =>
    rcases Array.mem_push.1 hl with hl | rfl
    · exact hbefore l hl
    · exact hfits x rfl

/-- What holds at the start, and is kept by every line, holds of all that has been read. -/
theorem read_eq_ok {I : Assembly → Prop} (hstart : I {})
    (hline : ∀ {a a' line source}, I a → a.addLine line source = .ok a' → I a') {text name : String} {r : Routine}
    (h : read text name = .ok r) : ∃ a, I a ∧ a.finish name = .ok r := by
  obtain ⟨a, ha, hr⟩ := bind_ok_iff.1 h
  refine ⟨a, foldlM_keeps (P := I) (fun a a' numbered _ hI hstep => ?_) ha hstart, hr⟩
  unfold Reading.step at hstep
  simp only at hstep
  split at hstep
  · cases hstep
    exact hI
  · obtain ⟨source, -, hadd⟩ := bind_ok_iff.1 hstep
    exact hline hI hadd

theorem close_scope (a : Assembly) : a.close.scope = a.scope := by
  unfold Assembly.close
  split <;> rfl

/-- Labels that wait to the end stand before a statement that does nothing. -/
theorem mem_close_body {a : Assembly} {l : Labelled} (h : l ∈ a.close.body) : l ∈ a.body ∨ l.stmt = .nop := by
  unfold Assembly.close at h
  split at h
  · exact .inl h
  · rcases Array.mem_push.1 h with h | rfl
    · exact .inl h
    · exact .inr rfl

theorem finish_eq_ok {a : Assembly} {name : String} {r : Routine} (h : a.finish name = .ok r) :
    r.params = a.scope.params ∧ r.vars = a.scope.vars ∧
      List.Forall₂ (fun l line => Assembly.resolve a.close.labels l = .ok line) a.close.body.toList r.body.toList := by
  obtain ⟨body, hbody, hr⟩ := bind_ok_iff.1 h
  cases hr
  refine ⟨congrArg Scope.params (close_scope a), congrArg Scope.vars (close_scope a), ?_⟩
  rw [Array.mapM_eq_mapM_toList] at hbody
  obtain ⟨lines, hlines, heq⟩ := map_ok_iff.1 hbody
  subst heq
  exact forall₂_of_mapM hlines

theorem resolve_eq_ok {labels : List (String × Nat)} {l : Labelled} {line : Line}
    (h : Assembly.resolve labels l = .ok line) :
    line.number = some l.line ∧ ∃ f : String → Except ReadError Target, l.stmt.mapTargets f = .ok line.stmt ∧
      ∀ label t, f label = .ok t → ∃ i, t = .stmt i ∧ (label, i) ∈ labels := by
  obtain ⟨x, hx, heq⟩ := bind_ok_iff.1 h
  cases heq
  refine ⟨rfl, _, hx, ?_⟩
  intro label t ht
  split at ht
  next i hi =>
    cases ht
    obtain ⟨before, later, rfl, -⟩ := List.lookup_eq_some_iff.1 hi
    exact ⟨i, rfl, List.mem_append_right _ List.mem_cons_self⟩
  next => cases ht

/-- The lines of a routine are those that have been read, with the targets of their jumps in place. -/
theorem exists_of_finish {a : Assembly} {name : String} {r : Routine} (h : a.finish name = .ok r) :
    ∀ line ∈ r.body, ∃ l ∈ a.close.body, ∃ f : String → Except ReadError Target,
      l.stmt.mapTargets f = .ok line.stmt := by
  obtain ⟨-, -, hbody⟩ := finish_eq_ok h
  intro line hline
  obtain ⟨i, hi⟩ := List.getElem?_of_mem (Array.mem_toList_iff.2 hline)
  obtain ⟨l, hl, hresolve⟩ := forall₂_getElem? hbody hi
  obtain ⟨-, f, hf, -⟩ := resolve_eq_ok hresolve
  exact ⟨l, Array.mem_toList_iff.1 (List.mem_of_getElem? hl), f, hf⟩

/-- Targets are no literals, and name no variables. -/
theorem fits_of_mapTargets {τ υ ε : Type} {f : τ → Except ε υ} {known : List Var} {x : Stmt τ} {y : Stmt υ}
    (h : x.mapTargets f = .ok y) (hx : x.Fits known) : y.Fits known := by
  cases x with
  | assign | invoke | «return» | nop =>
    cases h
    exact hx
  | branch condition target | goto target =>
    obtain ⟨target', -, h⟩ := bind_ok_iff.1 h
    cases h
    exact hx
  | switch scrutinee arms default =>
    obtain ⟨arms', harms, h⟩ := bind_ok_iff.1 h
    obtain ⟨default', -, h⟩ := bind_ok_iff.1 h
    cases h
    refine ⟨hx.vars, ?_⟩
    intro n hn
    obtain ⟨arm', harm', rfl⟩ := List.mem_map.1 hn
    obtain ⟨arm, harm, htarget⟩ := exists_of_mem_mapM harms arm' harm'
    obtain ⟨target', -, heq⟩ := bind_ok_iff.1 htarget
    cases heq
    exact hx.literals _ (List.mem_map_of_mem harm)

theorem Assembly.Fits.finish {a : Assembly} (h : a.Fits) {name : String} {r : Routine} (hr : a.finish name = .ok r) :
    r.Fits := by
  obtain ⟨hparams, hvars, -⟩ := finish_eq_ok hr
  constructor
  · rw [hparams, hvars]
    exact h.params
  · intro line hline
    obtain ⟨l, hl, f, hf⟩ := exists_of_finish hr line hline
    rw [hvars]
    rcases mem_close_body hl with hl | hnop
    · exact fits_of_mapTargets hf (h.body l hl)
    · exact fits_of_mapTargets hf (hnop ▸ Dataflow.Fits.nil)

/-- A routine that has been read fits. -/
theorem fits_read {text name : String} {r : Routine} (h : read text name = .ok r) : r.Fits := by
  have hstart : Assembly.Fits {} := ⟨List.Subset.refl _, fun l hl => absurd hl (Array.not_mem_empty l)⟩
  obtain ⟨a, ha, hr⟩ := read_eq_ok hstart (fun ha hadd => ha.addLine hadd) h
  exact ha.finish hr

end Dataflow.Reading
