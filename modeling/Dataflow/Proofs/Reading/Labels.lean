import Dataflow.Proofs.Graph.Faults
import Dataflow.Proofs.Reading.Jumps
/-!
# What labels stand for

An outline says which lines of a text hold a statement and which define a label. What has been read up to a line lays
its outline out (`Laid.addLine`), so in the end every statement has its place, in order of the lines, and a label
stands for the first statement on or after its line, or for one that is appended where none follows (`laidOut_read`).
-/
namespace Dataflow.Reading

/-- The statements that lines hold, and the labels that they define. -/
@[ext]
structure Outline where
  holds : Nat → Form → Prop
  defines : String → Nat → Prop

/-- What a line says that is not blank. -/
def Says (lines : List (List Char × Nat)) (n : Nat) (source : SourceLine) : Prop :=
  ∃ cs, (cs, n) ∈ lines ∧ (withoutComment cs).all Text.isBlank = false ∧ readLine n (withoutComment cs) = .ok source

/-- The outline of some lines. -/
def outline (lines : List (List Char × Nat)) : Outline where
  holds n form := ∃ source, Says lines n source ∧ source.form = some form ∧ form.isStatement = true
  defines label n := ∃ source, Says lines n source ∧ source.label = some label

namespace Outline

/-- No statement stands on a line or after it. -/
def Ends (o : Outline) (n : Nat) : Prop := ∀ m form, o.holds m form → m < n

/-- The first line on or after a line that holds a statement. -/
structure Next (o : Outline) (m n : Nat) : Prop where
  holds : ∃ form, o.holds n form
  le : m ≤ n
  first : ∀ k form, o.holds k form → m ≤ k → n ≤ k

/-- A label on a line. -/
def define (o : Outline) (n : Nat) (label : Option String) : Outline where
  holds := o.holds
  defines l m := o.defines l m ∨ (label = some l ∧ m = n)

/-- A statement on a line. -/
def hold (o : Outline) (n : Nat) (form : Option Form) : Outline where
  holds m f := o.holds m f ∨ (form = some f ∧ f.isStatement = true ∧ m = n)
  defines := o.defines

end Outline

/-- A statement that does nothing, at the end of a routine and on the line of a label that no statement follows. -/
def Appended (o : Outline) (r : Routine) (i : Nat) : Prop :=
  i + 1 = r.size ∧ ∃ n, r.body[i]? = some ⟨.nop, some n⟩ ∧ (∃ label, o.defines label n) ∧ o.Ends n

/-- A label that is defined on one line stands for the first statement on or after it, or for the one that is appended
where none follows. -/
def Lands (o : Outline) (r : Routine) (label : String) (t : Target) : Prop :=
  ∃ m i, t = .stmt i ∧ o.defines label m ∧ (∀ m', o.defines label m' → m' = m) ∧
    ((∃ line n, r.body[i]? = some line ∧ line.number = some n ∧ o.Next m n) ∨ (Appended o r i ∧ o.Ends m))

/-- A routine with the statements of an outline, in order, and with its labels resolved. -/
structure LaidOut (o : Outline) (r : Routine) : Prop where
  ascending : ∃ ns : List Nat, r.body.toList.map Line.number = ns.map some ∧ ns.Pairwise (· < ·)
  written : ∀ i line, r.body[i]? = some line →
    (∃ n form, line.number = some n ∧ o.holds n form ∧ Jumps (Lands o r) form line.stmt) ∨ Appended o r i
  complete : ∀ n form, o.holds n form → ∃ line ∈ r.body, line.number = some n

/-- What has been read up to a line lays out its outline; labels wait while no statement follows them. -/
structure Laid (o : Outline) (a : Assembly) : Prop where
  ascending : (a.body.toList.map Labelled.line).Pairwise (· < ·)
  written : ∀ l ∈ a.body, ∃ form, o.holds l.line form ∧ Jumps Eq form l.stmt
  complete : ∀ n form, o.holds n form → ∃ l ∈ a.body, l.line = n
  labels : ∀ label i, (label, i) ∈ a.labels → ∃ m l, o.defines label m ∧ a.body[i]? = some l ∧ o.Next m l.line
  waiting : ∀ label m, (label, m) ∈ a.waiting → o.defines label m ∧ o.Ends m
  known : ∀ label m, o.defines label m → a.knows label = true
  unique : ∀ label m m', o.defines label m → o.defines label m' → m = m'

variable {o : Outline} {a a' : Assembly} {n : Nat}

/-! ## Outlines -/

theorem not_says_nil {source : SourceLine} : ¬ Says [] n source := by
  rintro ⟨cs, hmem, -⟩
  cases hmem

theorem says_concat {lines : List (List Char × Nat)} {cs : List Char} {m : Nat} {source : SourceLine} :
    Says (lines ++ [(cs, n)]) m source ↔ Says lines m source ∨
      (m = n ∧ (withoutComment cs).all Text.isBlank = false ∧ readLine n (withoutComment cs) = .ok source) := by
  constructor
  · rintro ⟨cs', hmem, hblank, hread⟩
    rcases List.mem_append.1 hmem with hmem | hmem
    · exact .inl ⟨cs', hmem, hblank, hread⟩
    · cases List.mem_singleton.1 hmem
      exact .inr ⟨rfl, hblank, hread⟩
  · rintro (⟨cs', hmem, hblank, hread⟩ | ⟨rfl, hblank, hread⟩)
    · exact ⟨cs', List.mem_append_left _ hmem, hblank, hread⟩
    · exact ⟨cs, List.mem_append_right _ List.mem_cons_self, hblank, hread⟩

theorem says_concat_blank {lines : List (List Char × Nat)} {cs : List Char}
    (h : (withoutComment cs).all Text.isBlank = true) : Says (lines ++ [(cs, n)]) = Says lines := by
  ext m source
  rw [says_concat, h]
  simp

theorem outline_concat_blank {lines : List (List Char × Nat)} {cs : List Char}
    (h : (withoutComment cs).all Text.isBlank = true) : outline (lines ++ [(cs, n)]) = outline lines := by
  simp only [outline, says_concat_blank h]

/-- A line that is not blank adds what it says. -/
theorem exists_says_concat {lines : List (List Char × Nat)} {cs : List Char} {source : SourceLine}
    (h : (withoutComment cs).all Text.isBlank = false) (hread : readLine n (withoutComment cs) = .ok source) {m : Nat}
    {P : SourceLine → Prop} :
    (∃ source', Says (lines ++ [(cs, n)]) m source' ∧ P source') ↔
      (∃ source', Says lines m source' ∧ P source') ∨ (P source ∧ m = n) := by
  have hlines : ∀ source', Says (lines ++ [(cs, n)]) m source' ↔ Says lines m source' ∨ (m = n ∧ source' = source) := by
    intro source'
    rw [says_concat, h, hread]
    simp [eq_comm]
  constructor
  · rintro ⟨source', hsource, hP⟩
    rcases (hlines source').1 hsource with hsource | ⟨rfl, rfl⟩
    · exact .inl ⟨source', hsource, hP⟩
    · exact .inr ⟨hP, rfl⟩
  · rintro (⟨source', hsource, hP⟩ | ⟨hP, rfl⟩)
    · exact ⟨source', (hlines source').2 (.inl hsource), hP⟩
    · exact ⟨source, (hlines source).2 (.inr ⟨rfl, rfl⟩), hP⟩

theorem outline_concat {lines : List (List Char × Nat)} {cs : List Char} {source : SourceLine}
    (h : (withoutComment cs).all Text.isBlank = false) (hread : readLine n (withoutComment cs) = .ok source) :
    outline (lines ++ [(cs, n)]) = ((outline lines).define n source.label).hold n source.form := by
  ext m x
  · exact (exists_says_concat h hread).trans (or_congr_right and_assoc)
  · exact exists_says_concat h hread

theorem Outline.define_none (o : Outline) (n : Nat) : o.define n none = o := by
  simp [Outline.define]

theorem Outline.hold_of_not_isStatement {form : Option Form} (h : ∀ f, form = some f → f.isStatement = false) :
    o.hold n form = o := by
  ext m f
  · constructor
    · rintro (hf | ⟨hf, hstatement, -⟩)
      · exact hf
      · rw [h f hf] at hstatement
        cases hstatement
    · exact .inl
  · exact .rfl

/-! ## Lines -/

theorem Laid.label (h : Laid o a) (hn : o.Ends n) {label : Option String} (ha : a.label n label = .ok a') :
    Laid (o.define n label) a' := by
  cases label with
  | none =>
    cases ha
    rw [Outline.define_none]
    exact h
  | some name =>
    simp only [Assembly.label] at ha
    split at ha
    · cases ha
    next hnew =>
      cases ha
      refine ⟨h.ascending, h.written, h.complete, ?_, ?_, ?_, ?_⟩
      · intro label i hi
        obtain ⟨m, l, hm, hl, hnext⟩ := h.labels label i hi
        exact ⟨m, l, .inl hm, hl, hnext.holds, hnext.le, hnext.first⟩
      · intro label m hm
        rcases List.mem_append.1 hm with hm | hm
        · obtain ⟨hdefines, hends⟩ := h.waiting label m hm
          exact ⟨.inl hdefines, hends⟩
        · cases List.mem_singleton.1 hm
          exact ⟨.inr ⟨rfl, rfl⟩, hn⟩
      · rintro label m (hm | ⟨hlabel, -⟩)
        · have hknown := h.known label m hm
          simp only [Assembly.knows, List.any_append, Bool.or_eq_true] at hknown ⊢
          exact hknown.imp_right .inl
        · cases hlabel
          simp [Assembly.knows]
      · -- A label that is known is refused, so none is defined on two lines.
        rintro label m m' (hm | ⟨hlabel, rfl⟩) (hm' | ⟨hlabel', rfl⟩)
        · exact h.unique label m m' hm hm'
        · cases hlabel'
          exact absurd (h.known _ _ hm) hnew
        · cases hlabel
          exact absurd (h.known _ _ hm') hnew
        · rfl

theorem getElem?_append {x : Stmt String} {i : Nat} {l : Labelled} (hl : a.body[i]? = some l) :
    (a.append x n).body[i]? = some l := by
  obtain ⟨hlt, -⟩ := Array.getElem?_eq_some_iff.1 hl
  rw [← hl, Array.getElem?_eq_getElem hlt]
  exact Array.getElem?_push_lt hlt

theorem Laid.ascending_append (h : Laid o a) (hn : o.Ends n) (x : Stmt String) :
    ((a.append x n).body.toList.map Labelled.line).Pairwise (· < ·) := by
  simp only [Assembly.append, Array.toList_push, List.map_append, List.pairwise_append]
  refine ⟨h.ascending, List.pairwise_singleton _ _, ?_⟩
  intro k hk k' hk'
  obtain ⟨l, hl, rfl⟩ := List.mem_map.1 hk
  obtain ⟨form, hform, -⟩ := h.written l (Array.mem_toList_iff.1 hl)
  cases List.mem_singleton.1 hk'
  exact hn _ _ hform

theorem Laid.append (h : Laid o a) (hn : o.Ends n) (hlabels : ∀ label m, o.defines label m → m ≤ n) {form : Form}
    {x : Stmt String} (hform : form.isStatement = true) (hx : Jumps Eq form x) :
    Laid (o.hold n (some form)) (a.append x n) := by
  have hholds : (o.hold n (some form)).holds n form := .inr ⟨rfl, hform, rfl⟩
  refine ⟨h.ascending_append hn x, ?_, ?_, ?_, ?_, ?_, h.unique⟩
  · intro l hl
    rcases Array.mem_push.1 hl with hl | rfl
    · obtain ⟨form', hform', hjumps⟩ := h.written l hl
      exact ⟨form', .inl hform', hjumps⟩
    · exact ⟨form, hholds, hx⟩
  · rintro k form' (hk | ⟨-, -, rfl⟩)
    · obtain ⟨l, hl, hline⟩ := h.complete k form' hk
      exact ⟨l, Array.mem_push.2 (.inl hl), hline⟩
    · exact ⟨⟨x, k⟩, Array.mem_push_self, rfl⟩
  · intro label i hi
    rcases List.mem_append.1 hi with hi | hi
    · -- A label that has its statement keeps it, as the new one is on a later line.
      obtain ⟨m, l, hm, hl, hnext⟩ := h.labels label i hi
      obtain ⟨form', hform'⟩ := hnext.holds
      refine ⟨m, l, hm, getElem?_append hl, ⟨form', .inl hform'⟩, hnext.le, ?_⟩
      rintro k form'' (hk | ⟨-, -, rfl⟩) hmk
      · exact hnext.first k form'' hk hmk
      · exact Nat.le_of_lt (hn _ _ hform')
    · -- A label that has waited stands for the new one, as none was on its line or after it.
      obtain ⟨⟨name, m⟩, hm, heq⟩ := List.mem_map.1 hi
      cases heq
      obtain ⟨hdefines, hends⟩ := h.waiting _ _ hm
      refine ⟨m, ⟨x, n⟩, hdefines, Array.getElem?_push_size, ⟨form, hholds⟩, hlabels _ _ hdefines, ?_⟩
      rintro k form' (hk | ⟨-, -, rfl⟩) hmk
      · exact absurd (hends k form' hk) (Nat.not_lt.2 hmk)
      · exact Nat.le_refl _
  · intro label m hm
    cases hm
  · intro label m hm
    have hknown := h.known label m hm
    simp only [Assembly.knows, Assembly.append, List.any_append, List.any_map, Bool.or_eq_true] at hknown ⊢
    exact .inl hknown

theorem Laid.addLine (h : Laid o a) (hends : o.Ends n) (hlabels : ∀ label m, o.defines label m → m < n)
    {source : SourceLine} (ha : a.addLine n source = .ok a') :
    Laid ((o.define n source.label).hold n source.form) a' := by
  rw [addLine_eq] at ha
  obtain ⟨⟨stmt, scope⟩, hread, ha⟩ := bind_ok_iff.1 ha
  obtain ⟨a₁, hlabel, rfl⟩ := map_ok_iff.1 ha
  have hscope : Laid o { a with scope } :=
    ⟨h.ascending, h.written, h.complete, h.labels, h.waiting, h.known, h.unique⟩
  have hlaid : Laid (o.define n source.label) a₁ := hscope.label hends hlabel
  cases hform : source.form with
  | none =>
    rw [hform] at hread
    cases hread
    have hnone : ∀ f, (none : Option Form) = some f → f.isStatement = false := fun _ hf => nomatch hf
    rw [Outline.hold_of_not_isStatement hnone]
    exact hlaid
  | some form =>
    rw [hform] at hread
    rcases jumps_of_form hread with ⟨rfl, hdeclares⟩ | ⟨x, rfl, hstatement, hjumps⟩
    · rw [Outline.hold_of_not_isStatement fun f hf => Option.some.inj hf ▸ hdeclares]
      exact hlaid
    · refine hlaid.append hends ?_ hstatement hjumps
      rintro label m (hm | ⟨-, rfl⟩)
      · exact Nat.le_of_lt (hlabels label m hm)
      · exact Nat.le_refl _

theorem laid_start : Laid (outline []) {} := by
  refine ⟨List.Pairwise.nil, ?_, ?_, ?_, ?_, ?_, ?_⟩
  · intro l hl
    exact absurd hl (Array.not_mem_empty l)
  · rintro n form ⟨source, hsource, -⟩
    exact absurd hsource not_says_nil
  · intro label i hi
    cases hi
  · intro label m hm
    cases hm
  · rintro label m ⟨source, hsource, -⟩
    exact absurd hsource not_says_nil
  · rintro label m m' ⟨source, hsource, -⟩
    exact absurd hsource not_says_nil

/-- The lines of a text are numbered in order. -/
theorem numberedLines_ascending {text : String} {done rest : List (List Char × Nat)} {cs : List Char}
    (h : numberedLines text = done ++ (cs, n) :: rest) : ∀ numbered ∈ done, numbered.2 < n := by
  have hnumbers : ((numberedLines text).map Prod.snd).Pairwise (· < ·) := by
    rw [numberedLines, List.zipIdx_map_snd]
    exact List.pairwise_lt_range' 1
  rw [h, List.map_append, List.pairwise_append] at hnumbers
  intro numbered hmem
  exact hnumbers.2.2 _ (List.mem_map_of_mem hmem) _ (List.mem_map_of_mem List.mem_cons_self)

/-- What holds at the start, and is kept by blank lines and by what the others say, one after another, holds of all that
has been read up to any line. -/
theorem keeps_of_foldlM {P : List (List Char × Nat) → Assembly → Prop} (hstart : P [] {})
    (hblank : ∀ {done cs n a}, (withoutComment cs).all Text.isBlank = true → P done a → P (done ++ [(cs, n)]) a)
    (hline : ∀ {done cs n a a' source}, (∀ m source, Says done m source → m < n) →
      (withoutComment cs).all Text.isBlank = false → readLine n (withoutComment cs) = .ok source → P done a →
      a.addLine n source = .ok a' → P (done ++ [(cs, n)]) a') {text : String} {done rest : List (List Char × Nat)}
    (htext : numberedLines text = done ++ rest) (h : done.foldlM step {} = .ok a) : P done a := by
  refine foldlM_keeps_prefix (P := P) ?_ h hstart
  rintro before ⟨cs, n⟩ after a a' rfl hP hstep
  unfold Reading.step at hstep
  simp only at hstep
  split at hstep
  next hb =>
    cases hstep
    exact hblank hb hP
  next hb =>
    obtain ⟨source, hread, hadd⟩ := bind_ok_iff.1 hstep
    rw [List.append_assoc, List.cons_append] at htext
    refine hline ?_ (Bool.eq_false_iff.2 hb) hread hP hadd
    rintro m source ⟨cs', hmem, -⟩
    exact numberedLines_ascending htext _ hmem

/-- What the lines of a text say is laid out as far as they have been read. -/
theorem laid_of_foldlM {text : String} {done rest : List (List Char × Nat)} (htext : numberedLines text = done ++ rest)
    (h : done.foldlM step {} = .ok a) : Laid (outline done) a := by
  refine keeps_of_foldlM (P := fun done a => Laid (outline done) a) laid_start ?_ ?_ htext h
  · intro done cs n a hb hlaid
    rw [outline_concat_blank hb]
    exact hlaid
  · intro done cs n a a' source hbefore hb hread hlaid hadd
    rw [outline_concat hb hread]
    refine hlaid.addLine ?_ ?_ hadd
    · rintro m form ⟨source, hsource, -⟩
      exact hbefore m source hsource
    · rintro label m ⟨source, hsource, -⟩
      exact hbefore m source hsource

theorem laid_of_read {text name : String} {r : Routine} (h : read text name = .ok r) :
    ∃ a, Laid (outline (numberedLines text)) a ∧ a.finish name = .ok r := by
  obtain ⟨a, ha, hr⟩ := bind_ok_iff.1 h
  exact ⟨a, laid_of_foldlM (List.append_nil _).symm ha, hr⟩

/-! ## The end of the text -/

/-- What is added where labels wait to the end. -/
structure Trails (o : Outline) (a : Assembly) (i : Nat) (l : Labelled) : Prop where
  last : i + 1 = a.body.size
  nop : l.stmt = .nop
  label : ∃ label, o.defines label l.line
  ends : o.Ends l.line

/-- All that has been read, with no label waiting. -/
structure Closed (o : Outline) (a : Assembly) : Prop where
  ascending : (a.body.toList.map Labelled.line).Pairwise (· < ·)
  written : ∀ i l, a.body[i]? = some l → (∃ form, o.holds l.line form ∧ Jumps Eq form l.stmt) ∨ Trails o a i l
  complete : ∀ n form, o.holds n form → ∃ l ∈ a.body, l.line = n
  labels : ∀ label i, (label, i) ∈ a.labels → ∃ m l, o.defines label m ∧ a.body[i]? = some l ∧
    (o.Next m l.line ∨ (Trails o a i l ∧ o.Ends m))
  unique : ∀ label m m', o.defines label m → o.defines label m' → m = m'

theorem Laid.close (h : Laid o a) : Closed o a.close := by
  unfold Assembly.close
  split
  next hwaiting =>
    refine ⟨h.ascending, ?_, h.complete, ?_, h.unique⟩
    · intro i l hl
      exact .inl (h.written l (Array.mem_of_getElem? hl))
    · intro label i hi
      obtain ⟨m, l, hm, hl, hnext⟩ := h.labels label i hi
      exact ⟨m, l, hm, hl, .inl hnext⟩
  next name n rest hwaiting =>
    obtain ⟨hn, hends⟩ := h.waiting name n (by rw [hwaiting]; exact List.mem_cons_self)
    have htrails : Trails o (a.append .nop n) a.body.size ⟨.nop, n⟩ :=
      ⟨by simp [Assembly.append], rfl, ⟨name, hn⟩, hends⟩
    refine ⟨h.ascending_append hends .nop, ?_, ?_, ?_, h.unique⟩
    · intro i l hl
      simp only [Assembly.append, Array.getElem?_push] at hl
      split at hl
      next hi =>
        cases hl
        exact .inr (hi ▸ htrails)
      next => exact .inl (h.written l (Array.mem_of_getElem? hl))
    · intro k form hk
      obtain ⟨l, hl, hline⟩ := h.complete k form hk
      exact ⟨l, Array.mem_push.2 (.inl hl), hline⟩
    · intro label i hi
      rcases List.mem_append.1 hi with hi | hi
      · obtain ⟨m, l, hm, hl, hnext⟩ := h.labels label i hi
        exact ⟨m, l, hm, getElem?_append hl, .inl hnext⟩
      · obtain ⟨⟨name', m⟩, hm, heq⟩ := List.mem_map.1 hi
        cases heq
        obtain ⟨hdefines, hends'⟩ := h.waiting _ _ hm
        exact ⟨m, ⟨.nop, n⟩, hdefines, Array.getElem?_push_size, .inr ⟨htrails, hends'⟩⟩

/-- With every label resolved, what has been read is the routine of its outline. -/
theorem Closed.laidOut (h : Closed o a) {r : Routine}
    (hr : List.Forall₂ (fun l line => Assembly.resolve a.labels l = .ok line) a.body.toList r.body.toList) :
    LaidOut o r := by
  have hsize : a.body.size = r.size := hr.length_eq
  have hback : ∀ {i : Nat} {line : Line}, r.body[i]? = some line →
      ∃ l, a.body[i]? = some l ∧ Assembly.resolve a.labels l = .ok line := by
    intro i line hline
    simpa only [Array.getElem?_toList] using forall₂_getElem? hr (Array.getElem?_toList.trans hline)
  have hforth : ∀ {i : Nat} {l : Labelled}, a.body[i]? = some l →
      ∃ line, r.body[i]? = some line ∧ Assembly.resolve a.labels l = .ok line := by
    intro i l hl
    simpa only [Array.getElem?_toList] using forall₂_getElem? hr.flip (Array.getElem?_toList.trans hl)
  have happended : ∀ {i : Nat} {l : Labelled}, a.body[i]? = some l → Trails o a i l → Appended o r i := by
    intro i l hl htrails
    obtain ⟨⟨stmt, number⟩, hline, hresolve⟩ := hforth hl
    obtain ⟨hnumber, f, hf, -⟩ := resolve_eq_ok hresolve
    rw [htrails.nop] at hf
    cases hf
    cases hnumber
    exact ⟨hsize ▸ htrails.last, l.line, hline, htrails.label, htrails.ends⟩
  have hlands : ∀ {label i}, (label, i) ∈ a.labels → Lands o r label (.stmt i) := by
    intro label i hi
    obtain ⟨m, l, hm, hl, hnext | ⟨htrails, hends⟩⟩ := h.labels label i hi
    · obtain ⟨line, hline, hresolve⟩ := hforth hl
      exact ⟨m, i, rfl, hm, fun m' hm' => h.unique label m' m hm' hm,
        .inl ⟨line, l.line, hline, (resolve_eq_ok hresolve).1, hnext⟩⟩
    · exact ⟨m, i, rfl, hm, fun m' hm' => h.unique label m' m hm' hm, .inr ⟨happended hl htrails, hends⟩⟩
  refine ⟨⟨a.body.toList.map Labelled.line, ?_, h.ascending⟩, ?_, ?_⟩
  · rw [List.map_map]
    exact map_eq_of_forall₂ hr fun l line hresolve => (resolve_eq_ok hresolve).1
  · intro i line hline
    obtain ⟨l, hl, hresolve⟩ := hback hline
    obtain ⟨hnumber, f, hf, htargets⟩ := resolve_eq_ok hresolve
    rcases h.written i l hl with ⟨form, hholds, hjumps⟩ | htrails
    · refine .inl ⟨l.line, form, hnumber, hholds, hjumps.mapTargets ?_ hf⟩
      rintro label _ t rfl ht
      obtain ⟨j, rfl, hj⟩ := htargets label t ht
      exact hlands hj
    · exact .inr (happended hl htrails)
  · intro n form hholds
    obtain ⟨l, hl, rfl⟩ := h.complete n form hholds
    obtain ⟨i, hi⟩ := Array.getElem?_of_mem hl
    obtain ⟨line, hline, hresolve⟩ := hforth hi
    exact ⟨line, Array.mem_of_getElem? hline, (resolve_eq_ok hresolve).1⟩

theorem laidOut_read {text name : String} {r : Routine} (h : read text name = .ok r) :
    LaidOut (outline (numberedLines text)) r := by
  obtain ⟨a, hlaid, hr⟩ := laid_of_read h
  obtain ⟨-, -, hbody⟩ := finish_eq_ok hr
  exact hlaid.close.laidOut hbody

/-! ## Jumps of a routine -/

theorem Lands.inside {r : Routine} {label : String} {t : Target} (h : Lands o r label t) :
    ∃ j < r.size, t = .stmt j := by
  obtain ⟨m, i, rfl, -, -, ⟨line, k, hline, -⟩ | ⟨⟨-, k, hline, -⟩, -⟩⟩ := h
  · exact ⟨i, (Array.getElem?_eq_some_iff.1 hline).1, rfl⟩
  · exact ⟨i, (Array.getElem?_eq_some_iff.1 hline).1, rfl⟩

theorem Jumps.inside {r : Routine} {form : Form} {x : Statement} (h : Jumps (Lands o r) form x) : Graph.Inside r x := by
  have hsome : ∀ {label t}, Lands o r label t → ∃ j < r.size, some t = some (.stmt j) := by
    intro label t hlands
    obtain ⟨j, hj, rfl⟩ := hlands.inside
    exact ⟨j, hj, rfl⟩
  cases h with
  | branch hgoes | goto hgoes => exact List.forall_mem_singleton.2 (hsome hgoes)
  | switch harms hdefault =>
    refine List.forall_mem_append.2 ⟨?_, ?_⟩
    · rintro t ht
      obtain ⟨c, hc, rfl⟩ := List.mem_map.1 ht
      obtain ⟨i, hi⟩ := List.getElem?_of_mem hc
      obtain ⟨arm, -, -, t, ht, hgoes⟩ := forall₂_getElem? harms hi
      rw [ht]
      exact hsome hgoes
    · cases hdefault with
      | none => exact fun t ht => absurd ht List.not_mem_nil
      | some hgoes => exact List.forall_mem_singleton.2 (hsome hgoes)
  | «return» | nop | invoke | assign => exact fun t ht => absurd ht List.not_mem_nil

theorem LaidOut.inside {r : Routine} (h : LaidOut o r) : ∀ line ∈ r.body, Graph.Inside r line.stmt := by
  intro line hline
  obtain ⟨i, hi⟩ := Array.getElem?_of_mem hline
  rcases h.written i line hi with ⟨n, form, -, -, hjumps⟩ | ⟨-, n, hnop, -⟩
  · exact hjumps.inside
  · rw [hi] at hnop
    cases hnop
    exact fun t ht => absurd ht List.not_mem_nil

/-- In a routine that has been read, every statement stands at its index and on its line, in order, and every label
that a jump is written with stands for the first statement on or after the line that defines it, or for a `nop` that is
appended where none follows. So its graph is built, unless some switch has neither an arm nor a default. -/
theorem read_resolves {text name : String} {r : Routine} (h : read text name = .ok r) :
    LaidOut (outline (numberedLines text)) r ∧
    (∀ g : Graph, g.routine = r → ∀ i p, g.position? (.stmt i) = some p →
      (g.point p).index = i ∧ r.stmt? i = some (g.point p).stmt) ∧
    ∀ e, Graph.build r = .error e →
      ∃ i scrutinee, r.stmt? i = some (.switch scrutinee [] none) ∧ e = .malformed (.noTargets i) := by
  have hlaid := laidOut_read h
  refine ⟨hlaid, ?_, fun e he => Graph.noTargets_of_build_error hlaid.inside he⟩
  rintro g rfl i p hp
  have hi : i < g.routine.size := by
    simp only [Graph.position?] at hp
    split at hp
    next hi => exact hi
    next => cases hp
  obtain ⟨line, hline⟩ : ∃ line, g.routine.body[i]? = some line := ⟨_, Array.getElem?_eq_getElem hi⟩
  rw [Graph.point, Graph.node_of_position? hp]
  refine ⟨rfl, ?_⟩
  simp only [Graph.statement, Routine.stmt?, hline, Option.map_some, Option.getD_some]

/-- Labels before a declaration, on one statement, and at the end. -/
def stacked : String := "goto B\nA: int x\nB:\nC: x = 1\nif (x < 9) goto A\ngoto D\nD:\nE: # no statement follows"

/-- The jumps to `A` and `B` go to the same statement, and the one to `D` goes to a `nop` on the line of that label. -/
theorem read_resolves_stacked :
    ∃ r, read stacked = .ok r ∧ LaidOut (outline (numberedLines stacked)) r ∧
      r.body.toList.map Line.number = [some 1, some 4, some 5, some 6, some 7] ∧
      (r.body.toList.map fun line => line.stmt.jumps) =
        [[some (.stmt 1)], [], [some (.stmt 1)], [some (.stmt 4)], []] := by
  have hrun : ((read stacked).toOption.map fun r => (r.body.toList.map Line.number,
      r.body.toList.map fun line => line.stmt.jumps)) = some ([some 1, some 4, some 5, some 6, some 7],
        [[some (.stmt 1)], [], [some (.stmt 1)], [some (.stmt 4)], []]) := by
    decide +kernel
  obtain ⟨r, hr, heq⟩ := Option.map_eq_some_iff.1 hrun
  obtain ⟨hnumbers, hjumps⟩ := Prod.mk.inj heq
  rw [toOption_eq_some] at hr
  obtain ⟨hlaid, -, -⟩ := read_resolves hr
  exact ⟨r, hr, hlaid, hnumbers, hjumps⟩

end Dataflow.Reading
