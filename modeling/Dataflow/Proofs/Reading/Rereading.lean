import Dataflow.Proofs.Reading.Canonical
import Dataflow.Proofs.Reading.Labels
import Dataflow.Proofs.Text.Lines
/-!
# Reading a printed statement again

A line that holds a statement without a jump may hold the text of that statement in its place: the same routine is read
(`read_printed`). The text of a statement says the canonical form of what was said (`readLine_printed`), and a canonical
form is read to the same statement in every scope, so that every line reads on from the same assembly.
-/
namespace Dataflow.Reading

variable {cs tail : List Char} {line n : Nat}

/-! ## One line in the place of another -/

theorem numberedLines_replaceLine {text : String} (h : (cs, n) ∈ numberedLines text) :
    ∃ done rest, numberedLines text = done ++ (cs, n) :: rest ∧
      ∀ new, new ≠ [] → (∀ c ∈ new, Text.isLineEnd c = false) →
        numberedLines (String.ofList (Text.replaceLine new (n - 1) text.toList)) = done ++ (new, n) :: rest := by
  obtain ⟨hn, hi⟩ : 1 ≤ n ∧ (Text.lines text.toList)[n - 1]? = some cs := List.mk_mem_zipIdx_iff_le_and_getElem?_sub.1 h
  obtain ⟨hlt, hget⟩ := List.getElem?_eq_some_iff.1 hi
  have hsplit : ∀ new, ((Text.lines text.toList).set (n - 1) new).zipIdx 1 =
      ((Text.lines text.toList).take (n - 1)).zipIdx 1 ++
        (new, n) :: ((Text.lines text.toList).drop n).zipIdx (n + 1) := by
    intro new
    have hlength : ((Text.lines text.toList).take (n - 1)).length = n - 1 := by
      rw [List.length_take]
      omega
    rw [List.set_eq_take_append_cons_drop, if_pos hlt, List.zipIdx_append, List.zipIdx_cons, hlength,
      Nat.add_sub_cancel' hn, Nat.sub_add_cancel hn]
  refine ⟨((Text.lines text.toList).take (n - 1)).zipIdx 1, ((Text.lines text.toList).drop n).zipIdx (n + 1), ?_,
    fun new hne hnew => ?_⟩
  · rw [← hsplit, ← hget, List.set_getElem_self, numberedLines]
  · rw [← hsplit, numberedLines, String.toList_ofList, Text.lines_replaceLine hne hnew hlt]

/-- A form may be read in the place of one that leads to the same. -/
theorem addLine_of_leads {a a' : Assembly} {label : Option String} {form form' : Form}
    (hleads : Leads (form.read line) (form'.read line)) (h : a.addLine line ⟨label, some form⟩ = .ok a') :
    a.addLine line ⟨label, some form'⟩ = .ok a' := by
  rw [addLine_eq] at h ⊢
  obtain ⟨⟨stmt, scope⟩, hread, h⟩ := bind_ok_iff.1 h
  exact bind_ok_iff.2 ⟨(stmt, scope), hleads _ _ hread, h⟩

theorem step_of_source {a : Assembly} {source : SourceLine} (hblank : (withoutComment cs).all Text.isBlank = false)
    (hread : readLine n (withoutComment cs) = .ok source) : step a (cs, n) = a.addLine n source := by
  simp only [step, hblank, Bool.false_eq_true, if_false, hread]
  rfl

/-! ## The line of a printed statement -/

/-- What may stand on a line before its statement: blanks, and a label with its colon. -/
def Precedes (label : Option String) (pre : List Char) : Prop :=
  ∃ before, (∀ c ∈ before, Grammar.isSpace c = true) ∧ match label with
    | none => pre = before
    | some l => ∃ between after, (∀ c ∈ between, Grammar.isSpace c = true) ∧ (∀ c ∈ after, Grammar.isSpace c = true) ∧
        pre = before ++ l.toList ++ between ++ ':' :: after

/-- A text begins with a name that no colon follows. -/
theorem text_begins {form : Form} (hform : form.Spelled) {t : String} (ht : form.text? = some t) :
    ∃ (n : String) (tail : List Char), IsName n ∧ t.toList = n.toList ++ tail ∧ Stops Grammar.isNameChar tail ∧
      Stops (· = ':') (tail.dropWhile Grammar.isSpace) := by
  cases form with
  | «return» value =>
    refine ⟨"return", value.elim [] fun a => ' ' :: a.text.toList, ?_, ?_⟩
    · exact isName_of_name (by decide)
    cases value with
    | none =>
      cases ht
      exact ⟨rfl, stops_nil _, stops_nil _⟩
    | some a =>
      cases ht
      refine ⟨by simp, stops_cons.2 rfl, ?_⟩
      have ha : a.Spelled := hform a rfl
      have hstops : Stops Grammar.isSpace (a.text.toList ++ []) := ha.stops_isSpace
      rw [List.append_nil] at hstops
      rw [Option.elim_some, List.dropWhile_cons_of_pos rfl, dropWhile_of_stops hstops]
      obtain ⟨c, cs, hcs, hc⟩ := ha.exists_cons
      rw [hcs, stops_cons, decide_eq_false_iff_not]
      rintro rfl
      rcases hc with hc | hc <;> cases hc
  | nop =>
    cases ht
    exact ⟨"nop", [], isName_of_name (by decide), rfl, stops_nil _, stops_nil _⟩
  | invoke result method args =>
    obtain ⟨hresult, hmethod, -⟩ := hform
    cases result with
    | none =>
      cases ht
      refine ⟨"invoke", ' ' :: (method.toList ++ '(' :: ((", ".intercalate (args.map Atom.text)).toList ++ [')'])),
        isName_of_name (by decide), by simp [callText], stops_cons.2 rfl, ?_⟩
      rw [List.dropWhile_cons_of_pos rfl, dropWhile_of_stops hmethod.stops_isSpace]
      obtain ⟨c, cs, hcs, hc, -⟩ := hmethod
      simpa [hcs] using ne_of_isLetter (d := ':') hc rfl
    | some m =>
      cases ht
      exact ⟨m, " = ".toList ++ (callText method args).toList, (hresult m rfl).1, by simp, opens_equals.name,
        opens_equals.colon⟩
  | assign place source =>
    cases ht
    obtain ⟨hname, tail, htext, hopens⟩ := hform.1.begins
    exact ⟨place.head, tail ++ (" = ".toList ++ source.text.toList), hname, by simp [htext], (hopens opens_equals).name,
      (hopens opens_equals).colon⟩
  | param | declare | branch | goto | switch => cases ht

theorem labelDef_none {n : String} (hn : IsName n) (hname : Stops Grammar.isNameChar tail)
    (hcolon : Stops (· = ':') (tail.dropWhile Grammar.isSpace)) : Grammar.labelDef (n.toList ++ tail) = none := by
  rw [Grammar.labelDef, seqLeft_apply, name_text hn hname, Option.bind_some, mark_none (c := ':') rfl hcolon,
    Option.map_none]

theorem dropWhile_spaces {pre cs : List Char} (hpre : ∀ c ∈ pre, Grammar.isSpace c = true)
    (hcs : Stops Grammar.isSpace cs) : (pre ++ cs).dropWhile Grammar.isSpace = cs := by
  rw [List.dropWhile_append_of_pos hpre, dropWhile_of_stops hcs]

theorem labelDef_text {l : String} (hl : IsName l) {between after : List Char}
    (hbetween : ∀ c ∈ between, Grammar.isSpace c = true) (hafter : ∀ c ∈ after, Grammar.isSpace c = true)
    (hcs : Stops Grammar.isSpace cs) :
    Grammar.labelDef (l.toList ++ (between ++ ':' :: (after ++ cs))) = some (l, cs) := by
  have hname : Stops Grammar.isNameChar (between ++ ':' :: (after ++ cs)) := by
    cases between with
    | nil => exact stops_cons.2 rfl
    | cons c between =>
      rw [List.cons_append, stops_cons, ← Bool.not_eq_true]
      intro hc
      have hspace := isSpace_of_isNameChar hc
      simp [hbetween c List.mem_cons_self] at hspace
  have hcolon : Grammar.mark ":" (between ++ ':' :: (after ++ cs)) = some ((), cs) := by
    have hmark : Grammar.mark ":" (':' :: (after ++ cs)) = some ((), cs) := by
      rw [mark_cons rfl rfl, dropWhile_spaces hafter hcs]
    rw [mark_apply, dropWhile_spaces hbetween (stops_cons.2 rfl)]
    rwa [mark_apply, dropWhile_of_stops (stops_cons.2 rfl)] at hmark
  rw [Grammar.labelDef, seqLeft_apply, name_text hl hname, Option.bind_some, hcolon]
  rfl

/-- A line is its label and the form whose text follows. -/
theorem line_printed {label : Option String} {form : Form} {t : String} {pre : List Char} (hform : form.Spelled)
    (ht : form.text? = some t) (hlabel : ∀ l ∈ label, IsName l) (hpre : Precedes label pre) :
    Grammar.line (pre ++ t.toList) = some (⟨label, some form⟩, []) := by
  obtain ⟨n, tail, hn, htext, hname, hcolon⟩ := text_begins hform ht
  have hspace : Stops Grammar.isSpace t.toList := by
    rw [htext]
    exact Spells.stops_isSpace hn
  have hstatement := statement_text hform ht
  obtain ⟨before, hbefore, hpre⟩ := hpre
  cases label with
  | none =>
    obtain rfl : pre = before := hpre
    have hlabel : Grammar.labelDef t.toList = none := by
      rw [htext]
      exact labelDef_none hn hname hcolon
    simp [Grammar.line, bind_apply, blanks_apply, dropWhile_spaces hbefore hspace, optional_apply, hlabel, hstatement,
      map_apply]
  | some l =>
    obtain ⟨between, after, hbetween, hafter, rfl⟩ := hpre
    have hl : IsName l := hlabel l rfl
    have hcs : before ++ l.toList ++ between ++ ':' :: after ++ t.toList =
        before ++ (l.toList ++ (between ++ ':' :: (after ++ t.toList))) := by simp
    have hblanks : (before ++ (l.toList ++ (between ++ ':' :: (after ++ t.toList)))).dropWhile Grammar.isSpace =
        l.toList ++ (between ++ ':' :: (after ++ t.toList)) := dropWhile_spaces hbefore (Spells.stops_isSpace hl)
    rw [hcs]
    simp [Grammar.line, bind_apply, blanks_apply, hblanks, optional_apply, labelDef_text hl hbetween hafter hspace,
      hstatement, map_apply]

/-! ## Characters of a printed statement -/

/-- None of the characters begins a comment or ends a line. -/
def Plain (cs : List Char) : Prop := ∀ c ∈ cs, c ≠ '#' ∧ Text.isLineEnd c = false

instance (cs : List Char) : Decidable (Plain cs) :=
  List.decidableBAll (fun c => c ≠ '#' ∧ Text.isLineEnd c = false) cs

theorem plain_append {cs ds : List Char} : Plain (cs ++ ds) ↔ Plain cs ∧ Plain ds := List.forall_mem_append

theorem plain_cons {c : Char} : Plain (c :: cs) ↔ (c ≠ '#' ∧ Text.isLineEnd c = false) ∧ Plain cs :=
  List.forall_mem_cons

theorem code_of_isNameChar {c : Char} (h : Grammar.isNameChar c = true) : 0x24 ≤ c.toNat ∧ c.toNat ≤ 0x7A := by
  have hcode : ∀ d : Char, c ≤ d ↔ c.toNat ≤ d.toNat := fun _ => Iff.rfl
  have hcode' : ∀ d : Char, d ≤ c ↔ d.toNat ≤ c.toNat := fun _ => Iff.rfl
  have hletters : 'a'.toNat = 0x61 ∧ 'z'.toNat = 0x7A ∧ 'A'.toNat = 0x41 ∧ 'Z'.toNat = 0x5A := ⟨rfl, rfl, rfl, rfl⟩
  have hdigits : '0'.toNat = 0x30 ∧ '9'.toNat = 0x39 := ⟨rfl, rfl⟩
  have hunderscore : c = '_' → c.toNat = 0x5F := by rintro rfl; rfl
  have hdollar : c = '$' → c.toNat = 0x24 := by rintro rfl; rfl
  simp only [Grammar.isNameChar, Grammar.isLetter, Grammar.isDigit, Bool.or_eq_true, Bool.and_eq_true,
    decide_eq_true_eq, hcode, hcode'] at h
  grind

theorem plain_of_isNameChar {c : Char} (h : Grammar.isNameChar c = true) : c ≠ '#' ∧ Text.isLineEnd c = false := by
  obtain ⟨hlow, hhigh⟩ := code_of_isNameChar h
  constructor
  · rintro rfl
    cases h
  · simp only [Text.isLineEnd, Bool.or_eq_false_iff, Bool.and_eq_false_iff, decide_eq_false_iff_not]
    omega

theorem isBlank_of_isNameChar {c : Char} (h : Grammar.isNameChar c = true) : Text.isBlank c = false := by
  obtain ⟨hlow, hhigh⟩ := code_of_isNameChar h
  simp only [Text.isBlank, Bool.or_eq_false_iff, Bool.and_eq_false_iff, decide_eq_false_iff_not]
  omega

theorem Spells.plain {first next : Char → Bool} {s : String} (h : Spells first next s)
    (hfirst : ∀ c, first c = true → next c = true)
    (hnext : ∀ c, next c = true → Grammar.isNameChar c = true ∨ c ∈ ['.', '<', '>']) : Plain s.toList := by
  intro c hc
  rcases hnext c (h.forall_mem hfirst c hc) with hc | hc
  · exact plain_of_isNameChar hc
  · simp only [List.mem_cons, List.not_mem_nil, or_false] at hc
    rcases hc with rfl | rfl | rfl <;> decide

theorem IsName.plain {n : String} (hn : IsName n) : Plain n.toList :=
  Spells.plain hn (fun _ => isNameChar_of_isLetter) fun _ hc => .inl hc

theorem IsMethod.plain {m : String} (hm : IsMethod m) : Plain m.toList :=
  Spells.plain hm (fun _ hc => by simp [isNameChar_of_isLetter hc]) fun c hc => by
    simp only [Bool.or_eq_true, decide_eq_true_eq] at hc
    simp only [List.mem_cons, List.not_mem_nil, or_false]
    tauto

theorem IsType.plain {type : String} (htype : IsType type) : Plain type.toList := by
  obtain ⟨base, brackets, hbase, rfl⟩ := htype
  rw [String.toList_append, plain_append]
  constructor
  · refine Spells.plain hbase (fun _ hc => by simp [isNameChar_of_isLetter hc]) fun c hc => ?_
    simp only [Bool.or_eq_true, decide_eq_true_eq] at hc
    simp only [List.mem_cons, List.not_mem_nil, or_false]
    tauto
  · intro c hc
    rw [String.toList_join, List.flatMap_map] at hc
    obtain ⟨-, -, hc⟩ := List.mem_flatMap.1 hc
    simp only [String.reduceToList, List.mem_cons, List.not_mem_nil, or_false] at hc
    rcases hc with rfl | rfl <;> decide

theorem Numeral.Spelled.plain {i : Numeral} (hi : i.Spelled) : Plain i.text.toList := by
  have hdigits : Plain i.digits.toList :=
    Spells.plain hi (fun _ hc => hc) fun _ hc => .inl (by simp [Grammar.isNameChar, hc])
  rw [Numeral.text, String.toList_append, plain_append]
  refine ⟨?_, hdigits⟩
  split <;> simp [Plain, Text.isLineEnd]

theorem Atom.Spelled.plain {a : Atom} (ha : a.Spelled) : Plain a.text.toList := by
  cases a with
  | number i => exact Numeral.Spelled.plain ha
  | name s => exact IsName.plain ha

theorem Place.Spelled.plain {p : Place} (hp : p.Spelled) : Plain p.text.toList := by
  cases p with
  | element array index =>
    simp only [Place.text, String.toList_append, plain_append]
    exact ⟨⟨⟨hp.1.plain, by decide⟩, hp.2.plain⟩, by decide⟩
  | field base member =>
    simp only [Place.text, String.toList_append, plain_append]
    exact ⟨⟨hp.1.plain, by decide⟩, hp.2.plain⟩
  | name s => exact IsName.plain hp

theorem Source.Spelled.plain {x : Source} (hx : x.Spelled) : Plain x.text.toList := by
  cases x with
  | allocate type =>
    simp only [Source.text, String.toList_append, plain_append]
    exact ⟨by decide, IsType.plain hx⟩
  | cast type value =>
    simp only [Source.text, String.toList_append, plain_append]
    exact ⟨⟨⟨by decide, hx.1.plain⟩, by decide⟩, hx.2.plain⟩
  | binary left op right =>
    have hop : Plain op.symbol.toList := by rcases op with op | op | op | op <;> cases op <;> decide
    simp only [Source.text, String.toList_append, plain_append]
    exact ⟨⟨⟨⟨hx.1.plain, by decide⟩, hop⟩, by decide⟩, hx.2.plain⟩
  | negate name =>
    simp only [Source.text, String.toList_append, plain_append]
    exact ⟨by decide, IsName.plain hx⟩
  | number i => exact Numeral.Spelled.plain hx
  | place p => exact Place.Spelled.plain hx

theorem callText_plain {method : String} {args : List Atom} (hmethod : IsMethod method)
    (hargs : ∀ a ∈ args, a.Spelled) : Plain (callText method args).toList := by
  have hlist : Plain (", ".intercalate (args.map Atom.text)).toList := by
    cases args with
    | nil => simp [Plain]
    | cons a as =>
      obtain ⟨ha, has⟩ := List.forall_mem_cons.1 hargs
      rw [toList_intercalate_args, plain_append]
      refine ⟨ha.plain, fun c hc => ?_⟩
      obtain ⟨b, hb, hc⟩ := List.mem_flatMap.1 hc
      have hplain : Plain (',' :: ' ' :: b.text.toList) :=
        plain_cons.2 ⟨by decide, plain_cons.2 ⟨by decide, (has b hb).plain⟩⟩
      exact hplain c hc
  simp only [callText, String.toList_append, plain_append]
  exact ⟨⟨⟨⟨by decide, hmethod.plain⟩, by decide⟩, hlist⟩, by decide⟩

theorem text_plain {form : Form} (hform : form.Spelled) {t : String} (ht : form.text? = some t) : Plain t.toList := by
  cases form with
  | «return» value =>
    cases value with
    | none =>
      cases ht
      decide
    | some a =>
      cases ht
      rw [String.toList_append, plain_append]
      exact ⟨by decide, (hform a rfl).plain⟩
  | nop =>
    cases ht
    decide
  | invoke result method args =>
    obtain ⟨hresult, hmethod, hargs⟩ := hform
    cases result with
    | none =>
      cases ht
      exact callText_plain hmethod hargs
    | some n =>
      cases ht
      simp only [String.toList_append, plain_append]
      exact ⟨⟨(hresult n rfl).1.plain, by decide⟩, callText_plain hmethod hargs⟩
  | assign place source =>
    cases ht
    simp only [String.toList_append, plain_append]
    exact ⟨⟨hform.1.plain, by decide⟩, hform.2.2.plain⟩
  | param | declare | branch | goto | switch => cases ht

theorem plain_spaces {pre : List Char} (h : ∀ c ∈ pre, Grammar.isSpace c = true) : Plain pre := by
  intro c hc
  have hspace := h c hc
  simp only [Grammar.isSpace, Bool.or_eq_true, decide_eq_true_eq] at hspace
  rcases hspace with rfl | rfl <;> decide

theorem Precedes.plain {label : Option String} {pre : List Char} (h : Precedes label pre)
    (hlabel : ∀ l ∈ label, IsName l) : Plain pre := by
  obtain ⟨before, hbefore, hpre⟩ := h
  cases label with
  | none =>
    obtain rfl : pre = before := hpre
    exact plain_spaces hbefore
  | some l =>
    obtain ⟨between, after, hbetween, hafter, rfl⟩ := hpre
    simp only [plain_append, plain_cons]
    exact ⟨⟨⟨plain_spaces hbefore, (hlabel l rfl).plain⟩, plain_spaces hbetween⟩, by decide, plain_spaces hafter⟩

/-! ## The routine -/

theorem withoutComment_of_plain {cs : List Char} (h : Plain cs) : withoutComment cs = cs := by
  refine List.takeWhile_eq_self_iff.2 fun c hc => ?_
  simpa using (h c hc).1

theorem isName_of_readLine {source : SourceLine} (h : readLine n cs = .ok source) :
    (∀ l ∈ source.label, IsName l) ∧ ∀ form ∈ source.form, form.Spelled := by
  unfold readLine at h
  split at h
  next source' hline =>
    cases h
    simp only [Grammar.line, bind_apply, Option.bind_eq_some_iff, pure_apply] at hline
    obtain ⟨p, hblanks, ⟨label, cs₁⟩, hlabel, ⟨form, cs₂⟩, hform, q, -, heq⟩ := hline
    obtain ⟨rfl, -⟩ := Prod.mk.inj (Option.some.inj heq)
    have hname : Yields Grammar.labelDef IsName := yields_name.seqLeft
    have hspelled : Yields Grammar.statement Form.Spelled := fun _ _ _ => spelled_of_statement
    exact ⟨hname.optional _ _ _ hlabel, hspelled.optional _ _ _ hform⟩
  · cases h
  · cases h

/-- A label and the text of a form after it say the form. -/
theorem readLine_printed {label : Option String} {form : Form} {t : String} {pre : List Char} (hform : form.Spelled)
    (ht : form.text? = some t) (hlabel : ∀ l ∈ label, IsName l) (hpre : Precedes label pre) :
    Plain (pre ++ t.toList) ∧ (pre ++ t.toList).all Text.isBlank = false ∧
      readLine n (pre ++ t.toList) = .ok ⟨label, some form⟩ := by
  obtain ⟨m, tail, hm, htext, -⟩ := text_begins hform ht
  refine ⟨plain_append.2 ⟨hpre.plain hlabel, text_plain hform ht⟩, ?_, ?_⟩
  · obtain ⟨c, cs, hcs, hc⟩ := hm.exists_cons
    rw [htext, hcs, List.all_append, List.all_append, List.all_cons]
    simp [isBlank_of_isNameChar (isNameChar_of_isLetter hc)]
  · rw [readLine, line_printed hform ht hlabel hpre]

/-- Two lines of a routine that has been read are on different lines of the text. -/
theorem LaidOut.eq_of_number {o : Outline} {r : Routine} (h : LaidOut o r) {l l' : Line} (hl : l ∈ r.body)
    (hl' : l' ∈ r.body) (heq : l.number = l'.number) : l = l' := by
  obtain ⟨ns, hns, hascending⟩ := h.ascending
  have hnodup : (r.body.toList.map Line.number).Nodup := by
    rw [hns]
    exact (hascending.imp Nat.ne_of_lt).map _ fun _ _ hne heq => hne (Option.some.inj heq)
  exact List.inj_on_of_nodup_map hnodup (Array.mem_toList_iff.2 hl) (Array.mem_toList_iff.2 hl') heq

theorem mem_body_of_step {a a' : Assembly} {numbered : List Char × Nat} (h : step a numbered = .ok a') {l : Labelled}
    (hl : l ∈ a.body) : l ∈ a'.body := by
  unfold step at h
  simp only at h
  split at h
  · cases h
    exact hl
  · obtain ⟨source, -, h⟩ := bind_ok_iff.1 h
    obtain ⟨stmt, -, hbody⟩ := addLine_eq_ok h
    rw [hbody]
    cases stmt with
    | none => exact hl
    | some x => exact Array.mem_push.2 (.inl hl)

/-- What has been read up to the end stands in the routine, with its targets in place. -/
theorem exists_line_of_finish {a : Assembly} {name : String} {r : Routine} (h : a.finish name = .ok r) {l : Labelled}
    (hl : l ∈ a.body) : ∃ line ∈ r.body, line.number = some l.line ∧
      ∃ f : String → Except ReadError Target, l.stmt.mapTargets f = .ok line.stmt := by
  obtain ⟨-, -, hlines⟩ := finish_eq_ok h
  have hclose : l ∈ a.close.body := by
    unfold Assembly.close
    split
    · exact hl
    · exact Array.mem_push.2 (.inl hl)
  obtain ⟨i, hi⟩ := List.getElem?_of_mem (Array.mem_toList_iff.2 hclose)
  obtain ⟨line, hline, hresolve⟩ := forall₂_getElem? hlines.flip hi
  obtain ⟨hnumber, f, hf, -⟩ := resolve_eq_ok hresolve
  exact ⟨line, Array.mem_toList_iff.1 (List.mem_of_getElem? hline), hnumber, f, hf⟩

/-- In the place of a line that holds a statement without a jump, there may be its label and the text of the statement:
the same routine is read, with the same variables in the same order, the same lines and the same targets. -/
theorem read_printed {text name : String} {r : Routine} (h : read text name = .ok r) {source : SourceLine} {form : Form}
    (hsource : Says (numberedLines text) n source) (hform : source.form = some form)
    (hstatement : form.isStatement = true) {l : Line} (hl : l ∈ r.body) (hnumber : l.number = some n)
    (hkind : l.stmt.kind ∈ plainKinds) :
    ∃ t, l.stmt.text = .ok t ∧ ∀ pre, Precedes source.label pre →
      read (String.ofList (Text.replaceLine (pre ++ t.toList) (n - 1) text.toList)) name = .ok r := by
  obtain ⟨cs, hmem, hblank, hreadLine⟩ := hsource
  obtain ⟨done, rest, htext, hreplace⟩ := numberedLines_replaceLine hmem
  obtain ⟨label, form'⟩ := source
  obtain rfl : form' = some form := hform
  obtain ⟨hlabel, hspelled⟩ := isName_of_readLine hreadLine
  -- The lines before, the line itself, and those after it.
  obtain ⟨a, ha, hr⟩ := bind_ok_iff.1 h
  rw [htext, List.foldlM_append] at ha
  obtain ⟨a₁, hdone, ha⟩ := bind_ok_iff.1 ha
  rw [List.foldlM_cons, step_of_source hblank hreadLine] at ha
  obtain ⟨a₂, hline, hrest⟩ := bind_ok_iff.1 ha
  obtain ⟨stmt, hread, hbody⟩ := addLine_eq_ok hline
  obtain ⟨-, hdeclares⟩ | ⟨x, rfl, -, -⟩ := jumps_of_form hread
  · rw [hstatement] at hdeclares
    cases hdeclares
  -- The statement of the form is that of the line of the routine.
  have hx : ⟨x, n⟩ ∈ a.body := by
    refine foldlM_keeps (P := fun a => ⟨x, n⟩ ∈ a.body) (fun _ _ _ _ hmem hstep => mem_body_of_step hstep hmem) hrest ?_
    rw [hbody]
    exact Array.mem_push_self
  obtain ⟨l', hl', hnumber', f, hf⟩ := exists_line_of_finish hr hx
  obtain rfl : l = l' := (laidOut_read h).eq_of_number hl hl' (hnumber.trans hnumber'.symm)
  obtain ⟨t, ht, hprinted⟩ := text_of_form hread hf hkind
  refine ⟨t, ht, fun pre hpre => ?_⟩
  -- The printed line says the canonical form, which leads to the same assembly.
  obtain ⟨hplain, hblank', hreadLine'⟩ := readLine_printed (n := n) (hspelled form rfl).canonical hprinted hlabel hpre
  have hne : pre ++ t.toList ≠ [] := by
    rintro hnil
    rw [hnil] at hblank'
    cases hblank'
  rw [← withoutComment_of_plain hplain] at hblank' hreadLine'
  have hstep : step a₁ (pre ++ t.toList, n) = .ok a₂ := by
    rw [step_of_source hblank' hreadLine']
    exact addLine_of_leads form.leads_canonical hline
  rw [read, hreplace _ hne fun c hc => (hplain c hc).2, List.foldlM_append, hdone]
  refine bind_ok_iff.2 ⟨a, ?_, hr⟩
  refine bind_ok_iff.2 ⟨a₁, rfl, ?_⟩
  rw [List.foldlM_cons, hstep]
  exact hrest

/-- A cast with blanks, leading zeros and a comment. -/
def loose : String := "L: x = ( int )007 # seven\ngoto L"

/-- Its first line may be the label and the text of its statement. -/
theorem read_printed_loose : ∃ r, read loose = .ok r ∧ read "L: x = (int) 7\ngoto L" = .ok r := by
  have hrun : ((read loose).toOption.map fun r => r.body[0]?) =
      some (some ⟨.assign (.var ⟨"x", .primitive .int⟩) (.cast (.primitive .int) (.literal 7)), some 1⟩) := by
    decide +kernel
  obtain ⟨r, hr, hbody⟩ := Option.map_eq_some_iff.1 hrun
  rw [toOption_eq_some] at hr
  have hsource : Says (numberedLines loose) 1
      ⟨some "L", some (.assign (.name "x") (.cast "int" (.number ⟨false, "007"⟩)))⟩ := by
    refine ⟨"L: x = ( int )007 # seven".toList, by decide +kernel, by decide +kernel, ?_⟩
    rw [← toOption_eq_some]
    decide +kernel
  obtain ⟨t, ht, hread⟩ := read_printed hr hsource rfl rfl (Array.mem_of_getElem? hbody) rfl (by decide)
  obtain rfl : t = "x = (int) 7" := Except.ok.inj (ht.symm.trans (by decide +kernel))
  have hprinted : String.ofList (Text.replaceLine ("L: ".toList ++ "x = (int) 7".toList) (1 - 1) loose.toList) =
      "L: x = (int) 7\ngoto L" := by
    decide +kernel
  refine ⟨r, hr, ?_⟩
  rw [← hprinted]
  exact hread _ ⟨[], by simp, [], [' '], by simp, by simp [Grammar.isSpace], rfl⟩

end Dataflow.Reading
