import Dataflow.Proofs.Reading.Tokens
/-!
# What forms are spelled with

What a line says is made of names, methods, types and numerals as the grammar has them (`spelled_of_statement`). The name
that an assignment or the result of a call begins with is no keyword that makes a statement by itself, as these are tried
before.
-/
namespace Dataflow.Reading

open Reader

variable {α β : Type} {cs tail rest : List Char}

/-! ## Forms -/

def IsMethod (s : String) : Prop :=
  Spells Grammar.isLetter (fun c => Grammar.isNameChar c || c = '.' || c = '<' || c = '>') s

/-- A name that may be qualified, and pairs of brackets. -/
def IsType (s : String) : Prop :=
  ∃ (base : String) (brackets : List Unit), Spells Grammar.isLetter (fun c => Grammar.isNameChar c || c = '.') base ∧
    s = base ++ String.join (brackets.map fun _ => "[]")

def Numeral.Spelled (n : Numeral) : Prop := Spells Grammar.isDigit Grammar.isDigit n.digits

def Atom.Spelled : Atom → Prop
  | number n => n.Spelled
  | name s => IsName s

def Place.Spelled : Place → Prop
  | element array index => IsName array ∧ index.Spelled
  | field base member => IsName base ∧ IsName member
  | name s => IsName s

def Source.Spelled : Source → Prop
  | allocate type => IsType type
  | cast type value => IsType type ∧ value.Spelled
  | binary left _ right => left.Spelled ∧ right.Spelled
  | negate name => IsName name
  | number n => n.Spelled
  | place p => p.Spelled

/-- The name that a place begins with. -/
def Place.head : Place → String
  | element array _ => array
  | field base _ => base
  | name s => s

/-- No statement is read off the front of the name. -/
def Unshadowed (n : String) : Prop := ¬ Shadows "return" n ∧ ¬ Shadows "nop" n

/-- The spelling of the forms that neither declare nor jump. -/
def Form.Spelled : Form → Prop
  | .return value => ∀ a ∈ value, a.Spelled
  | invoke result method args => (∀ n ∈ result, IsName n ∧ Unshadowed n) ∧ IsMethod method ∧ ∀ a ∈ args, a.Spelled
  | assign place source => place.Spelled ∧ Unshadowed place.head ∧ source.Spelled
  | _ => True

/-! ## What readers yield -/

/-- All that the reader gives has the property. -/
def Yields (r : Reader α) (P : α → Prop) : Prop := ∀ cs a rest, r cs = some (a, rest) → P a

section
variable {r : Reader α} {P : α → Prop} {Q : β → Prop}

theorem Yields.any : Yields r fun _ => True := fun _ _ _ _ => trivial

theorem Yields.pure {a : α} (h : P a) : Yields (Pure.pure a : Reader α) P := by
  intro cs b rest hb
  cases hb
  exact h

theorem Yields.bind {f : α → Reader β} (hr : Yields r P) (hf : ∀ a, P a → Yields (f a) Q) : Yields (r >>= f) Q := by
  intro cs b rest h
  rw [bind_apply, Option.bind_eq_some_iff] at h
  obtain ⟨⟨a, tail⟩, ha, hb⟩ := h
  exact hf a (hr _ _ _ ha) _ _ _ hb

theorem Yields.map {f : α → β} (hr : Yields r P) (hf : ∀ a, P a → Q (f a)) : Yields (f <$> r) Q := by
  intro cs b rest h
  rw [map_apply, Option.map_eq_some_iff] at h
  obtain ⟨⟨a, tail⟩, ha, heq⟩ := h
  cases heq
  exact hf a (hr _ _ _ ha)

theorem Yields.seqRight {s : Reader β} (hs : Yields s Q) : Yields (r *> s) Q := by
  intro cs b rest h
  rw [seqRight_apply, Option.bind_eq_some_iff] at h
  obtain ⟨p, -, hb⟩ := h
  exact hs _ _ _ hb

theorem Yields.seqLeft {s : Reader β} (hr : Yields r P) : Yields (r <* s) P := by
  intro cs a rest h
  rw [seqLeft_apply, Option.bind_eq_some_iff] at h
  obtain ⟨p, hp, h⟩ := h
  obtain ⟨q, -, heq⟩ := Option.map_eq_some_iff.1 h
  cases heq
  exact hr _ _ _ hp

theorem Yields.orElse {s : Reader α} (hr : Yields r P) (hs : Yields s P) : Yields (r <|> s) P := by
  intro cs a rest h
  rw [orElse_apply, Option.or_eq_some_iff] at h
  rcases h with h | ⟨-, h⟩
  · exact hr _ _ _ h
  · exact hs _ _ _ h

theorem Yields.optional (hr : Yields r P) : Yields (optional r) fun o => ∀ a ∈ o, P a := by
  intro cs o rest h
  rw [optional_apply] at h
  cases h
  intro a ha
  obtain ⟨p, hp, rfl⟩ := Option.map_eq_some_iff.1 ha
  exact hr _ _ _ hp

theorem Yields.star (hr : Yields r P) : Yields (star r) fun as => ∀ a ∈ as, P a := by
  intro cs as rest h
  have hmany : ∀ a ∈ (many r cs).1, P a := by
    clear h
    fun_induction many r cs with
    | case1 => simp
    | case2 cs a tail ha _ bs last hmany ih =>
      rw [hmany] at ih
      exact List.forall_mem_cons.2 ⟨hr _ _ _ ha, ih⟩
    | case3 cs a tail ha => simpa using hr _ _ _ ha
  simp only [Reader.star, Option.some.injEq] at h
  simpa only [h] using hmany

theorem Yields.separated {separator : Reader Unit} (hr : Yields r P) :
    Yields (separated separator r) fun as => ∀ a ∈ as, P a := by
  refine hr.bind fun a ha => ?_
  have hrest : Yields (Reader.star (do separator; r)) fun as => ∀ a ∈ as, P a := (Yields.any.bind fun _ _ => hr).star
  exact hrest.bind fun as has => .pure (List.forall_mem_cons.2 ⟨ha, has⟩)

end

/-! ## The grammar -/

theorem yields_run {first next : Char → Bool} : Yields (run first next) (Spells first next) :=
  fun _ _ _ h => (run_eq_some_iff.1 h).1

theorem yields_name : Yields Grammar.name IsName := yields_run

theorem yields_methodName : Yields Grammar.methodName IsMethod := yields_run

theorem yields_typeName : Yields Grammar.typeName IsType := by
  refine yields_run.bind fun base hbase => ?_
  exact Yields.any.bind fun brackets _ => .pure ⟨base, brackets, hbase, rfl⟩

theorem yields_numeral : Yields Grammar.numeral Numeral.Spelled := by
  refine Yields.any.bind fun sign _ => ?_
  exact yields_run.bind fun digits hdigits => .pure hdigits

theorem yields_atom : Yields Grammar.atom Atom.Spelled := by
  have hnumber : Yields (Atom.number <$> Grammar.numeral) Atom.Spelled := yields_numeral.map fun _ h => h
  exact hnumber.orElse (yields_name.map fun _ h => h)

theorem yields_element : Yields Grammar.element Place.Spelled := by
  refine yields_name.bind fun array harray => Yields.any.bind fun _ _ => yields_atom.bind fun index hindex => ?_
  exact Yields.any.bind fun _ _ => Yields.any.bind fun _ _ => .pure ⟨harray, hindex⟩

theorem yields_field : Yields Grammar.field Place.Spelled :=
  yields_name.bind fun _ hbase => Yields.any.bind fun _ _ => yields_name.bind fun _ hname => .pure ⟨hbase, hname⟩

theorem yields_place : Yields Grammar.place Place.Spelled :=
  yields_element.orElse (yields_field.orElse (yields_name.map fun _ h => h))

theorem yields_source : Yields Grammar.source Source.Spelled := by
  have hnew : Yields Grammar.newExp Source.Spelled :=
    Yields.any.bind fun _ _ => Yields.any.bind fun _ _ => yields_typeName.bind fun _ htype => .pure htype
  have hcast : Yields Grammar.castExp Source.Spelled := by
    refine Yields.any.bind fun _ _ => Yields.any.bind fun _ _ => yields_typeName.bind fun _ htype => ?_
    exact Yields.any.bind fun _ _ => yields_atom.bind fun _ hvalue => .pure ⟨htype, hvalue⟩
  have hbinary : Yields Grammar.binaryExp Source.Spelled := by
    refine yields_atom.bind fun _ hleft => Yields.any.bind fun _ _ => Yields.any.bind fun _ _ => ?_
    exact Yields.any.bind fun _ _ => yields_atom.bind fun _ hright => .pure ⟨hleft, hright⟩
  have hunary : Yields Grammar.unaryExp Source.Spelled :=
    Yields.any.bind fun _ _ => Yields.any.bind fun _ _ => yields_name.bind fun _ hname => .pure hname
  have helement : Yields (Source.place <$> Grammar.element) Source.Spelled := yields_element.map fun _ h => h
  have hfield : Yields (Source.place <$> Grammar.field) Source.Spelled := yields_field.map fun _ h => h
  have hnumber : Yields (Source.number <$> Grammar.numeral) Source.Spelled := yields_numeral.map fun _ h => h
  have hname : Yields ((Source.place ∘ Place.name) <$> Grammar.name) Source.Spelled := yields_name.map fun _ h => h
  exact hnew.orElse <| hcast.orElse <| hbinary.orElse <| hunary.orElse <| helement.orElse <| hfield.orElse <|
    hnumber.orElse hname

theorem yields_invokeExp : Yields Grammar.invokeExp fun p => IsMethod p.1 ∧ ∀ a ∈ p.2, a.Spelled := by
  refine Yields.any.bind fun _ _ => Yields.any.bind fun _ _ => yields_methodName.bind fun _ hmethod => ?_
  refine Yields.any.bind fun _ _ => (yields_atom.separated.optional).bind fun args hargs => ?_
  refine Yields.any.bind fun _ _ => Yields.any.bind fun _ _ => .pure ⟨hmethod, ?_⟩
  cases args with
  | none => simp
  | some args => exact hargs args rfl

/-! ## The name that a line begins with -/

theorem stops_of_mark {word : String} {c : Char} {p : Unit × List Char} (hword : word.toList = [c])
    (hc : Text.isWordChar c = false) (h : Grammar.mark word cs = some p) : Stops Text.isWordChar cs := by
  rw [mark_apply, Option.map_eq_some_iff] at h
  obtain ⟨⟨u, tail⟩, hliteral, -⟩ := h
  rw [literal_eq_some_iff, hword] at hliteral
  cases cs with
  | nil => simp
  | cons d cs =>
    rw [stops_cons]
    by_cases hspace : Grammar.isSpace d = true
    · simp only [Grammar.isSpace, Bool.or_eq_true, decide_eq_true_eq] at hspace
      rcases hspace with rfl | rfl <;> decide
    · rw [List.dropWhile_cons_of_neg hspace] at hliteral
      obtain ⟨rfl, -⟩ := List.cons.inj hliteral
      exact hc

theorem not_shadows {word n : String} (h : Grammar.keyword word (n.toList ++ tail) = none)
    (htail : Stops Text.isWordChar tail) : ¬ Shadows word n := by
  rintro (rfl | ⟨ds, hds⟩)
  · have hsome : Grammar.keyword n (n.toList ++ tail) = some ((), tail) := keyword_eq_some_iff.2 ⟨rfl, htail⟩
    simp [h] at hsome
  · have hsome : Grammar.keyword word (n.toList ++ tail) = some ((), '$' :: ds ++ tail) := by
      rw [keyword_eq_some_iff]
      refine ⟨by simp [hds], ?_⟩
      simp only [List.cons_append, stops_cons]
      decide
    simp [h] at hsome

theorem keyword_return_of_none (h : Grammar.returnStmt cs = none) : Grammar.keyword "return" cs = none := by
  rw [Grammar.returnStmt, bind_apply, Option.bind_eq_none_iff] at h
  rw [Option.eq_none_iff_forall_ne_some]
  rintro p hp
  have hvalue := h p hp
  simp [bind_apply, optional_apply, pure_apply] at hvalue

theorem keyword_nop_of_none (h : Grammar.nopStmt cs = none) : Grammar.keyword "nop" cs = none := by
  rw [Grammar.nopStmt, bind_apply, Option.bind_eq_none_iff] at h
  rw [Option.eq_none_iff_forall_ne_some]
  rintro p hp
  have hblanks := h p hp
  simp [bind_apply, blanks_apply, pure_apply] at hblanks

theorem unshadowed_of_none {n : String} (hreturn : Grammar.returnStmt (n.toList ++ tail) = none)
    (hnop : Grammar.nopStmt (n.toList ++ tail) = none) (htail : Stops Text.isWordChar tail) : Unshadowed n :=
  ⟨not_shadows (keyword_return_of_none hreturn) htail, not_shadows (keyword_nop_of_none hnop) htail⟩

theorem stops_of_literal {word : String} {c : Char} {p : Unit × List Char} (hword : word.toList = [c])
    (hc : Text.isWordChar c = false) (h : Reader.literal word cs = some p) : Stops Text.isWordChar cs := by
  rw [literal_eq_some_iff, hword] at h
  simp [h, hc]

/-- No word character follows the name that an assignment begins with. -/
theorem head_of_place {p : Place} {q : Unit × List Char} (h : Grammar.place cs = some (p, rest))
    (hmark : Grammar.mark "=" rest = some q) : ∃ tail, cs = p.head.toList ++ tail ∧ Stops Text.isWordChar tail := by
  simp only [Grammar.place, orElse_apply, Option.or_eq_some_iff, map_apply, Option.map_eq_some_iff, Grammar.element,
    Grammar.field, bind_apply, Option.bind_eq_some_iff, pure_apply] at h
  rcases h with ⟨⟨array, tail⟩, hname, ⟨u, tail'⟩, hopen, _, _, _, _, _, _, heq⟩ | ⟨-, h⟩
  · cases heq
    exact ⟨tail, (name_eq_some_iff.1 hname).2.1, stops_of_mark rfl (by decide) hopen⟩
  rcases h with ⟨⟨base, tail⟩, hname, ⟨u, tail'⟩, hdot, _, _, heq⟩ | ⟨-, ⟨s, tail⟩, hname, heq⟩
  · cases heq
    exact ⟨tail, (name_eq_some_iff.1 hname).2.1, stops_of_literal rfl (by decide) hdot⟩
  · cases heq
    exact ⟨tail, (name_eq_some_iff.1 hname).2.1, stops_of_mark rfl (by decide) hmark⟩

theorem head_of_invokeResult {n : String} (h : Grammar.invokeResult cs = some (n, rest)) :
    ∃ tail, cs = n.toList ++ tail ∧ Stops Text.isWordChar tail := by
  simp only [Grammar.invokeResult, seqLeft_apply, Option.bind_eq_some_iff, Option.map_eq_some_iff] at h
  obtain ⟨⟨s, tail⟩, hname, q, hmark, heq⟩ := h
  cases heq
  exact ⟨tail, (name_eq_some_iff.1 hname).2.1, stops_of_mark rfl (by decide) hmark⟩

/-! ## Statements -/

theorem spelled_of_return {form : Form} (h : Grammar.returnStmt cs = some (form, rest)) : form.Spelled := by
  have hvalue : Yields Grammar.returnValue Atom.Spelled := yields_atom.seqRight
  have hreturn : Yields Grammar.returnStmt Form.Spelled :=
    Yields.any.bind fun _ _ => hvalue.optional.bind fun _ h => .pure h
  exact hreturn _ _ _ h

theorem spelled_of_invoke {form : Form} (hreturn : Grammar.returnStmt cs = none) (hnop : Grammar.nopStmt cs = none)
    (h : Grammar.invokeStmt cs = some (form, rest)) : form.Spelled := by
  simp only [Grammar.invokeStmt, bind_apply, Option.bind_eq_some_iff, optional_apply, pure_apply] at h
  obtain ⟨⟨result, tail⟩, hresult, ⟨⟨method, args⟩, tail'⟩, hcall, heq⟩ := h
  cases heq
  cases hresult
  refine ⟨?_, yields_invokeExp _ _ _ hcall⟩
  intro n hn
  obtain ⟨p, hp, rfl⟩ := Option.map_eq_some_iff.1 hn
  obtain ⟨tail', rfl, htail⟩ := head_of_invokeResult hp
  exact ⟨yields_name.seqLeft _ _ _ hp, unshadowed_of_none hreturn hnop htail⟩

theorem spelled_of_assign {form : Form} (hreturn : Grammar.returnStmt cs = none) (hnop : Grammar.nopStmt cs = none)
    (h : Grammar.assignStmt cs = some (form, rest)) : form.Spelled := by
  simp only [Grammar.assignStmt, bind_apply, Option.bind_eq_some_iff, pure_apply] at h
  obtain ⟨⟨place, tail⟩, hplace, q, hmark, ⟨source, tail'⟩, hsource, heq⟩ := h
  cases heq
  obtain ⟨tail', rfl, htail⟩ := head_of_place hplace hmark
  exact ⟨yields_place _ _ _ hplace, unshadowed_of_none hreturn hnop htail, yields_source _ _ _ hsource⟩

theorem spelled_of_statement {form : Form} (h : Grammar.statement cs = some (form, rest)) : form.Spelled := by
  have hparam : Yields Grammar.paramDecl Form.Spelled := by
    refine Yields.any.bind fun _ _ => Yields.any.bind fun _ _ => Yields.any.bind fun _ _ => ?_
    exact Yields.any.bind fun _ _ => Yields.any.bind fun _ _ => .pure trivial
  have hif : Yields Grammar.ifStmt Form.Spelled := by
    refine Yields.any.bind fun _ _ => Yields.any.bind fun _ _ => Yields.any.bind fun _ _ => ?_
    exact Yields.any.bind fun _ _ => Yields.any.bind fun _ _ => .pure trivial
  have hswitch : Yields Grammar.switchStmt Form.Spelled := by
    refine Yields.any.bind fun _ _ => Yields.any.bind fun _ _ => Yields.any.bind fun _ _ => ?_
    refine Yields.any.bind fun _ _ => Yields.any.bind fun _ _ => Yields.any.bind fun _ _ => ?_
    refine Yields.any.bind fun _ _ => Yields.any.bind fun _ _ => Yields.any.bind fun _ _ => ?_
    exact Yields.any.bind fun _ _ => .pure trivial
  have hgoto : Yields Grammar.gotoStmt Form.Spelled := Yields.any.map fun _ _ => trivial
  have hnop : Yields Grammar.nopStmt Form.Spelled :=
    Yields.any.bind fun _ _ => Yields.any.bind fun _ _ => .pure trivial
  have hdeclare : Yields Grammar.varDecl Form.Spelled :=
    Yields.any.bind fun _ _ => Yields.any.bind fun _ _ => Yields.any.bind fun _ _ => .pure trivial
  simp only [Grammar.statement, orElse_apply, Option.or_eq_some_iff] at h
  rcases h with h | ⟨-, h | ⟨-, h | ⟨-, h | ⟨-, h | ⟨hreturn, h | ⟨hnop, h | ⟨-, h | ⟨-, h⟩⟩⟩⟩⟩⟩⟩⟩
  · exact hparam _ _ _ h
  · exact hif _ _ _ h
  · exact hswitch _ _ _ h
  · exact hgoto _ _ _ h
  · exact spelled_of_return h
  · exact hnop _ _ _ h
  · exact spelled_of_invoke hreturn hnop h
  · exact spelled_of_assign hreturn hnop h
  · exact hdeclare _ _ _ h

end Dataflow.Reading
