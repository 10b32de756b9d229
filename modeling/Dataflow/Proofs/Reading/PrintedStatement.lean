import Dataflow.Proofs.Reading.PrintedSource
/-!
# Printed forms are read back

The text of a form that neither declares nor jumps is read back as the form (`statement_text`). Most begin with a name:
the statements that begin with a keyword fail on it, unless the name is shadowed by a keyword that is a statement by
itself (`statement_of_unshadowed`).
-/
namespace Dataflow.Reading

open Reader

variable {α : Type} {cs tail : List Char} {n word : String}

/-! ## Statements that begin with a name -/

theorem keyword_none_of_not_shadows (hword : word.toList.all Grammar.isNameChar = true) (hn : IsName n)
    (htail : Stops Grammar.isNameChar tail) (h : ¬ Shadows word n) :
    Grammar.keyword word (n.toList ++ tail) = none := by
  rw [Option.eq_none_iff_forall_ne_some]
  rintro ⟨u, rest⟩ hkeyword
  rcases (keyword_name_iff hword hn.forall_mem htail).1 hkeyword with ⟨hn', -⟩ | ⟨ds, hds, -⟩
  · exact h (.inl hn')
  · exact h (.inr ⟨ds, hds⟩)

/-- What does not go on with a blank and a letter, an opening parenthesis or a colon after a name is none of the
statements that demand one of these. -/
theorem statement_of_name (hn : IsName n) (htail : Opens tail) :
    Grammar.statement (n.toList ++ tail) = (Grammar.returnStmt (n.toList ++ tail)).or
      ((Grammar.nopStmt (n.toList ++ tail)).or ((Grammar.invokeStmt (n.toList ++ tail)).or
        ((Grammar.assignStmt (n.toList ++ tail)).or (Grammar.varDecl (n.toList ++ tail))))) := by
  have hparam : Grammar.paramDecl (n.toList ++ tail) = none := by
    refine keyword_gap_none (by decide) hn htail fun cs hcs => ?_
    simp [bind_apply, Grammar.typeName, run_none hcs]
  have hif : Grammar.ifStmt (n.toList ++ tail) = none := keyword_open_none (by decide) hn htail
  have hswitch : Grammar.switchStmt (n.toList ++ tail) = none := keyword_open_none (by decide) hn htail
  have hgoto : Grammar.gotoStmt (n.toList ++ tail) = none := by
    rw [Grammar.gotoStmt, map_apply, Option.map_eq_none_iff]
    exact keyword_gap_none (by decide) hn htail fun cs hcs => run_none hcs
  simp only [Grammar.statement, orElse_apply, hparam, hif, hswitch, hgoto, Option.none_or]

theorem returnStmt_of_not_shadows (hn : IsName n) (htail : Stops Grammar.isNameChar tail) (h : ¬ Shadows "return" n) :
    Grammar.returnStmt (n.toList ++ tail) = none := by
  rw [Grammar.returnStmt, bind_apply, keyword_none_of_not_shadows (by decide) hn htail h, Option.bind_none]

theorem nopStmt_of_not_shadows (hn : IsName n) (htail : Stops Grammar.isNameChar tail) (h : ¬ Shadows "nop" n) :
    Grammar.nopStmt (n.toList ++ tail) = none := by
  rw [Grammar.nopStmt, bind_apply, keyword_none_of_not_shadows (by decide) hn htail h, Option.bind_none]

/-- A name that makes no statement by itself begins a call with a result, an assignment or a declaration. -/
theorem statement_of_unshadowed (hn : IsName n) (h : Unshadowed n) (htail : Opens tail) :
    Grammar.statement (n.toList ++ tail) = (Grammar.invokeStmt (n.toList ++ tail)).or
      ((Grammar.assignStmt (n.toList ++ tail)).or (Grammar.varDecl (n.toList ++ tail))) := by
  rw [statement_of_name hn htail, returnStmt_of_not_shadows hn htail.name h.1, nopStmt_of_not_shadows hn htail.name h.2,
    Option.none_or, Option.none_or]

/-! ## Calls -/

/-- Every argument but the first stands after a comma. -/
theorem toList_intercalate_args (a : Atom) (as : List Atom) :
    (", ".intercalate ((a :: as).map Atom.text)).toList =
      a.text.toList ++ as.flatMap fun b => ',' :: ' ' :: b.text.toList := by
  induction as generalizing a with
  | nil => simp
  | cons b bs ih =>
    rw [List.map_cons, List.map_cons, String.intercalate_cons_cons, ← List.map_cons, String.toList_append, ih b]
    simp

theorem argList_text {a : Atom} {as : List Atom} (ha : a.Spelled) (has : ∀ b ∈ as, b.Spelled) :
    Grammar.argList ((", ".intercalate ((a :: as).map Atom.text)).toList ++ ')' :: tail) =
      some (a :: as, ')' :: tail) := by
  have hcomma : ∀ {b : Atom} {rest : List Char}, b.Spelled →
      Grammar.mark "," (',' :: ' ' :: b.text.toList ++ rest) = some ((), b.text.toList ++ rest) := by
    intro b rest hb
    rw [List.cons_append, mark_cons rfl rfl, List.cons_append, List.dropWhile_cons_of_pos rfl,
      dropWhile_of_stops hb.stops_isSpace]
  have hend : (do Grammar.mark ","; Grammar.atom) (')' :: tail) = none := by
    have hmark : Grammar.mark "," (')' :: tail) = none :=
      mark_none (c := ',') rfl (by rw [dropWhile_of_stops (stops_cons.2 rfl)]; exact stops_cons.2 rfl)
    rw [bind_apply, hmark, Option.bind_none]
  have hrest : many (do Grammar.mark ","; Grammar.atom)
      ((as.flatMap fun b => ',' :: ' ' :: b.text.toList) ++ ')' :: tail) =
      (as, ')' :: tail) := by
    refine many_texts (F := Stops Grammar.isNameChar) ?_ (fun b _ => by simp) ?_ (stops_cons.2 rfl) hend
    · intro b hb rest hrest
      rw [bind_apply, hcomma (has b hb), Option.bind_some, atom_text (has b hb) hrest]
    · intro b _ rest
      exact stops_cons.2 rfl
  have hfirst : Stops Grammar.isNameChar ((as.flatMap fun b => ',' :: ' ' :: b.text.toList) ++ ')' :: tail) := by
    cases as with
    | nil => exact stops_cons.2 rfl
    | cons b bs => exact stops_cons.2 rfl
  rw [toList_intercalate_args, List.append_assoc, Grammar.argList, separated, bind_apply, atom_text ha hfirst,
    Option.bind_some, bind_apply, Reader.star, hrest]
  rfl

theorem invokeExp_text {method : String} {args : List Atom} (hmethod : IsMethod method)
    (hargs : ∀ a ∈ args, a.Spelled) :
    Grammar.invokeExp (callText method args).toList = some ((method, args), []) := by
  have htext : (callText method args).toList = "invoke".toList ++ ' ' ::
      (method.toList ++ '(' :: ((", ".intercalate (args.map Atom.text)).toList ++ [')'])) := by simp [callText]
  have hname : Grammar.methodName (method.toList ++ '(' :: ((", ".intercalate (args.map Atom.text)).toList ++ [')'])) =
      some (method, '(' :: ((", ".intercalate (args.map Atom.text)).toList ++ [')'])) :=
    run_eq_some_iff.2 ⟨hmethod, rfl, stops_cons.2 rfl⟩
  have hclose : literal ")" [')'] = some ((), []) := literal_eq_some_iff.2 rfl
  rw [htext, Grammar.invokeExp, keyword_gap_text hmethod.stops_isSpace, bind_apply, hname, Option.bind_some, bind_apply,
    mark_cons rfl rfl, Option.bind_some, bind_apply, optional_apply]
  cases args with
  | nil =>
    have hnone : Grammar.argList [')'] = none := by decide
    simp [Grammar.isSpace, hnone, bind_apply, blanks_apply, hclose, map_apply]
  | cons a as =>
    obtain ⟨ha, has⟩ := List.forall_mem_cons.1 hargs
    have hspace : Stops Grammar.isSpace ((", ".intercalate ((a :: as).map Atom.text)).toList ++ [')']) := by
      rw [toList_intercalate_args, List.append_assoc]
      exact ha.stops_isSpace
    rw [dropWhile_of_stops hspace, argList_text ha has]
    simp [Grammar.isSpace, bind_apply, blanks_apply, hclose, map_apply]

/-! ## Statements -/

theorem invokeResult_text (hn : IsName n) :
    Grammar.invokeResult (n.toList ++ (" = ".toList ++ cs)) = some (n, cs.dropWhile Grammar.isSpace) := by
  rw [Grammar.invokeResult, seqLeft_apply, name_text hn opens_equals.name, Option.bind_some, mark_equals]
  rfl

/-- After a name and an equality sign there is a call, or else a source. -/
theorem statement_bound (hn : IsName n) (h : Unshadowed n) :
    Grammar.statement (n.toList ++ (" = ".toList ++ cs)) =
      ((Grammar.invokeExp (cs.dropWhile Grammar.isSpace)).map fun p => (.invoke (some n) p.1.1 p.1.2, p.2)).or
        ((Grammar.source (cs.dropWhile Grammar.isSpace)).map fun p => (.assign (.name n) p.1, p.2)) := by
  have hname : Grammar.name (n.toList ++ (" = ".toList ++ cs)) = some (n, " = ".toList ++ cs) :=
    name_text hn opens_equals.name
  have hinvoke : Grammar.invokeStmt (n.toList ++ (" = ".toList ++ cs)) =
      (Grammar.invokeExp (cs.dropWhile Grammar.isSpace)).map fun p => (.invoke (some n) p.1.1 p.1.2, p.2) := by
    rw [Grammar.invokeStmt, bind_apply, optional_apply, invokeResult_text hn]
    exact map_apply (fun p : String × List Atom => Form.invoke (some n) p.1 p.2) _ _
  have helement : Grammar.element (n.toList ++ (" = ".toList ++ cs)) = none :=
    element_none hn opens_equals.name (by simp [Grammar.isSpace])
  have hfield : Grammar.field (n.toList ++ (" = ".toList ++ cs)) = none :=
    field_none hn opens_equals.name (by simp)
  have hassign : Grammar.assignStmt (n.toList ++ (" = ".toList ++ cs)) =
      (Grammar.source (cs.dropWhile Grammar.isSpace)).map fun p => (.assign (.name n) p.1, p.2) := by
    rw [Grammar.assignStmt, bind_apply, Grammar.place, orElse_apply, orElse_apply, map_apply, helement, hfield, hname,
      Option.none_or, Option.none_or, Option.map_some, Option.bind_some, bind_apply, mark_equals, Option.bind_some]
    exact map_apply (Form.assign (.name n)) _ _
  have hdeclare : Grammar.varDecl (n.toList ++ (" = ".toList ++ cs)) = none := by
    have htype : Grammar.typeName (n.toList ++ (" = ".toList ++ cs)) = some (n, " = ".toList ++ cs) := by
      refine typeName_text ⟨n, [], Spells.mono hn (fun _ h => h) (fun _ h => by simp [h]), by simp⟩ ?_ ?_
      · simp [Grammar.isNameChar, Grammar.isLetter, Grammar.isDigit]
      · simp
    have hgap : Grammar.gap (" = ".toList ++ cs) = some ((), '=' :: ' ' :: cs) := by
      rw [gap_eq_some_iff]
      simp [Grammar.isSpace]
    have hnames : Grammar.nameList ('=' :: ' ' :: cs) = none := by
      rw [Grammar.nameList, separated, bind_apply, Grammar.name, run_none (stops_cons.2 rfl), Option.bind_none]
    rw [Grammar.varDecl, bind_apply, htype, Option.bind_some, bind_apply, hgap, Option.bind_some, bind_apply, hnames,
      Option.bind_none]
  rw [statement_of_unshadowed hn h opens_equals, hinvoke, hassign, hdeclare, Option.or_none]

/-- A place that is no name is assigned to, and begins no call. -/
theorem statement_stored {p : Place} {x : Source} (hp : p.Spelled) (h : Unshadowed p.head) {c : Char}
    (htext : p.text.toList = p.head.toList ++ c :: tail) (hname : Grammar.isNameChar c = false)
    (hspace : Grammar.isSpace c = false) (hparenthesis : c ≠ '(') (hcolon : c ≠ ':') (hequals : c ≠ '=')
    (hplace : ∀ cs, Stops Grammar.isNameChar cs → Grammar.place (p.text.toList ++ cs) = some (p, cs)) (hx : x.Spelled) :
    Grammar.statement (p.text.toList ++ (" = ".toList ++ x.text.toList)) = some (.assign p x, []) := by
  have hn : IsName p.head := hp.begins.1
  have hopens : Opens (c :: (tail ++ (" = ".toList ++ x.text.toList))) := opens_cons hname hspace hparenthesis hcolon
  have hcs : p.text.toList ++ (" = ".toList ++ x.text.toList) =
      p.head.toList ++ c :: (tail ++ (" = ".toList ++ x.text.toList)) := by
    rw [htext, List.append_assoc, List.cons_append]
  have hresult : Grammar.invokeResult (p.head.toList ++ c :: (tail ++ (" = ".toList ++ x.text.toList))) = none := by
    have hmark : Grammar.mark "=" (c :: (tail ++ (" = ".toList ++ x.text.toList))) = none := by
      refine mark_none (c := '=') rfl ?_
      rw [dropWhile_of_stops (stops_cons.2 hspace)]
      simpa using hequals
    rw [Grammar.invokeResult, seqLeft_apply, name_text hn hopens.name, Option.bind_some, hmark, Option.map_none]
  have hcall : Grammar.invokeExp (p.head.toList ++ c :: (tail ++ (" = ".toList ++ x.text.toList))) = none := by
    refine keyword_gap_none (by decide) hn hopens fun cs hcs => ?_
    rw [bind_apply, Grammar.methodName, run_none hcs, Option.bind_none]
  have hinvoke : Grammar.invokeStmt (p.head.toList ++ c :: (tail ++ (" = ".toList ++ x.text.toList))) = none := by
    rw [Grammar.invokeStmt, bind_apply, optional_apply, hresult, Option.bind_some, bind_apply]
    simp only [Option.map_none, Option.getD_none, hcall, Option.bind_none]
  have hassign : Grammar.assignStmt (p.head.toList ++ c :: (tail ++ (" = ".toList ++ x.text.toList))) =
      some (.assign p x, []) := by
    rw [← hcs, Grammar.assignStmt, bind_apply, hplace _ opens_equals.name, Option.bind_some, bind_apply, mark_equals,
      Option.bind_some, dropWhile_of_stops hx.stops_isSpace, bind_apply, source_text hx, Option.bind_some, pure_apply]
  rw [hcs, statement_of_unshadowed hn h hopens, hinvoke, hassign, Option.none_or, Option.some_or]

theorem place_element {array : String} {index : Atom} (h : (Place.element array index).Spelled) (cs : List Char) :
    Grammar.place ((Place.element array index).text.toList ++ cs) = some (.element array index, cs) := by
  rw [Grammar.place, orElse_apply, element_text h.1 h.2, Option.some_or]

theorem place_field {base member : String} (h : (Place.field base member).Spelled)
    (htail : Stops Grammar.isNameChar tail) :
    Grammar.place ((Place.field base member).text.toList ++ tail) = some (.field base member, tail) := by
  have htext : (Place.field base member).text.toList ++ tail = base.toList ++ '.' :: (member.toList ++ tail) := by
    simp [Place.text]
  have helement : Grammar.element ((Place.field base member).text.toList ++ tail) = none := by
    rw [htext]
    exact element_none h.1 (stops_cons.2 rfl) (by simp [Grammar.isSpace])
  rw [Grammar.place, orElse_apply, orElse_apply, helement, field_text h.1 h.2 htail, Option.none_or, Option.some_or]

/-- An assignment in print is read back. -/
theorem assign_text {p : Place} {x : Source} (hp : p.Spelled) (h : Unshadowed p.head) (hx : x.Spelled) :
    Grammar.statement (p.text ++ " = " ++ x.text).toList = some (.assign p x, []) := by
  have htext : (p.text ++ " = " ++ x.text).toList = p.text.toList ++ (" = ".toList ++ x.text.toList) := by simp
  rw [htext]
  cases p with
  | element array index =>
    have hcons : (Place.element array index).text.toList = array.toList ++ '[' :: (index.text.toList ++ [']']) := by
      simp [Place.text]
    exact statement_stored hp h hcons rfl rfl (by decide) (by decide) (by decide) (fun cs _ => place_element hp cs) hx
  | field base member =>
    have hcons : (Place.field base member).text.toList = base.toList ++ '.' :: member.toList := by simp [Place.text]
    exact statement_stored hp h hcons rfl rfl (by decide) (by decide) (by decide) (fun cs hcs => place_field hp hcs) hx
  | name s =>
    rw [Place.text, statement_bound hp h, dropWhile_of_stops hx.stops_isSpace, invokeExp_none hx, source_text hx]
    rfl

/-- The first letter tells what does not begin with a name. -/
theorem statement_cons {c : Char} (hp : c ≠ 'p') (hs : c ≠ 's') (hg : c ≠ 'g') :
    Grammar.statement (c :: cs) = (Grammar.ifStmt (c :: cs)).or ((Grammar.returnStmt (c :: cs)).or
      ((Grammar.nopStmt (c :: cs)).or ((Grammar.invokeStmt (c :: cs)).or
        ((Grammar.assignStmt (c :: cs)).or (Grammar.varDecl (c :: cs)))))) := by
  have hparam : Grammar.paramDecl (c :: cs) = none := by
    rw [Grammar.paramDecl, bind_apply, keyword_cons_ne (w := 'p') rfl hp, Option.bind_none]
  have hswitch : Grammar.switchStmt (c :: cs) = none := by
    rw [Grammar.switchStmt, bind_apply, keyword_cons_ne (w := 's') rfl hs, Option.bind_none]
  have hgoto : Grammar.gotoStmt (c :: cs) = none := by
    rw [Grammar.gotoStmt, map_apply, Grammar.jump, bind_apply, keyword_cons_ne (w := 'g') rfl hg, Option.bind_none,
      Option.map_none]
  simp only [Grammar.statement, orElse_apply, hparam, hswitch, hgoto, Option.none_or]

theorem ifStmt_none {c : Char} (h : Grammar.keyword "if" (c :: cs) = none) : Grammar.ifStmt (c :: cs) = none := by
  rw [Grammar.ifStmt, bind_apply, h, Option.bind_none]

theorem returnStmt_none {c : Char} (h : c ≠ 'r') : Grammar.returnStmt (c :: cs) = none := by
  rw [Grammar.returnStmt, bind_apply, keyword_cons_ne (w := 'r') rfl h, Option.bind_none]

theorem nopStmt_none {c : Char} (h : c ≠ 'n') : Grammar.nopStmt (c :: cs) = none := by
  rw [Grammar.nopStmt, bind_apply, keyword_cons_ne (w := 'n') rfl h, Option.bind_none]

theorem return_text {value : Option Atom} (h : ∀ a ∈ value, a.Spelled) :
    Grammar.statement ("return".toList ++ value.elim [] fun a => ' ' :: a.text.toList) = some (.return value, []) := by
  have hif : Grammar.ifStmt ("return".toList ++ value.elim [] fun a => ' ' :: a.text.toList) = none :=
    ifStmt_none (keyword_cons_ne (w := 'i') rfl (by decide))
  have hreturn : Grammar.returnStmt ("return".toList ++ value.elim [] fun a => ' ' :: a.text.toList) =
      some (.return value, []) := by
    have hstops : Stops Text.isWordChar (value.elim [] fun a => ' ' :: a.text.toList) := by
      cases value with
      | none => exact stops_nil _
      | some a => exact stops_cons.2 (by decide)
    have hkeyword : Grammar.keyword "return" ("return".toList ++ value.elim [] fun a => ' ' :: a.text.toList) =
        some ((), value.elim [] fun a => ' ' :: a.text.toList) := keyword_eq_some_iff.2 ⟨rfl, hstops⟩
    rw [Grammar.returnStmt, bind_apply, hkeyword, Option.bind_some, bind_apply, optional_apply]
    cases value with
    | none => rfl
    | some a =>
      have ha : a.Spelled := h a rfl
      have hstops : Stops Grammar.isSpace (a.text.toList ++ []) := ha.stops_isSpace
      have hgap : Grammar.gap (' ' :: a.text.toList) = some ((), a.text.toList ++ []) := by
        rw [gap_eq_some_iff, List.dropWhile_cons_of_pos rfl, ← List.append_nil a.text.toList, dropWhile_of_stops hstops]
        simp [Grammar.isSpace]
      have hvalue : Grammar.returnValue (' ' :: a.text.toList) = some (a, []) := by
        rw [Grammar.returnValue, seqRight_apply, hgap, Option.bind_some, atom_text ha (stops_nil _)]
      rw [Option.elim_some, hvalue]
      rfl
  have hcons : "return".toList ++ (value.elim [] fun a => ' ' :: a.text.toList) =
      'r' :: (['e', 't', 'u', 'r', 'n'] ++ value.elim [] fun a => ' ' :: a.text.toList) := rfl
  rw [hcons] at hif hreturn ⊢
  rw [statement_cons (by decide) (by decide) (by decide), hif, hreturn, Option.none_or, Option.some_or]

/-- A call without a result is read back: no other statement begins with its keyword, and no result does. -/
theorem call_text {method : String} {args : List Atom} (hmethod : IsMethod method) (hargs : ∀ a ∈ args, a.Spelled) :
    Grammar.statement (callText method args).toList = some (.invoke none method args, []) := by
  have hcall := invokeExp_text hmethod hargs
  obtain ⟨tail, htext⟩ : ∃ tail, (callText method args).toList = "invoke".toList ++ ' ' :: (method.toList ++ tail) :=
    ⟨'(' :: ((", ".intercalate (args.map Atom.text)).toList ++ [')']), by simp [callText]⟩
  rw [htext] at hcall ⊢
  have hresult : Grammar.invokeResult ("invoke".toList ++ ' ' :: (method.toList ++ tail)) = none := by
    have hname : IsName "invoke" := isName_of_name (by decide)
    have hmark : Grammar.mark "=" (' ' :: (method.toList ++ tail)) = none := by
      refine mark_none (c := '=') rfl ?_
      rw [List.dropWhile_cons_of_pos rfl, dropWhile_of_stops hmethod.stops_isSpace]
      obtain ⟨c, cs, hcs, hc, -⟩ := hmethod
      simpa [hcs] using ne_of_isLetter (d := '=') hc rfl
    rw [Grammar.invokeResult, seqLeft_apply, name_text hname (stops_cons.2 rfl), Option.bind_some, hmark,
      Option.map_none]
  have hinvoke : Grammar.invokeStmt ("invoke".toList ++ ' ' :: (method.toList ++ tail)) =
      some (.invoke none method args, []) := by
    rw [Grammar.invokeStmt, bind_apply, optional_apply, hresult, Option.bind_some, bind_apply]
    simp only [Option.map_none, Option.getD_none, hcall, Option.bind_some, pure_apply]
  have hif : Grammar.keyword "if" ("invoke".toList ++ ' ' :: (method.toList ++ tail)) = none := rfl
  have hcons : "invoke".toList ++ ' ' :: (method.toList ++ tail) =
      'i' :: (['n', 'v', 'o', 'k', 'e'] ++ ' ' :: (method.toList ++ tail)) := rfl
  rw [hcons] at hif hinvoke ⊢
  rw [statement_cons (by decide) (by decide) (by decide), ifStmt_none hif, returnStmt_none (by decide),
    nopStmt_none (by decide), hinvoke, Option.none_or, Option.none_or, Option.none_or, Option.some_or]

/-- The text of a form that neither declares nor jumps is read back as the form. -/
theorem statement_text {form : Form} (hform : form.Spelled) {t : String} (ht : form.text? = some t) :
    Grammar.statement t.toList = some (form, []) := by
  cases form with
  | «return» value =>
    have hvalue : t.toList = "return".toList ++ value.elim [] fun a => ' ' :: a.text.toList := by
      cases value with
      | none =>
        cases ht
        rfl
      | some a =>
        cases ht
        simp
    rw [hvalue]
    exact return_text hform
  | nop =>
    cases ht
    rfl
  | invoke result method args =>
    obtain ⟨hresult, hmethod, hargs⟩ := hform
    cases result with
    | none =>
      cases ht
      exact call_text hmethod hargs
    | some n =>
      cases ht
      obtain ⟨hn, hunshadowed⟩ := hresult n rfl
      have htext : (n ++ " = " ++ callText method args).toList =
          n.toList ++ (" = ".toList ++ (callText method args).toList) := by simp
      have hspace : Stops Grammar.isSpace (callText method args).toList := by simp [callText, Grammar.isSpace]
      rw [htext, statement_bound hn hunshadowed, dropWhile_of_stops hspace, invokeExp_text hmethod hargs]
      rfl
  | assign place source =>
    cases ht
    exact assign_text hform.1 hform.2.1 hform.2.2
  | param | declare | branch | goto | switch => cases ht

end Dataflow.Reading
