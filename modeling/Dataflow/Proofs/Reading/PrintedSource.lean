import Dataflow.Proofs.Reading.Printing
/-!
# Printed sources are read back

What stands on the right of an assignment is read back from its text (`source_text`): the alternatives that are tried
before the right one fail on it.
-/
namespace Dataflow.Reading

open Reader

variable {α : Type} {cs tail : List Char} {n word : String}

theorem binOp_text (op : BinOp) : Grammar.binOp (op.symbol.toList ++ ' ' :: cs) = some (op, ' ' :: cs) := by
  rcases op with op | op | op | op <;> cases op <;> rfl

/-- What follows the first operand. -/
def operatorText (op : BinOp) (right : Atom) : List Char := ' ' :: (op.symbol.toList ++ ' ' :: right.text.toList)

theorem binary_text (left : Atom) (op : BinOp) (right : Atom) :
    (Source.binary left op right).text.toList = left.text.toList ++ operatorText op right := by
  simp [Source.text, operatorText]

theorem opens_operator (op : BinOp) (right : Atom) : Opens (operatorText op right) := by
  rcases op with op | op | op | op <;> cases op <;> constructor <;> rw [operatorText] <;>
    simp [BinOp.symbol, Grammar.isSpace, Grammar.isNameChar, Grammar.isLetter, Grammar.isDigit]

/-- What is no allocation begins with a name or with no letter. -/
theorem Source.Spelled.begins {x : Source} (hx : x.Spelled) :
    (∃ type, x = .allocate type) ∨ (∃ n tail, IsName n ∧ Opens tail ∧ x.text.toList = n.toList ++ tail) ∨
      ∃ c cs, x.text.toList = c :: cs ∧ Grammar.isLetter c = false ∧ Grammar.isSpace c = false := by
  have hnumeral : ∀ {i : Numeral}, i.Spelled →
      ∃ c cs, i.text.toList = c :: cs ∧ Grammar.isLetter c = false ∧ Grammar.isSpace c = false := by
    intro i hi
    obtain ⟨c, cs, hcs, hc⟩ := hi.exists_cons
    refine ⟨c, cs, hcs, ?_⟩
    rcases hc with rfl | hc
    · decide
    · exact ⟨isLetter_eq_false_of_isDigit hc, isSpace_of_isNameChar (by simp [Grammar.isNameChar, hc])⟩
  cases x with
  | allocate type => exact .inl ⟨type, rfl⟩
  | cast type value =>
    exact .inr (.inr ⟨'(', type.toList ++ ')' :: ' ' :: value.text.toList, by simp [Source.text], rfl, rfl⟩)
  | binary left op right =>
    rw [binary_text]
    cases left with
    | number i =>
      obtain ⟨c, cs, hcs, hc⟩ := hnumeral hx.1
      refine .inr (.inr ⟨c, cs ++ operatorText op right, ?_, hc⟩)
      rw [Atom.text, hcs, List.cons_append]
    | name s => exact .inr (.inl ⟨s, operatorText op right, hx.1, opens_operator op right, rfl⟩)
  | negate name => exact .inr (.inr ⟨'-', name.toList, by simp [Source.text], rfl, rfl⟩)
  | number i => exact .inr (.inr (hnumeral hx))
  | place p =>
    obtain ⟨hn, tail, htext, hopens⟩ := Place.Spelled.begins hx
    refine .inr (.inl ⟨p.head, tail, hn, ?_, htext⟩)
    simpa using hopens opens_nil

theorem Source.Spelled.stops_isSpace {x : Source} (hx : x.Spelled) : Stops Grammar.isSpace x.text.toList := by
  rcases hx.begins with ⟨type, rfl⟩ | ⟨n, tail, hn, -, htext⟩ | ⟨c, cs, hcs, -, hc⟩
  · simp [Source.text, Grammar.isSpace]
  · rw [htext]
    exact Spells.stops_isSpace hn
  · rw [hcs]
    exact stops_cons.2 hc

/-- What demands a blank and a letter after its keyword, fails on a source that does not begin with the keyword. -/
theorem keyword_source_none {x : Source} (hx : x.Spelled) {w : Char} {ws : List Char} (hcons : word.toList = w :: ws)
    (hword : word.toList.all Grammar.isNameChar = true) (hw : Grammar.isLetter w = true)
    (hallocate : ∀ type, x = .allocate type → w ≠ 'n') {f : Reader α}
    (hf : ∀ cs, Stops Grammar.isLetter cs → f cs = none) :
    (do Grammar.keyword word; Grammar.gap; f) x.text.toList = none := by
  rcases hx.begins with ⟨type, rfl⟩ | ⟨n, tail, hn, htail, htext⟩ | ⟨c, cs, hcs, hc, -⟩
  · have htext : (Source.allocate type).text.toList = 'n' :: 'e' :: 'w' :: ' ' :: type.toList := by simp [Source.text]
    rw [htext, bind_apply, keyword_cons_ne hcons (hallocate type rfl).symm, Option.bind_none]
  · rw [htext]
    exact keyword_gap_none hword hn htail hf
  · rw [hcs, bind_apply, keyword_cons_ne hcons (ne_of_isLetter hw hc).symm, Option.bind_none]

theorem newExp_none {x : Source} (hx : x.Spelled) (hallocate : ∀ type, x ≠ .allocate type) :
    Grammar.newExp x.text.toList = none := by
  refine keyword_source_none (w := 'n') hx rfl (by decide) rfl (fun type h => absurd h (hallocate type)) ?_
  intro cs hcs
  simp [bind_apply, Grammar.typeName, run_none hcs]

theorem invokeExp_none {x : Source} (hx : x.Spelled) : Grammar.invokeExp x.text.toList = none := by
  refine keyword_source_none (w := 'i') hx rfl (by decide) rfl (fun _ _ => by decide) fun cs hcs => ?_
  simp [bind_apply, Grammar.methodName, run_none hcs]

/-- What stands after a keyword and a blank is read by what follows them. -/
theorem keyword_gap_text (hcs : Stops Grammar.isSpace cs) {f : Reader α} :
    (do Grammar.keyword word; Grammar.gap; f) (word.toList ++ ' ' :: cs) = f cs := by
  have hkeyword : Grammar.keyword word (word.toList ++ ' ' :: cs) = some ((), ' ' :: cs) :=
    keyword_eq_some_iff.2 ⟨rfl, stops_cons.2 (by decide)⟩
  have hgap : Grammar.gap (' ' :: cs) = some ((), cs) := by
    rw [gap_eq_some_iff, List.dropWhile_cons_of_pos rfl, dropWhile_of_stops hcs]
    simp [Grammar.isSpace]
  rw [bind_apply, hkeyword, Option.bind_some, bind_apply, hgap, Option.bind_some]

theorem IsType.stops_isSpace {type : String} (h : IsType type) : Stops Grammar.isSpace (type.toList ++ tail) := by
  obtain ⟨base, brackets, hbase, rfl⟩ := h
  rw [String.toList_append, List.append_assoc]
  exact hbase.stops_isSpace

theorem newExp_text {type : String} (htype : IsType type) :
    Grammar.newExp (Source.allocate type).text.toList = some (.allocate type, []) := by
  have htext : (Source.allocate type).text.toList = "new".toList ++ ' ' :: (type.toList ++ []) := by simp [Source.text]
  rw [htext, Grammar.newExp, keyword_gap_text htype.stops_isSpace, bind_apply,
    typeName_text htype (stops_nil _) (stops_nil _), Option.bind_some, pure_apply]

theorem castExp_text {type : String} {value : Atom} (htype : IsType type) (hvalue : value.Spelled) :
    Grammar.castExp (Source.cast type value).text.toList = some (.cast type value, []) := by
  have htext : (Source.cast type value).text.toList =
      '(' :: (type.toList ++ ')' :: ' ' :: (value.text.toList ++ [])) := by
    simp [Source.text]
  have hopen : literal "(" ('(' :: (type.toList ++ ')' :: ' ' :: (value.text.toList ++ []))) =
      some ((), type.toList ++ ')' :: ' ' :: (value.text.toList ++ [])) := literal_eq_some_iff.2 rfl
  have htypeName : Grammar.typeName (type.toList ++ ')' :: ' ' :: (value.text.toList ++ [])) =
      some (type, ')' :: ' ' :: (value.text.toList ++ [])) :=
    typeName_text htype (stops_cons.2 rfl) (stops_cons.2 rfl)
  have hclose : Grammar.mark ")" (')' :: ' ' :: (value.text.toList ++ [])) = some ((), value.text.toList ++ []) := by
    rw [mark_cons rfl rfl, List.dropWhile_cons_of_pos rfl, dropWhile_of_stops hvalue.stops_isSpace]
  rw [htext, Grammar.castExp, bind_apply, hopen, Option.bind_some, bind_apply, blanks_apply,
    dropWhile_of_stops htype.stops_isSpace, Option.bind_some, bind_apply, htypeName, Option.bind_some, bind_apply,
    hclose, Option.bind_some, bind_apply, atom_text hvalue (stops_nil _), Option.bind_some, pure_apply]

theorem binaryExp_text {left right : Atom} {op : BinOp} (hleft : left.Spelled) (hright : right.Spelled) :
    Grammar.binaryExp (Source.binary left op right).text.toList = some (.binary left op right, []) := by
  have hop : Grammar.blanks (operatorText op right) = some ((), op.symbol.toList ++ ' ' :: right.text.toList) := by
    rw [blanks_apply, operatorText]
    rcases op with op | op | op | op <;> cases op <;> simp [BinOp.symbol, Grammar.isSpace]
  have hright' : Grammar.atom (right.text.toList ++ []) = some (right, []) := atom_text hright (stops_nil _)
  rw [List.append_nil] at hright'
  have hblank : Grammar.blanks (' ' :: right.text.toList) = some ((), right.text.toList) := by
    have hstops : Stops Grammar.isSpace (right.text.toList ++ []) := hright.stops_isSpace
    rw [List.append_nil] at hstops
    rw [blanks_apply, List.dropWhile_cons_of_pos rfl, dropWhile_of_stops hstops]
  rw [binary_text, Grammar.binaryExp, bind_apply, atom_text hleft (opens_operator op right).name, Option.bind_some,
    bind_apply, hop, Option.bind_some, bind_apply, binOp_text, Option.bind_some, bind_apply, hblank, Option.bind_some,
    bind_apply, hright', Option.bind_some, pure_apply]

theorem castExp_none (h : Stops (· = '(') cs) : Grammar.castExp cs = none := by
  have hopen : literal "(" cs = none := literal_none (c := '(') rfl h
  rw [Grammar.castExp, bind_apply, hopen, Option.bind_none]

/-- An operand that no operator follows. -/
theorem binaryExp_none {a : Atom} (ha : Grammar.atom cs = some (a, tail)) (hspace : Stops Grammar.isSpace tail)
    (hop : Grammar.binOp tail = none) : Grammar.binaryExp cs = none := by
  rw [Grammar.binaryExp, bind_apply, ha, Option.bind_some, bind_apply, blanks_apply, dropWhile_of_stops hspace,
    Option.bind_some, bind_apply, hop, Option.bind_none]

theorem IsName.stops {c : Char} (hn : IsName n) (hc : Grammar.isLetter c = false) :
    Stops (· = c) (n.toList ++ tail) := by
  obtain ⟨d, ds, hds, hd⟩ := hn.exists_cons
  simpa [hds] using ne_of_isLetter hd hc

theorem IsName.stops_isDigit (hn : IsName n) : Stops Grammar.isDigit (n.toList ++ tail) := by
  obtain ⟨c, cs, hcs, hc⟩ := hn.exists_cons
  rw [hcs, List.cons_append, stops_cons, ← Bool.not_eq_true]
  intro hdigit
  simp [isLetter_eq_false_of_isDigit hdigit] at hc

theorem unaryExp_none (h : Stops (· = '-') cs) : Grammar.unaryExp cs = none := by
  have hminus : literal "-" cs = none := literal_none (c := '-') rfl h
  rw [Grammar.unaryExp, bind_apply, hminus, Option.bind_none]

/-- A numeral is no negated name, and begins no place. -/
theorem unaryExp_numeral {i : Numeral} (hi : i.Spelled) : Grammar.unaryExp i.text.toList = none := by
  obtain ⟨d, ds, hds, hd, -⟩ := hi
  have hletter : Grammar.isLetter d = false := isLetter_eq_false_of_isDigit hd
  rw [Numeral.text]
  cases i.negative with
  | false =>
    refine unaryExp_none ?_
    simp only [Bool.false_eq_true, if_false, String.empty_append, hds, stops_cons, decide_eq_false_iff_not]
    rintro rfl
    simp [Grammar.isDigit] at hd
  | true =>
    have htext : ((if true = true then "-" else "") ++ i.digits).toList = '-' :: d :: ds := by simp [hds]
    have hminus : literal "-" ('-' :: d :: ds) = some ((), d :: ds) := literal_eq_some_iff.2 rfl
    have hname : Grammar.name (d :: ds) = none := run_none (stops_cons.2 hletter)
    have hspace : (d :: ds).dropWhile Grammar.isSpace = d :: ds :=
      dropWhile_of_stops (stops_cons.2 (isSpace_of_isNameChar (by simp [Grammar.isNameChar, hd])))
    rw [htext, Grammar.unaryExp, bind_apply, hminus, Option.bind_some, bind_apply, blanks_apply, hspace,
      Option.bind_some, bind_apply, hname, Option.bind_none]

theorem unaryExp_text (hn : IsName n) : Grammar.unaryExp (Source.negate n).text.toList = some (.negate n, []) := by
  have htext : (Source.negate n).text.toList = '-' :: (n.toList ++ []) := by simp [Source.text]
  have hminus : literal "-" ('-' :: (n.toList ++ [])) = some ((), n.toList ++ []) := literal_eq_some_iff.2 rfl
  rw [htext, Grammar.unaryExp, bind_apply, hminus, Option.bind_some, bind_apply, blanks_apply,
    dropWhile_of_stops hn.stops_isSpace, Option.bind_some, bind_apply, name_text hn (stops_nil _), Option.bind_some,
    pure_apply]

/-- A minus sign before a name begins no operand. -/
theorem atom_negate (hn : IsName n) : Grammar.atom (Source.negate n).text.toList = none := by
  have htext : (Source.negate n).text.toList = '-' :: (n.toList ++ []) := by simp [Source.text]
  have hminus : literal "-" ('-' :: (n.toList ++ [])) = some ((), n.toList ++ []) := literal_eq_some_iff.2 rfl
  have hdigit : run Grammar.isDigit Grammar.isDigit (n.toList ++ []) = none := run_none hn.stops_isDigit
  have hnumeral : Grammar.numeral ('-' :: (n.toList ++ [])) = none := by
    rw [Grammar.numeral, bind_apply, optional_apply, hminus]
    simp only [Option.map_some, Option.getD_some, Option.bind_some, bind_apply, hdigit, Option.bind_none]
  have hname : Grammar.name ('-' :: (n.toList ++ [])) = none := run_none (stops_cons.2 rfl)
  rw [htext, Grammar.atom, orElse_apply, map_apply, map_apply, hnumeral, hname]
  rfl

/-- A name that no operator follows begins neither an allocation nor a cast, and is no operand of an operator. -/
theorem source_of_place {p : Place} (hp : p.Spelled) (htail : p.text.toList = p.head.toList ++ tail)
    (hname : Stops Grammar.isNameChar tail) (hspace : Stops Grammar.isSpace tail) (hop : Grammar.binOp tail = none) :
    Grammar.source p.text.toList =
      ((Grammar.element p.text.toList).map fun q => (.place q.1, q.2)).or
        (((Grammar.field p.text.toList).map fun q => (.place q.1, q.2)).or
          ((Grammar.name p.text.toList).map fun q => (.place (.name q.1), q.2))) := by
  have hn : IsName p.head := hp.begins.1
  have hnew : Grammar.newExp p.text.toList = none :=
    newExp_none (x := .place p) hp fun type' h => nomatch h
  have hcast : Grammar.castExp p.text.toList = none := by
    rw [htail]
    exact castExp_none (hn.stops rfl)
  have hbinary : Grammar.binaryExp p.text.toList = none := by
    rw [htail]
    exact binaryExp_none (atom_text (a := .name p.head) hn hname) hspace hop
  have hunary : Grammar.unaryExp p.text.toList = none := by
    rw [htail]
    exact unaryExp_none (hn.stops rfl)
  have hnumeral : Grammar.numeral p.text.toList = none := by
    rw [htail]
    exact numeral_name hn
  simp only [Grammar.source, orElse_apply, map_apply, hnew, hcast, hbinary, hunary, hnumeral, Option.map_none,
    Option.none_or]
  rfl

/-- A numeral that nothing follows is read as a number. -/
theorem source_number {i : Numeral} (hi : i.Spelled) : Grammar.source i.text.toList = some (.number i, []) := by
  have hnew : Grammar.newExp i.text.toList = none := newExp_none (x := .number i) hi fun type h => nomatch h
  obtain ⟨c, cs, hcs, hc⟩ := hi.exists_cons
  have hletter : Grammar.isLetter c = false := by
    rcases hc with rfl | hc
    · rfl
    · exact isLetter_eq_false_of_isDigit hc
  have hname : Grammar.name i.text.toList = none := by
    rw [hcs]
    exact run_none (stops_cons.2 hletter)
  have hcast : Grammar.castExp i.text.toList = none := by
    refine castExp_none ?_
    rw [hcs, stops_cons, decide_eq_false_iff_not]
    rintro rfl
    simp [Grammar.isDigit] at hc
  have hnumeral : Grammar.numeral (i.text.toList ++ []) = some (i, []) := numeral_text hi (stops_nil _)
  have hatom : Grammar.atom (i.text.toList ++ []) = some (.number i, []) :=
    atom_text (a := .number i) hi (stops_nil _)
  rw [List.append_nil] at hnumeral hatom
  have hbinary := binaryExp_none hatom (stops_nil _) rfl
  have helement : Grammar.element i.text.toList = none := by rw [Grammar.element, bind_apply, hname, Option.bind_none]
  have hfield : Grammar.field i.text.toList = none := by rw [Grammar.field, bind_apply, hname, Option.bind_none]
  simp only [Grammar.source, orElse_apply, map_apply, hnew, hcast, hbinary, unaryExp_numeral hi, helement, hfield,
    hnumeral, Option.map_none, Option.map_some, Option.none_or, Option.some_or]

/-- A place that nothing follows is read as what stands there. -/
theorem source_place {p : Place} (hp : p.Spelled) : Grammar.source p.text.toList = some (.place p, []) := by
  cases p with
  | element array index =>
    have htext : (Place.element array index).text.toList =
        array.toList ++ '[' :: (index.text.toList ++ [']']) := by simp [Place.text]
    have helement : Grammar.element ((Place.element array index).text.toList ++ []) =
        some (.element array index, []) := element_text hp.1 hp.2
    rw [List.append_nil] at helement
    rw [source_of_place hp htext (stops_cons.2 rfl) (stops_cons.2 rfl) rfl, helement]
    rfl
  | field base member =>
    have htext : (Place.field base member).text.toList = base.toList ++ '.' :: member.toList := by simp [Place.text]
    have helement : Grammar.element (Place.field base member).text.toList = none := by
      rw [htext]
      exact element_none hp.1 (stops_cons.2 rfl) (by simp [Grammar.isSpace])
    have hfield : Grammar.field ((Place.field base member).text.toList ++ []) = some (.field base member, []) :=
      field_text hp.1 hp.2 (stops_nil _)
    rw [List.append_nil] at hfield
    rw [source_of_place hp htext (stops_cons.2 rfl) (stops_cons.2 rfl) rfl, helement, hfield]
    rfl
  | name s =>
    have htext : (Place.name s).text.toList = s.toList ++ [] := by simp [Place.text]
    have helement : Grammar.element (Place.name s).text.toList = none := by
      rw [htext]
      exact element_none hp (stops_nil _) (stops_nil _)
    have hfield : Grammar.field (Place.name s).text.toList = none := by
      rw [htext]
      exact field_none hp (stops_nil _) (stops_nil _)
    have hname : Grammar.name (Place.name s).text.toList = some (s, []) := by
      rw [htext]
      exact name_text hp (stops_nil _)
    rw [source_of_place hp htext (stops_nil _) (stops_nil _) rfl, helement, hfield, hname]
    rfl

/-- A source in print is read back, by the first alternative that succeeds on it. -/
theorem source_text {x : Source} (hx : x.Spelled) : Grammar.source x.text.toList = some (x, []) := by
  cases x with
  | allocate type => simp only [Grammar.source, orElse_apply, newExp_text hx, Option.some_or]
  | cast type value =>
    have hnew := newExp_none hx fun type' h => nomatch h
    simp only [Grammar.source, orElse_apply, hnew, castExp_text hx.1 hx.2, Option.none_or, Option.some_or]
  | binary left op right =>
    have hnew := newExp_none hx fun type' h => nomatch h
    have hcast : Grammar.castExp (Source.binary left op right).text.toList = none := by
      refine castExp_none ?_
      obtain ⟨c, cs, hcs, hc⟩ := hx.1.exists_cons
      rw [binary_text, hcs, List.cons_append, stops_cons, decide_eq_false_iff_not]
      rintro rfl
      rcases hc with hc | hc
      · cases hc
      · cases hc
    simp only [Grammar.source, orElse_apply, hnew, hcast, binaryExp_text hx.1 hx.2, Option.none_or, Option.some_or]
  | negate name =>
    have hnew := newExp_none hx fun type' h => nomatch h
    have hcast : Grammar.castExp (Source.negate name).text.toList = none :=
      castExp_none (by simp [Source.text])
    have hbinary : Grammar.binaryExp (Source.negate name).text.toList = none := by
      rw [Grammar.binaryExp, bind_apply, atom_negate hx, Option.bind_none]
    simp only [Grammar.source, orElse_apply, hnew, hcast, hbinary, unaryExp_text hx, Option.none_or, Option.some_or]
  | number i => exact source_number hx
  | place p => exact source_place hx

end Dataflow.Reading
