import Dataflow.Proofs.Reading.Spelling
/-!
# Printed words and places are read back

A form that neither declares nor jumps has a text in one layout. Its names, numerals, operands and places are read back
wherever nothing follows that would go on with them. A keyword that is tried before a name fails at the first character
that the layout puts after the name, as it is not what the keyword demands (`Opens`).
-/
namespace Dataflow.Reading

open Reader

variable {α : Type} {cs tail : List Char} {n word : String}

/-! ## Texts -/

def Atom.text : Atom → String
  | number n => n.text
  | name s => s

def Place.text : Place → String
  | element array index => array ++ "[" ++ index.text ++ "]"
  | field base member => base ++ "." ++ member
  | name s => s

def Source.text : Source → String
  | allocate type => "new " ++ type
  | cast type value => "(" ++ type ++ ") " ++ value.text
  | binary left op right => left.text ++ " " ++ op.symbol ++ " " ++ right.text
  | negate name => "-" ++ name
  | number n => n.text
  | place p => p.text

def callText (method : String) (args : List Atom) : String :=
  "invoke " ++ method ++ "(" ++ ", ".intercalate (args.map Atom.text) ++ ")"

/-- The text of a form that neither declares nor jumps. -/
def Form.text? : Form → Option String
  | .return none => some "return"
  | .return (some value) => some ("return " ++ value.text)
  | nop => some "nop"
  | invoke none method args => some (callText method args)
  | invoke (some result) method args => some (result ++ " = " ++ callText method args)
  | assign place source => some (place.text ++ " = " ++ source.text)
  | _ => none

/-! ## Where readers fail -/

theorem run_none {first next : Char → Bool} (h : Stops first cs) : run first next cs = none := by
  cases cs with
  | nil => rfl
  | cons c cs =>
    rw [stops_cons] at h
    simp [run, h]

theorem literal_none {c : Char} (hword : word.toList = [c]) (h : Stops (· = c) cs) : literal word cs = none := by
  cases cs with
  | nil => simp [literal, hword, strip?]
  | cons d cs =>
    rw [stops_cons, decide_eq_false_iff_not] at h
    exact literal_cons_ne hword h

theorem mark_none {c : Char} (hword : word.toList = [c]) (h : Stops (· = c) (cs.dropWhile Grammar.isSpace)) :
    Grammar.mark word cs = none := by
  rw [mark_apply, Option.map_eq_none_iff, literal_none hword h]

theorem keyword_cons_ne {w c : Char} {ws : List Char} (hword : word.toList = w :: ws) (hc : c ≠ w) :
    Grammar.keyword word (c :: cs) = none := by
  simp [Grammar.keyword, literal_cons_ne hword hc]

theorem IsName.forall_mem (hn : IsName n) : ∀ c ∈ n.toList, Grammar.isNameChar c = true :=
  Spells.forall_mem hn fun _ => isNameChar_of_isLetter

theorem IsName.exists_cons (hn : IsName n) : ∃ c cs, n.toList = c :: cs ∧ Grammar.isLetter c = true := by
  obtain ⟨c, cs, hcs, hc, -⟩ := hn
  exact ⟨c, cs, hcs, hc⟩

/-- After a name and blanks there is no letter, no opening parenthesis and no colon. -/
structure Opens (tail : List Char) : Prop where
  name : Stops Grammar.isNameChar tail
  letter : Stops Grammar.isLetter (tail.dropWhile Grammar.isSpace)
  parenthesis : Stops (· = '(') (tail.dropWhile Grammar.isSpace)
  colon : Stops (· = ':') (tail.dropWhile Grammar.isSpace)

section
variable (hword : word.toList.all Grammar.isNameChar = true) (hn : IsName n)

include hword hn in
/-- What demands a blank and a letter after its keyword, fails on a name that they do not follow. -/
theorem keyword_gap_none (htail : Opens tail) {f : Reader α} (hf : ∀ cs, Stops Grammar.isLetter cs → f cs = none) :
    (do Grammar.keyword word; Grammar.gap; f) (n.toList ++ tail) = none := by
  rw [bind_apply, Option.bind_eq_none_iff]
  rintro ⟨u, rest⟩ hkeyword
  rw [bind_apply, Option.bind_eq_none_iff]
  rintro ⟨v, rest'⟩ hgap
  obtain ⟨hspace, rfl⟩ := gap_eq_some_iff.1 hgap
  rcases (keyword_name_iff hword hn.forall_mem htail.name).1 hkeyword with ⟨-, rfl, -⟩ | ⟨ds, -, rfl⟩
  · exact hf _ htail.letter
  · exact absurd (by simp [Grammar.isSpace]) hspace

include hword hn in
/-- What demands a parenthesis after its keyword, fails on a name that none follows. -/
theorem keyword_open_none (htail : Opens tail) {f : Reader α} :
    (do Grammar.keyword word; Grammar.mark "("; f) (n.toList ++ tail) = none := by
  rw [bind_apply, Option.bind_eq_none_iff]
  rintro ⟨u, rest⟩ hkeyword
  rw [bind_apply]
  rcases (keyword_name_iff hword hn.forall_mem htail.name).1 hkeyword with ⟨-, rfl, -⟩ | ⟨ds, -, rfl⟩
  · rw [mark_none rfl htail.parenthesis, Option.bind_none]
  · rw [mark_none (c := '(') rfl (by simp [Grammar.isSpace]), Option.bind_none]

end

/-! ## Tokens -/

theorem name_text (hn : IsName n) (htail : Stops Grammar.isNameChar tail) :
    Grammar.name (n.toList ++ tail) = some (n, tail) :=
  name_eq_some_iff.2 ⟨hn, rfl, htail⟩

theorem ne_of_isLetter {c d : Char} (hc : Grammar.isLetter c = true) (hd : Grammar.isLetter d = false) : c ≠ d := by
  rintro rfl
  simp [hc] at hd

theorem isLetter_eq_false_of_isDigit {c : Char} (h : Grammar.isDigit c = true) : Grammar.isLetter c = false := by
  have hcode : ∀ d : Char, c ≤ d ↔ c.toNat ≤ d.toNat := fun _ => Iff.rfl
  have hcode' : ∀ d : Char, d ≤ c ↔ d.toNat ≤ c.toNat := fun _ => Iff.rfl
  have ha : 'a'.toNat = 0x61 := rfl
  have hA : 'A'.toNat = 0x41 := rfl
  have h9 : '9'.toNat = 0x39 := rfl
  have hunderscore : c = '_' → c.toNat = 0x5F := by rintro rfl; rfl
  have hdollar : c = '$' → c.toNat = 0x24 := by rintro rfl; rfl
  have h0 : '0'.toNat = 0x30 := rfl
  simp only [Grammar.isDigit, Bool.and_eq_true, decide_eq_true_eq, hcode, hcode'] at h
  simp only [Grammar.isLetter, Bool.or_eq_false_iff, Bool.and_eq_false_iff, decide_eq_false_iff_not, hcode, hcode']
  grind

/-- What a numeral begins with. -/
theorem Numeral.Spelled.exists_cons {i : Numeral} (hi : i.Spelled) :
    ∃ c cs, i.text.toList = c :: cs ∧ (c = '-' ∨ Grammar.isDigit c = true) := by
  obtain ⟨d, ds, hds, hd, -⟩ := hi
  rw [Numeral.text]
  cases i.negative with
  | false => exact ⟨d, ds, by simpa using hds, .inr hd⟩
  | true => exact ⟨'-', i.digits.toList, by simp, .inl rfl⟩

theorem numeral_text {i : Numeral} (hi : i.Spelled) (htail : Stops Grammar.isDigit tail) :
    Grammar.numeral (i.text.toList ++ tail) = some (i, tail) := by
  obtain ⟨negative, digits⟩ := i
  have hdigits : run Grammar.isDigit Grammar.isDigit (digits.toList ++ tail) = some (digits, tail) :=
    run_eq_some_iff.2 ⟨hi, rfl, htail⟩
  have hminus : literal "-" (digits.toList ++ tail) = none := by
    obtain ⟨d, ds, hds, hd, -⟩ := hi
    have hds : digits.toList = d :: ds := hds
    refine literal_none (c := '-') rfl ?_
    rw [hds, List.cons_append, stops_cons, decide_eq_false_iff_not]
    rintro rfl
    simp [Grammar.isDigit] at hd
  cases negative with
  | false =>
    have htext : (Numeral.text ⟨false, digits⟩).toList = digits.toList := by simp [Numeral.text]
    simp [Grammar.numeral, bind_apply, optional_apply, map_apply, htext, hminus, hdigits]
  | true =>
    have htext : (Numeral.text ⟨true, digits⟩).toList = '-' :: digits.toList := by simp [Numeral.text]
    have hsign : literal "-" ('-' :: (digits.toList ++ tail)) = some ((), digits.toList ++ tail) :=
      literal_eq_some_iff.2 rfl
    simp [Grammar.numeral, bind_apply, optional_apply, map_apply, htext, hsign, hdigits]

theorem numeral_none (hminus : Stops (· = '-') cs) (hdigit : Stops Grammar.isDigit cs) : Grammar.numeral cs = none := by
  have hliteral : literal "-" cs = none := literal_none rfl hminus
  simp [Grammar.numeral, bind_apply, optional_apply, map_apply, hliteral, run_none hdigit]

theorem numeral_name (hn : IsName n) : Grammar.numeral (n.toList ++ tail) = none := by
  obtain ⟨c, cs, hcs, hc⟩ := hn.exists_cons
  rw [hcs, List.cons_append]
  refine numeral_none ?_ ?_
  · simpa using ne_of_isLetter (d := '-') hc (by decide)
  · rw [stops_cons, ← Bool.not_eq_true]
    intro hdigit
    simp [isLetter_eq_false_of_isDigit hdigit] at hc

theorem stops_isDigit (h : Stops Grammar.isNameChar cs) : Stops Grammar.isDigit cs := by
  intro c hc
  have := h c hc
  simp only [Grammar.isNameChar, Bool.or_eq_false_iff] at this
  exact this.2

theorem stops_isLetter (h : Stops Grammar.isNameChar cs) : Stops Grammar.isLetter cs := by
  intro c hc
  have := h c hc
  simp only [Grammar.isNameChar, Bool.or_eq_false_iff] at this
  exact this.1

theorem atom_text {a : Atom} (ha : a.Spelled) (htail : Stops Grammar.isNameChar tail) :
    Grammar.atom (a.text.toList ++ tail) = some (a, tail) := by
  rw [Grammar.atom, orElse_apply, map_apply, map_apply]
  cases a with
  | number i => rw [Atom.text, numeral_text ha (stops_isDigit htail), Option.map_some, Option.some_or]
  | name s => rw [Atom.text, numeral_name ha, name_text ha htail, Option.map_none, Option.none_or, Option.map_some]

/-- What an atom begins with. -/
theorem Atom.Spelled.exists_cons {a : Atom} (ha : a.Spelled) :
    ∃ c cs, a.text.toList = c :: cs ∧ (c = '-' ∨ Grammar.isNameChar c = true) := by
  cases a with
  | number i =>
    obtain ⟨c, cs, hcs, hc⟩ := Numeral.Spelled.exists_cons ha
    exact ⟨c, cs, hcs, hc.imp_right fun hc => by simp [Grammar.isNameChar, hc]⟩
  | name s =>
    obtain ⟨c, cs, hcs, hc⟩ := IsName.exists_cons ha
    exact ⟨c, cs, hcs, .inr (isNameChar_of_isLetter hc)⟩

theorem isSpace_of_isNameChar {c : Char} (h : Grammar.isNameChar c = true) : Grammar.isSpace c = false := by
  rw [← Bool.not_eq_true]
  intro hspace
  simp only [Grammar.isSpace, Bool.or_eq_true, decide_eq_true_eq] at hspace
  rcases hspace with rfl | rfl <;> simp [Grammar.isNameChar, Grammar.isLetter, Grammar.isDigit] at h

theorem Spells.stops_isSpace {s : String} {next : Char → Bool} (h : Spells Grammar.isLetter next s) :
    Stops Grammar.isSpace (s.toList ++ tail) := by
  obtain ⟨c, cs, hcs, hc, -⟩ := h
  rw [hcs, List.cons_append, stops_cons]
  exact isSpace_of_isNameChar (isNameChar_of_isLetter hc)

theorem Atom.Spelled.stops_isSpace {a : Atom} (ha : a.Spelled) : Stops Grammar.isSpace (a.text.toList ++ tail) := by
  obtain ⟨c, cs, hcs, rfl | hc⟩ := ha.exists_cons
  · simp [hcs, Grammar.isSpace]
  · simpa [hcs] using isSpace_of_isNameChar hc

theorem mark_cons {c : Char} (hword : word.toList = [c]) (hc : Grammar.isSpace c = false) :
    Grammar.mark word (c :: cs) = some ((), cs.dropWhile Grammar.isSpace) := by
  have hliteral : literal word (c :: cs) = some ((), cs) := literal_eq_some_iff.2 (by rw [hword, List.singleton_append])
  rw [mark_apply, dropWhile_of_stops (by simpa using hc), hliteral, Option.map_some]

/-- The equality sign of an assignment, with the blanks around it. -/
theorem mark_equals : Grammar.mark "=" (" = ".toList ++ cs) = some ((), cs.dropWhile Grammar.isSpace) := by
  have hmark : Grammar.mark "=" (" = ".toList ++ cs) = Grammar.mark "=" ('=' :: ' ' :: cs) := by
    rw [mark_apply, mark_apply]
    simp [Grammar.isSpace]
  rw [hmark, mark_cons rfl rfl]
  simp [Grammar.isSpace]

theorem opens_equals : Opens (" = ".toList ++ cs) := by
  constructor <;> simp [Grammar.isSpace, Grammar.isNameChar, Grammar.isLetter, Grammar.isDigit]

/-- Items one after the other, if each may follow another and be followed by the tail. -/
theorem many_texts {r : Reader α} {text : α → List Char} {F : List Char → Prop} {as : List α}
    (hitem : ∀ a ∈ as, ∀ rest, F rest → r (text a ++ rest) = some (a, rest)) (hne : ∀ a ∈ as, text a ≠ [])
    (hfollows : ∀ a ∈ as, ∀ rest, F (text a ++ rest)) (htail : F tail) (hend : r tail = none) :
    many r (as.flatMap text ++ tail) = (as, tail) := by
  induction as with
  | nil => rw [List.flatMap_nil, List.nil_append, many, hend]
  | cons a as ih =>
    obtain ⟨ha, hitem⟩ := List.forall_mem_cons.1 hitem
    obtain ⟨hne, hnes⟩ := List.forall_mem_cons.1 hne
    obtain ⟨-, hfollows⟩ := List.forall_mem_cons.1 hfollows
    have hrest : F (as.flatMap text ++ tail) := by
      cases as with
      | nil => exact htail
      | cons b bs =>
        rw [List.flatMap_cons, List.append_assoc]
        exact hfollows b List.mem_cons_self _
    have hlength : 0 < (text a).length := List.length_pos_iff.2 hne
    rw [List.flatMap_cons, List.append_assoc, many, ha _ hrest]
    simp [hlength, ih hitem hnes hfollows]

theorem typeName_text {type : String} (htype : IsType type)
    (htail : Stops (fun c => Grammar.isNameChar c || c = '.') tail) (hbracket : Stops (· = '[') tail) :
    Grammar.typeName (type.toList ++ tail) = some (type, tail) := by
  obtain ⟨base, brackets, hbase, rfl⟩ := htype
  have htext : (String.join (brackets.map fun _ => "[]")).toList = brackets.flatMap fun _ => "[]".toList := by
    rw [String.toList_join, List.flatMap_map]
  have hend : literal "[]" tail = none := by
    cases tail with
    | nil => rfl
    | cons c cs =>
      rw [stops_cons, decide_eq_false_iff_not] at hbracket
      exact literal_cons_ne (w := '[') rfl hbracket
  have hmany : many (literal "[]") ((brackets.flatMap fun _ => "[]".toList) ++ tail) = (brackets, tail) :=
    many_texts (F := fun _ => True) (fun _ _ _ _ => literal_eq_some_iff.2 rfl) (fun _ _ => by simp)
      (fun _ _ _ => trivial) trivial hend
  have hstops : Stops (fun c => Grammar.isNameChar c || c = '.') ((brackets.flatMap fun _ => "[]".toList) ++ tail) := by
    cases brackets with
    | nil => exact htail
    | cons _ brackets => simp [Grammar.isNameChar, Grammar.isLetter, Grammar.isDigit]
  rw [String.toList_append, htext, List.append_assoc, Grammar.typeName, bind_apply,
    run_eq_some_iff.2 ⟨hbase, rfl, hstops⟩, Option.bind_some, bind_apply, Reader.star, hmany]
  rfl

/-! ## Places -/

theorem element_text {array : String} {index : Atom} (harray : IsName array) (hindex : index.Spelled) :
    Grammar.element ((Place.element array index).text.toList ++ tail) = some (.element array index, tail) := by
  have htext : (Place.element array index).text.toList ++ tail =
      array.toList ++ '[' :: (index.text.toList ++ ']' :: tail) := by simp [Place.text]
  have hname : Grammar.name (array.toList ++ '[' :: (index.text.toList ++ ']' :: tail)) =
      some (array, '[' :: (index.text.toList ++ ']' :: tail)) := name_text harray (stops_cons.2 rfl)
  have hopen : Grammar.mark "[" ('[' :: (index.text.toList ++ ']' :: tail)) =
      some ((), index.text.toList ++ ']' :: tail) := by
    rw [mark_cons rfl rfl, dropWhile_of_stops hindex.stops_isSpace]
  have hatom : Grammar.atom (index.text.toList ++ ']' :: tail) = some (index, ']' :: tail) :=
    atom_text hindex (stops_cons.2 rfl)
  have hclose : literal "]" (']' :: tail) = some ((), tail) := literal_eq_some_iff.2 rfl
  simp [Grammar.element, bind_apply, map_apply, htext, hname, hopen, hatom, blanks_apply, Grammar.isSpace, hclose]

theorem element_none {n : String} (hn : IsName n) (hname : Stops Grammar.isNameChar tail)
    (htail : Stops (· = '[') (tail.dropWhile Grammar.isSpace)) : Grammar.element (n.toList ++ tail) = none := by
  have hopen : Grammar.mark "[" tail = none := mark_none (c := '[') rfl htail
  simp [Grammar.element, bind_apply, name_text hn hname, hopen]

theorem field_text {base member : String} (hbase : IsName base) (hmember : IsName member)
    (htail : Stops Grammar.isNameChar tail) :
    Grammar.field ((Place.field base member).text.toList ++ tail) = some (.field base member, tail) := by
  have htext : (Place.field base member).text.toList ++ tail = base.toList ++ '.' :: (member.toList ++ tail) := by
    simp [Place.text]
  have hname : Grammar.name (base.toList ++ '.' :: (member.toList ++ tail)) =
      some (base, '.' :: (member.toList ++ tail)) := name_text hbase (stops_cons.2 rfl)
  have hdot : literal "." ('.' :: (member.toList ++ tail)) = some ((), member.toList ++ tail) :=
    literal_eq_some_iff.2 rfl
  simp [Grammar.field, bind_apply, map_apply, htext, hname, hdot, name_text hmember htail]

theorem field_none {n : String} (hn : IsName n) (hname : Stops Grammar.isNameChar tail) (htail : Stops (· = '.') tail) :
    Grammar.field (n.toList ++ tail) = none := by
  have hdot : literal "." tail = none := literal_none (c := '.') rfl htail
  simp [Grammar.field, bind_apply, name_text hn hname, hdot]

theorem opens_nil : Opens [] := by
  constructor <;> simp

theorem opens_cons {c : Char} (hname : Grammar.isNameChar c = false) (hspace : Grammar.isSpace c = false)
    (hparenthesis : c ≠ '(') (hcolon : c ≠ ':') : Opens (c :: cs) := by
  have hdrop : (c :: cs).dropWhile Grammar.isSpace = c :: cs := dropWhile_of_stops (stops_cons.2 hspace)
  refine ⟨stops_cons.2 hname, ?_, ?_, ?_⟩ <;> rw [hdrop]
  · exact stops_isLetter (stops_cons.2 hname)
  · simpa using hparenthesis
  · simpa using hcolon

/-- A place begins with its name. -/
theorem Place.Spelled.begins {p : Place} (hp : p.Spelled) :
    IsName p.head ∧ ∃ tail, p.text.toList = p.head.toList ++ tail ∧ ∀ {cs}, Opens cs → Opens (tail ++ cs) := by
  cases p with
  | element array index =>
    refine ⟨hp.1, '[' :: (index.text.toList ++ [']']), by simp [Place.text, Place.head], fun _ => ?_⟩
    exact opens_cons rfl rfl (by decide) (by decide)
  | field base member =>
    refine ⟨hp.1, '.' :: member.toList, by simp [Place.text, Place.head], fun _ => ?_⟩
    exact opens_cons rfl rfl (by decide) (by decide)
  | name s => exact ⟨hp, [], by simp [Place.text, Place.head], fun h => h⟩

end Dataflow.Reading
