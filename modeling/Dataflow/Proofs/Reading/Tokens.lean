import Dataflow.Reading.Grammar
import Mathlib.Data.List.TakeWhile
/-!
# Words of a line

A word is as long as it can be, so it is read back wherever it is followed by a character of another class
(`run_eq_some_iff`). A keyword ends before any character that is no word character. The dollar sign is none, though names
may hold it, so a keyword is found at the beginning of some names that are longer (`keyword_name_iff`).
-/
namespace Dataflow.Reading

open Reader

variable {α β : Type} {cs tail rest : List Char} {s n word : String}

/-! ## Readers one after the other -/

theorem bind_apply (r : Reader α) (f : α → Reader β) (cs : List Char) :
    (r >>= f) cs = (r cs).bind fun p => f p.1 p.2 := rfl

theorem pure_apply (a : α) (cs : List Char) : (pure a : Reader α) cs = some (a, cs) := rfl

theorem seqRight_apply (r : Reader α) (s : Reader β) (cs : List Char) : (r *> s) cs = (r cs).bind fun p => s p.2 := rfl

theorem orElse_apply (r s : Reader α) (cs : List Char) : (r <|> s) cs = (r cs).or (s cs) := by
  rw [Option.or_eq_orElse]
  rfl

theorem map_apply (f : α → β) (r : Reader α) (cs : List Char) : (f <$> r) cs = (r cs).map fun p => (f p.1, p.2) := by
  change (r cs).bind _ = _
  cases r cs <;> rfl

theorem seqLeft_apply (r : Reader α) (s : Reader β) (cs : List Char) :
    (r <* s) cs = (r cs).bind fun p => (s p.2).map fun q => (p.1, q.2) := by
  change (r cs).bind _ = _
  congr 1
  funext p
  change (s p.2).bind _ = _
  cases s p.2 <;> rfl

theorem optional_apply (r : Reader α) (cs : List Char) :
    (optional r) cs = some ((r cs).map Prod.fst, ((r cs).map Prod.snd).getD cs) := by
  unfold optional
  cases h : r cs <;> simp [orElse_apply, map_apply, pure_apply, h]

/-! ## Classes of characters -/

/-- The text ends, or goes on with a character that is not of the class. -/
def Stops (P : Char → Bool) (cs : List Char) : Prop := ∀ c ∈ cs.head?, P c = false

@[simp]
theorem stops_nil (P : Char → Bool) : Stops P [] := by simp [Stops]

@[simp]
theorem stops_cons {P : Char → Bool} {c : Char} : Stops P (c :: cs) ↔ P c = false := by simp [Stops]

theorem stops_dropWhile (P : Char → Bool) (cs : List Char) : Stops P (cs.dropWhile P) := by
  induction cs with
  | nil => simp
  | cons c cs ih =>
    rw [List.dropWhile_cons]
    split
    · exact ih
    next hc => simpa using hc

theorem dropWhile_of_stops {P : Char → Bool} (h : Stops P cs) : cs.dropWhile P = cs := by
  cases cs with
  | nil => rfl
  | cons c cs => simp_all

theorem takeWhile_of_stops {P : Char → Bool} (h : Stops P cs) : cs.takeWhile P = [] := by
  cases cs with
  | nil => rfl
  | cons c cs => simp_all

/-- A character of one class, and then characters of another. -/
def Spells (first rest : Char → Bool) (s : String) : Prop :=
  ∃ c cs, s.toList = c :: cs ∧ first c = true ∧ ∀ d ∈ cs, rest d = true

theorem run_eq_some_iff {first next : Char → Bool} :
    run first next cs = some (s, tail) ↔ Spells first next s ∧ cs = s.toList ++ tail ∧ Stops next tail := by
  cases cs with
  | nil =>
    simp only [run, reduceCtorEq, false_iff, Spells]
    rintro ⟨⟨c, cs, hs, -⟩, hnil, -⟩
    simp [hs] at hnil
  | cons c cs =>
    simp only [run]
    constructor
    · intro h
      split at h
      next hc =>
        cases h
        refine ⟨⟨c, _, String.toList_ofList, hc, fun d hd => List.mem_takeWhile_imp hd⟩, ?_, stops_dropWhile next cs⟩
        rw [String.toList_ofList, List.cons_append, List.takeWhile_append_dropWhile]
      next => cases h
    · rintro ⟨⟨d, ds, hs, hd, hds⟩, heq, htail⟩
      rw [hs, List.cons_append, List.cons.injEq] at heq
      obtain ⟨rfl, rfl⟩ := heq
      -- The second class takes all of the word, and nothing after it.
      rw [if_pos hd, List.takeWhile_append_of_pos hds, List.dropWhile_append_of_pos hds, dropWhile_of_stops htail,
        takeWhile_of_stops htail, List.append_nil, ← hs, String.ofList_toList]

theorem Spells.mono {first next first' next' : Char → Bool} (h : Spells first next s)
    (hfirst : ∀ c, first c = true → first' c = true) (hnext : ∀ c, next c = true → next' c = true) :
    Spells first' next' s := by
  obtain ⟨c, cs, hs, hc, hcs⟩ := h
  exact ⟨c, cs, hs, hfirst c hc, fun d hd => hnext d (hcs d hd)⟩

theorem Spells.forall_mem {first next : Char → Bool} (h : Spells first next s)
    (hfirst : ∀ c, first c = true → next c = true) : ∀ c ∈ s.toList, next c = true := by
  obtain ⟨c, cs, hs, hc, hcs⟩ := h
  rw [hs]
  exact List.forall_mem_cons.2 ⟨hfirst c hc, hcs⟩

/-! ## Marks and blanks -/

theorem strip?_eq_some_iff {ws : List Char} : strip? ws cs = some tail ↔ cs = ws ++ tail := by
  induction ws generalizing cs with
  | nil => simp [strip?]
  | cons w ws ih =>
    cases cs with
    | nil => simp [strip?]
    | cons c cs =>
      simp only [strip?, List.cons_append, List.cons.injEq]
      split
      next h => simp [h, ih]
      next h => simp [Ne.symm h]

theorem literal_eq_some_iff {u : Unit} : literal word cs = some (u, tail) ↔ cs = word.toList ++ tail := by
  simp [literal, strip?_eq_some_iff]

/-- A character that is not the first of a word is not the beginning of it. -/
theorem literal_cons_ne {w c : Char} {ws : List Char} (hword : word.toList = w :: ws) (hc : c ≠ w) :
    literal word (c :: cs) = none := by
  simp [literal, hword, strip?, Ne.symm hc]

theorem blanks_apply (cs : List Char) : Grammar.blanks cs = some ((), cs.dropWhile Grammar.isSpace) := rfl

theorem gap_eq_some_iff {u : Unit} :
    Grammar.gap cs = some (u, tail) ↔ ¬ Stops Grammar.isSpace cs ∧ tail = cs.dropWhile Grammar.isSpace := by
  cases cs with
  | nil => simp [Grammar.gap, seqRight_apply, run]
  | cons c cs =>
    cases hc : Grammar.isSpace c <;> simp [Grammar.gap, seqRight_apply, pure_apply, run, hc, eq_comm]

theorem mark_apply (cs : List Char) :
    Grammar.mark word cs =
      (literal word (cs.dropWhile Grammar.isSpace)).map fun p => ((), p.2.dropWhile Grammar.isSpace) := by
  simp only [Grammar.mark, seqRight_apply, blanks_apply, Option.bind_some]
  cases literal word (cs.dropWhile Grammar.isSpace) <;> rfl

/-! ## Names and keywords -/

theorem isNameChar_of_isLetter {c : Char} (h : Grammar.isLetter c = true) : Grammar.isNameChar c = true := by
  simp [Grammar.isNameChar, h]

/-- Of the characters of names, only the dollar sign is no word character. -/
theorem isWordChar_of_isNameChar {c : Char} (h : Grammar.isNameChar c = true) (hc : c ≠ '$') :
    Text.isWordChar c = true := by
  have hcode : ∀ d : Char, c ≤ d ↔ c.toNat ≤ d.toNat := fun _ => Iff.rfl
  have hcode' : ∀ d : Char, d ≤ c ↔ d.toNat ≤ c.toNat := fun _ => Iff.rfl
  have hunderscore : c = '_' → c.toNat = 0x5F := by rintro rfl; rfl
  simp only [Grammar.isNameChar, Grammar.isLetter, Grammar.isDigit, Bool.or_eq_true, Bool.and_eq_true,
    decide_eq_true_eq, hcode, hcode', hc, or_false] at h
  -- The first ranges are the digits, the capitals, the underscore and the small letters.
  obtain ⟨rest, hrest⟩ :
      ∃ rest, Text.wordRanges = (0x30, 0x39) :: (0x41, 0x5A) :: (0x5F, 0x5F) :: (0x61, 0x7A) :: rest :=
    ⟨_, rfl⟩
  have hword : Text.wordRanges.contains c.toNat = true := by
    have ha : 'a'.toNat = 0x61 := rfl
    have hz : 'z'.toNat = 0x7A := rfl
    have hA : 'A'.toNat = 0x41 := rfl
    have hZ : 'Z'.toNat = 0x5A := rfl
    have h0 : '0'.toNat = 0x30 := rfl
    have h9 : '9'.toNat = 0x39 := rfl
    simp only [hrest, Text.CodeRanges.contains]
    grind
  simp [Text.isWordChar, hword]

/-- A name as it is read. -/
abbrev IsName (s : String) : Prop := Spells Grammar.isLetter Grammar.isNameChar s

theorem name_eq_some_iff :
    Grammar.name cs = some (s, tail) ↔ IsName s ∧ cs = s.toList ++ tail ∧ Stops Grammar.isNameChar tail :=
  run_eq_some_iff

theorem isName_of_name {n : String} (h : Grammar.name n.toList = some (n, [])) : IsName n := (name_eq_some_iff.1 h).1

theorem keyword_eq_some_iff {u : Unit} :
    Grammar.keyword word cs = some (u, tail) ↔ cs = word.toList ++ tail ∧ Stops Text.isWordChar tail := by
  rw [← literal_eq_some_iff (u := u), Grammar.keyword]
  rcases hword : literal word cs with - | ⟨u, - | ⟨c, rest⟩⟩
  · simp
  · simp only [Option.some.injEq, Prod.mk.injEq, true_and]
    constructor
    · rintro rfl
      exact ⟨rfl, stops_nil _⟩
    · exact fun h => h.1
  · cases hc : Text.isWordChar c <;> simp [hc] <;> rintro rfl <;> simp [hc]

/-- The keyword is found at the beginning of the name: it is the whole name, or a dollar sign follows it. -/
def Shadows (word n : String) : Prop := n = word ∨ ∃ cs, n.toList = word.toList ++ '$' :: cs

theorem keyword_name_iff {u : Unit} (hword : word.toList.all Grammar.isNameChar = true)
    (hn : ∀ c ∈ n.toList, Grammar.isNameChar c = true) (htail : Stops Grammar.isNameChar tail) :
    Grammar.keyword word (n.toList ++ tail) = some (u, rest) ↔
      (n = word ∧ rest = tail ∧ Stops Text.isWordChar tail) ∨
        ∃ cs, n.toList = word.toList ++ '$' :: cs ∧ rest = '$' :: cs ++ tail := by
  rw [keyword_eq_some_iff]
  constructor
  · rintro ⟨heq, hrest⟩
    rcases List.append_eq_append_iff.1 heq with ⟨ds, hds, rfl⟩ | ⟨ds, hds, rfl⟩
    · cases ds with
      | nil =>
        exact .inl ⟨String.toList_injective (by simpa using hds.symm), rfl, hrest⟩
      | cons d ds =>
        have hd := List.all_eq_true.1 hword d (by simp [hds])
        simp [hd] at htail
    · cases ds with
      | nil => exact .inl ⟨String.toList_injective (by simpa using hds), rfl, by simpa using hrest⟩
      | cons d ds =>
        -- A character of the name follows the word, and is no word character.
        have hd := hn d (by simp [hds])
        by_cases hdollar : d = '$'
        · exact .inr ⟨ds, hdollar ▸ hds, by rw [hdollar]⟩
        · simp [isWordChar_of_isNameChar hd hdollar] at hrest
  · rintro (⟨rfl, rfl, hstops⟩ | ⟨ds, hds, rfl⟩)
    · exact ⟨rfl, hstops⟩
    · refine ⟨by simp [hds], ?_⟩
      simp
      decide

end Dataflow.Reading
