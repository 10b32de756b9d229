import Dataflow.Text.Line
import Mathlib.Data.List.TakeWhile
/-!
# Other lines in a text

The lines of a text after one of them is replaced (`lines_replaceLine`), or one is added at the end (`lines_concat`).
-/
namespace Dataflow.Text

/-- The text with another line in the place of one, counted from zero; what ends the line stays. -/
def replaceLine (new : List Char) : Nat → List Char → List Char
  | _, [] => []
  | 0, cs => new ++ cs.dropWhile fun c => !isLineEnd c
  | i + 1, '\r' :: '\n' :: rest => '\r' :: '\n' :: replaceLine new i rest
  | i + 1, c :: rest => c :: (if isLineEnd c then replaceLine new i rest else replaceLine new (i + 1) rest)

variable {c : Char} {cs new rest : List Char}

theorem lines_cons (h : isLineEnd c = false) :
    lines (c :: cs) = match lines cs with
      | [] => [[c]]
      | line :: later => (c :: line) :: later := by
  rw [lines.eq_3, h]
  · rfl
  · rintro rest rfl rfl
    cases h

/-- A carriage return ends no line by itself where a line feed follows it. -/
theorem lines_cons_end (h : isLineEnd c = true) (hcs : ∀ rest, c = '\r' → cs ≠ '\n' :: rest) :
    lines (c :: cs) = [] :: lines cs := by
  rw [lines.eq_3, if_pos h]
  exact hcs

theorem lines_of_end (h : ∀ c ∈ cs.head?, isLineEnd c = true) : cs = [] ∨ ∃ later, lines cs = [] :: later := by
  unfold lines
  split
  · exact .inl rfl
  · exact .inr ⟨_, rfl⟩
  · rw [if_pos (h _ rfl)]
    exact .inr ⟨_, rfl⟩

theorem lines_append (hne : new ≠ []) (hnew : ∀ c ∈ new, isLineEnd c = false)
    (hrest : ∀ c ∈ rest.head?, isLineEnd c = true) : lines (new ++ rest) = new :: (lines rest).tail := by
  induction new with
  | nil => exact absurd rfl hne
  | cons c cs ih =>
    obtain ⟨hc, hcs⟩ := List.forall_mem_cons.1 hnew
    rw [List.cons_append, lines_cons hc]
    cases cs with
    | nil =>
      rcases lines_of_end hrest with rfl | ⟨later, hlater⟩
      · rfl
      · rw [List.nil_append, hlater]
        rfl
    | cons d ds => rw [ih (List.cons_ne_nil d ds) hcs]

/-- The lines after the first one begin where the first one ends. -/
theorem tail_lines (cs : List Char) : (lines (cs.dropWhile fun c => !isLineEnd c)).tail = (lines cs).tail := by
  induction cs with
  | nil => rfl
  | cons c cs ih =>
    cases hc : isLineEnd c with
    | true => rw [List.dropWhile_cons_of_neg (by simp [hc])]
    | false =>
      rw [List.dropWhile_cons_of_pos (by simp [hc]), ih, lines_cons hc]
      cases lines cs <;> rfl

theorem head?_replaceLine (hne : new ≠ []) (hnew : ∀ c ∈ new, isLineEnd c = false) (i : Nat)
    (hcs : cs.head? ≠ some '\n') : (replaceLine new i cs).head? ≠ some '\n' := by
  fun_cases replaceLine new i cs with
  | case1 => simp
  | case2 cs =>
    cases new with
    | nil => exact absurd rfl hne
    | cons c new =>
      rintro hc
      obtain rfl : c = '\n' := by simpa using hc
      exact absurd (hnew _ List.mem_cons_self) (by decide)
  | case3 => simp
  | case4 i c rest => simpa using hcs

/-- The lines of the text are the same, but for the one that is replaced. -/
theorem lines_replaceLine (hne : new ≠ []) (hnew : ∀ c ∈ new, isLineEnd c = false) {i : Nat}
    (hi : i < (lines cs).length) : lines (replaceLine new i cs) = (lines cs).set i new := by
  fun_induction replaceLine new i cs with
  | case1 => simp [lines] at hi
  | case2 cs =>
    have hstops : ∀ c ∈ (cs.dropWhile fun c => !isLineEnd c).head?, isLineEnd c = true := by
      intro c hc
      have hhead := List.head?_dropWhile_not (fun c => !isLineEnd c) cs
      rw [Option.mem_def.1 hc] at hhead
      simpa using hhead
    rw [lines_append hne hnew hstops, tail_lines]
    cases hlines : lines cs with
    | nil => simp [hlines] at hi
    | cons line later => rfl
  | case3 i rest ih =>
    have hlines : ∀ cs, lines ('\r' :: '\n' :: cs) = [] :: lines cs := fun _ => rfl
    rw [hlines, List.length_cons, Nat.succ_lt_succ_iff] at hi
    rw [hlines, hlines, ih hi, List.set_cons_succ]
  | case4 i c rest hcrlf ihend ih =>
    cases hc : isLineEnd c with
    | true =>
      have hlines : lines (c :: rest) = [] :: lines rest := lines_cons_end hc hcrlf
      rw [hlines, List.length_cons, Nat.succ_lt_succ_iff] at hi
      rw [if_pos rfl, hlines, List.set_cons_succ, ← ihend hi]
      refine lines_cons_end hc ?_
      -- The line that follows a carriage return still does not begin with a line feed.
      rintro rest' rfl heq
      have hhead : rest.head? ≠ some '\n' := by
        intro hhead
        obtain ⟨later, rfl⟩ := List.head?_eq_some_iff.1 hhead
        exact hcrlf later rfl rfl
      exact head?_replaceLine hne hnew i hhead (by rw [heq]; rfl)
    | false =>
      rw [lines_cons hc] at hi
      rw [if_neg (by simp), lines_cons hc, lines_cons hc]
      cases hlines : lines rest with
      | nil => simp [hlines] at hi
      | cons line later =>
        rw [hlines] at hi
        rw [ih (by simpa [hlines] using hi), hlines, List.set_cons_succ, List.set_cons_succ]

/-! ## One line more -/

theorem lines_ne_nil {cs : List Char} (h : cs ≠ []) : lines cs ≠ [] := by
  unfold lines
  split
  · exact absurd rfl h
  · exact List.cons_ne_nil _ _
  · split
    · exact List.cons_ne_nil _ _
    · split <;> exact List.cons_ne_nil _ _

/-- After an end of a line there is one line more. -/
theorem lines_concat {before line : List Char} (hbefore : ∀ c ∈ before.getLast?, isLineEnd c = true) (hne : line ≠ [])
    (hline : ∀ c ∈ line, isLineEnd c = false) : lines (before ++ line) = lines before ++ [line] := by
  have hlast : ∀ {c : Char} {cs : List Char}, (∀ e ∈ (c :: cs).getLast?, isLineEnd e = true) →
      ∀ e ∈ cs.getLast?, isLineEnd e = true := by
    intro c cs h e he
    refine h e ?_
    rw [List.getLast?_cons, he]
    rfl
  fun_induction lines before with
  | case1 =>
    have hsingle : lines (line ++ []) = line :: (lines []).tail := lines_append hne hline (by simp)
    simpa [lines] using hsingle
  | case2 rest ih =>
    have hlines : lines ('\r' :: '\n' :: (rest ++ line)) = [] :: lines (rest ++ line) := rfl
    rw [List.cons_append, List.cons_append, hlines, ih (hlast (hlast hbefore)), List.cons_append]
  | case3 c rest hcrlf hc ih =>
    have hlines : lines (c :: (rest ++ line)) = [] :: lines (rest ++ line) := by
      refine lines_cons_end hc ?_
      -- The line does not begin with a line feed.
      rintro rest' rfl heq
      cases rest with
      | nil =>
        obtain rfl : line = '\n' :: rest' := heq
        exact absurd (hline _ List.mem_cons_self) (by decide)
      | cons d ds =>
        obtain ⟨rfl, -⟩ := List.cons.inj heq
        exact hcrlf ds rfl rfl
    rw [List.cons_append, hlines, ih (hlast hbefore), List.cons_append]
  | case4 c rest hcrlf hc hnil ih =>
    obtain rfl : rest = [] := by_contra fun hrest => lines_ne_nil hrest hnil
    exact absurd (hbefore c rfl) hc
  | case5 c rest hcrlf hc first later heq ih =>
    rw [List.cons_append, lines_cons (Bool.eq_false_iff.2 hc), ih (hlast hbefore), heq]
    rfl

end Dataflow.Text
