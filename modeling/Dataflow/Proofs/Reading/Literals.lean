import Dataflow.Proofs.Reading.Jumps
import Mathlib.Data.List.Duplicate
/-!
# What a form is refused for

The literals of a form are read in order, before anything else is checked, and the first that is refused makes the form
fail (`Form.read_refused`). Where none is refused, a form fails only if it clashes with what is known before its line
(`Form.read_error`).
-/
namespace Dataflow.Reading

variable {α β : Type} {line : Nat} {s s' : Scope} {ns ns' : List Numeral} {e : ReadError}

/-! ## Literals -/

def Numeral.outOfRange (n : Numeral) : Bool := !decide (Int32.Fits n.value)

/-- A literal is refused if it has too many digits, or does not fit in 32 bits. -/
def Numeral.refused (n : Numeral) : Bool := Decimal.maxDigits < n.digits.length || n.outOfRange

/-- Why a literal is refused; its digits are counted first. -/
def Numeral.fault (line : Nat) (n : Numeral) : ReadError :=
  if Decimal.maxDigits < n.digits.length then .literalTooLong else .atLine line (.literalRange n.text)

def Atom.numerals : Atom → List Numeral
  | number n => [n]
  | name _ => []

def Place.numerals : Place → List Numeral
  | element _ index => index.numerals
  | field .. | name _ => []

def Source.numerals : Source → List Numeral
  | allocate _ | negate _ => []
  | cast _ value => value.numerals
  | binary left _ right => left.numerals ++ right.numerals
  | number n => [n]
  | place p => p.numerals

/-- The literals of a form, in the order in which they are written. -/
def Form.numerals : Form → List Numeral
  | param .. | declare .. | goto _ | nop => []
  | branch left _ right _ => left.numerals ++ right.numerals
  | switch _ arms _ => arms.map (·.1)
  | .return value => value.elim [] Atom.numerals
  | invoke _ _ args => args.flatMap Atom.numerals
  | assign place source => place.numerals ++ source.numerals

theorem Numeral.read_run (n : Numeral) (s : Scope) :
    (n.read line).run s = if n.refused then .error (n.fault line) else .ok (n.value, s) := by
  unfold Numeral.read Numeral.refused Numeral.outOfRange Numeral.fault
  by_cases hdigits : Decimal.maxDigits < n.digits.length
  · simp [hdigits]
    rfl
  · by_cases hfits : Int32.Fits n.value
    · have hrange : -0x80000000 ≤ n.value ∧ n.value < 0x80000000 := hfits
      simp [hdigits, hfits, hrange]
      rfl
    · have hrange : ¬ (-0x80000000 ≤ n.value ∧ n.value < 0x80000000) := hfits
      simp only [gt_iff_lt, hdigits, if_false, hrange, hfits, decide_false, Bool.not_false, Bool.or_true, if_true]
      rfl

/-! ## Computations that only check literals -/

theorem run_bind_error {m : Scoped α} {f : α → Scoped β} :
    (m >>= f).run s = .error e ↔ m.run s = .error e ∨ ∃ a s₁, m.run s = .ok (a, s₁) ∧ (f a).run s₁ = .error e := by
  rw [StateT.run_bind, bind_error_iff]
  exact or_congr_right Prod.exists

/-- A computation fails at the first of some literals that is refused, and only there. -/
structure Checks (line : Nat) (ns : List Numeral) (m : Scoped α) : Prop where
  fails : ∀ k, ns.find? Numeral.refused = some k → ∀ s, m.run s = .error (k.fault line)
  succeeds : ns.find? Numeral.refused = none → ∀ s, ∃ p, m.run s = .ok p

theorem Checks.exists_of_error {m : Scoped α} (hm : Checks line ns m) (h : m.run s = .error e) :
    ∃ k, ns.find? Numeral.refused = some k ∧ e = k.fault line := by
  cases hfind : ns.find? Numeral.refused with
  | none =>
    obtain ⟨p, hp⟩ := hm.succeeds hfind s
    rw [h] at hp
    cases hp
  | some k =>
    have hfail := hm.fails k hfind s
    rw [h] at hfail
    exact ⟨k, rfl, Except.error.inj hfail⟩

theorem Checks.pure (a : α) : Checks line [] (Pure.pure a : Scoped α) :=
  ⟨fun _ h => (nomatch h), fun _ s => ⟨(a, s), rfl⟩⟩

theorem Checks.bind {m : Scoped α} {f : α → Scoped β} (hm : Checks line ns m) (hf : ∀ a, Checks line ns' (f a)) :
    Checks line (ns ++ ns') (m >>= f) := by
  constructor
  · intro k hk s
    rw [List.find?_append, Option.or_eq_some_iff] at hk
    rw [run_bind_error]
    rcases hk with hk | ⟨hnone, hk⟩
    · exact .inl (hm.fails k hk s)
    · obtain ⟨⟨a, s₁⟩, ha⟩ := hm.succeeds hnone s
      exact .inr ⟨a, s₁, ha, (hf a).fails k hk s₁⟩
  · intro hnone s
    rw [List.find?_append, Option.or_eq_none_iff] at hnone
    obtain ⟨⟨a, s₁⟩, ha⟩ := hm.succeeds hnone.1 s
    rw [StateT.run_bind, ha]
    exact (hf a).succeeds hnone.2 s₁

theorem Checks.map {m : Scoped α} (hm : Checks line ns m) (f : α → β) :
    Checks line ns (m >>= fun a => Pure.pure (f a)) := by
  simpa using hm.bind fun a => Checks.pure (f a)

theorem Checks.mapM {f : α → Scoped β} {F : α → List Numeral} (h : ∀ a, Checks line (F a) (f a)) (as : List α) :
    Checks line (as.flatMap F) (as.mapM f) := by
  induction as with
  | nil => exact .pure []
  | cons a as ih =>
    rw [List.mapM_cons, List.flatMap_cons]
    exact (h a).bind fun b => ih.map (b :: ·)

theorem Checks.optional {f : α → Scoped β} {F : α → List Numeral} (h : ∀ a, Checks line (F a) (f a)) (a : Option α) :
    Checks line (a.elim [] F) (a.mapM f) := by
  cases a with
  | none => exact .pure none
  | some a =>
    rw [Option.mapM_some, map_eq_pure_bind]
    exact (h a).map some

theorem checks_mention (name : String) : Checks line [] (mention name) :=
  ⟨fun _ h => (nomatch h), fun _ s => ⟨_, mention_run name s⟩⟩

theorem Numeral.checks (n : Numeral) : Checks line [n] (n.read line) := by
  constructor
  · intro k hk s
    obtain ⟨hrefused, rfl⟩ : n.refused = true ∧ n = k := by simpa [List.find?_singleton] using hk
    rw [n.read_run, if_pos hrefused]
  · intro hnone s
    have hfits : ¬ n.refused = true := by simpa [List.find?_singleton] using hnone
    exact ⟨(n.value, s), by rw [n.read_run, if_neg hfits]⟩

theorem Atom.checks (a : Atom) : Checks line a.numerals (a.read line) := by
  cases a with
  | number n => exact n.checks.map Operand.literal
  | name x => exact (checks_mention x).map Operand.var

theorem Place.checks (p : Place) : Checks line p.numerals (p.read line) := by
  cases p with
  | element array index =>
    have h : Checks line (index.numerals ++ []) (Place.read line (.element array index)) :=
      index.checks.bind fun i => (checks_mention array).map (Expr.element · i)
    rwa [List.append_nil] at h
  | field base member => exact ⟨fun _ h => (nomatch h), fun _ s => ⟨_, readField_run base member s⟩⟩
  | name x => exact (checks_mention x).map fun v => Expr.operand (.var v)

theorem Source.checks (x : Source) : Checks line x.numerals (x.read line) := by
  cases x with
  | allocate type => exact .pure _
  | cast type value => exact value.checks.map _
  | binary left op right => exact left.checks.bind fun l => right.checks.map _
  | negate name => exact (checks_mention name).map _
  | number n => exact n.checks.map _
  | place p => exact p.checks

/-! ## Forms -/

/-- The variables that a form declares, with their types. -/
def Form.declared : Form → List (Ty × String)
  | param type name => [(.ofName type, name)]
  | declare type names => names.map (.ofName type, ·)
  | _ => []

/-- What a form can have against a scope, or against itself. -/
inductive Clashes (s : Scope) : Form → SyntaxFault → Prop
  | duplicateParam {type name : String} {v : Var} :
      v ∈ s.params → v.name = name → Clashes s (.param type name) (.duplicateParam name)
  | redeclared {form : Form} {type : Ty} {name : String} {v : Var} :
      (type, name) ∈ form.declared → s.find? name = some v → v.type ≠ type →
      Clashes s form (.redeclared name type v.type)
  | duplicateCase {name : String} {arms : List (Numeral × String)} {default : Option String} {n : Int} :
      List.Duplicate n (arms.map (·.1.value)) → Clashes s (.switch name arms default) (.duplicateCase n)

/-- Forms that are checked against a scope, or against themselves. -/
def Form.canClash : Form → Bool
  | param .. | declare .. | switch .. => true
  | _ => false

theorem Form.checks {form : Form} (h : form.canClash = false) : Checks line form.numerals (form.read line) := by
  cases form with
  | param | declare | switch => cases h
  | branch left op right label => exact left.checks.bind fun l => right.checks.map _
  | goto label => exact .pure _
  | «return» value => exact (Checks.optional Atom.checks value).map _
  | nop => exact .pure _
  | invoke result method args =>
    have hresult : Checks line [] (result.mapM mention) := by
      have hmention : Checks line (result.elim [] fun _ => []) (result.mapM mention) :=
        Checks.optional checks_mention result
      cases result <;> exact hmention
    have h : Checks line (args.flatMap Atom.numerals ++ []) (Form.read line (.invoke result method args)) :=
      (Checks.mapM Atom.checks args).bind fun os => hresult.map _
    rwa [List.append_nil] at h
  | assign place source => exact place.checks.bind fun target => source.checks.map _

theorem checks_arms (arms : List (Numeral × String)) :
    Checks line (arms.map (·.1)) (arms.mapM fun (n, label) => return (← n.read line, some label)) := by
  have h : ∀ arm : Numeral × String, Checks line [arm.1] (arm.1.read line >>= fun i => Pure.pure (i, some arm.2)) :=
    fun arm => arm.1.checks.map _
  rw [List.map_eq_flatMap]
  exact Checks.mapM h arms

/-- A form fails at its first literal that is refused, whatever is known. -/
theorem Form.read_refused {form : Form} {k : Numeral} (h : form.numerals.find? Numeral.refused = some k) (s : Scope) :
    (form.read line).run s = .error (k.fault line) := by
  cases form with
  | param | declare => cases h
  | switch scrutinee arms default => exact run_bind_error.2 (.inl ((checks_arms arms).fails k h s))
  | branch | goto | «return» | nop | invoke | assign => exact (Form.checks rfl).fails k h s

theorem declare_error {type : Ty} {name : String} (h : (declare line type name).run s = .error e) :
    ∃ v, s.find? name = some v ∧ v.type ≠ type ∧ e = .atLine line (.redeclared name type v.type) := by
  unfold declare at h
  rcases run_bind_error.1 h with h | ⟨scope, s₁, hget, h⟩
  · cases h
  cases hget
  split at h
  next v hv =>
    split at h
    · cases h
    next htype =>
      cases h
      exact ⟨v, hv, htype, rfl⟩
  next => cases h

/-- A declaration makes only its own variable known. -/
theorem find?_of_declare {type : Ty} {name : String} {v : Var} (h : (declare line type name).run s = .ok (v, s'))
    {n : String} {u : Var} (hu : s'.find? n = some u) (htype : u.type ≠ type) : s.find? n = some u := by
  unfold declare at h
  obtain ⟨scope, s₁, hget, h⟩ := run_bind_ok h
  cases hget
  split at h
  next =>
    split at h
    · cases h
      exact hu
    · cases h
  next =>
    obtain ⟨u', s₂, hset, h⟩ := run_bind_ok h
    cases hset
    cases h
    rw [Scope.find?, Scope.push, List.find?_append, Option.or_eq_some_iff] at hu
    rcases hu with hu | ⟨-, hu⟩
    · exact hu
    · obtain rfl := List.mem_singleton.1 (List.mem_of_find?_eq_some hu)
      exact absurd rfl htype

theorem forM_declare_error {type : Ty} {names : List String}
    (h : (names.forM fun name => discard (declare line type name)).run s = .error e) :
    ∃ name ∈ names, ∃ v, s.find? name = some v ∧ v.type ≠ type ∧ e = .atLine line (.redeclared name type v.type) := by
  induction names generalizing s with
  | nil => cases h
  | cons name names ih =>
    rcases run_bind_error.1 h with h | ⟨u, s₁, hname, h⟩
    · rcases bind_error_iff.1 h with h | ⟨p, -, h⟩
      · obtain ⟨v, hv⟩ := declare_error h
        exact ⟨name, List.mem_cons_self, v, hv⟩
      · cases h
    · obtain ⟨⟨v, s₂⟩, hv, heq⟩ := bind_ok_iff.1 hname
      cases heq
      obtain ⟨n, hn, u, hu, htype, rfl⟩ := ih h
      exact ⟨n, List.mem_cons_of_mem name hn, u, find?_of_declare hv hu htype, htype, rfl⟩

theorem duplicate_of_repeated? {seen is : List Int} {i : Int} (h : repeated? seen is = some i) :
    (i ∈ is ∧ i ∈ seen) ∨ List.Duplicate i is := by
  induction is generalizing seen with
  | nil => cases h
  | cons n rest ih =>
    unfold repeated? at h
    split at h
    next hn =>
      cases h
      exact .inl ⟨List.mem_cons_self, hn⟩
    next =>
      rcases ih h with ⟨hi, hseen⟩ | hi
      · rcases List.mem_cons.1 hseen with rfl | hseen
        · exact .inr (.cons_mem hi)
        · exact .inl ⟨List.mem_cons_of_mem n hi, hseen⟩
      · exact .inr (.cons_duplicate hi)

/-- A form fails at a literal that is refused, or because it clashes. -/
theorem Form.read_error {form : Form} (h : (form.read line).run s = .error e) :
    (∃ k, form.numerals.find? Numeral.refused = some k ∧ e = k.fault line) ∨
      ∃ fault, Clashes s form fault ∧ e = .atLine line fault := by
  cases form with
  | param type name =>
    rcases run_bind_error.1 h with h | ⟨scope, s₁, hget, h⟩
    · cases h
    cases hget
    split at h
    next hparam =>
      cases h
      obtain ⟨v, hv, hname⟩ := List.any_eq_true.1 hparam
      exact .inr ⟨_, .duplicateParam hv (of_decide_eq_true hname), rfl⟩
    next =>
      rcases run_bind_error.1 h with h | ⟨v, s₂, -, h⟩
      · obtain ⟨v, hv, htype, rfl⟩ := declare_error h
        exact .inr ⟨_, .redeclared List.mem_cons_self hv htype, rfl⟩
      · rcases run_bind_error.1 h with h | ⟨u, s₃, -, h⟩ <;> cases h
  | declare type names =>
    rcases run_bind_error.1 h with h | ⟨u, s₁, -, h⟩
    · obtain ⟨name, hname, v, hv, htype, rfl⟩ := forM_declare_error h
      exact .inr ⟨_, .redeclared (List.mem_map_of_mem hname) hv htype, rfl⟩
    · cases h
  | switch scrutinee arms default =>
    rcases run_bind_error.1 h with h | ⟨cases, s₁, harms, h⟩
    · exact .inl ((checks_arms arms).exists_of_error h)
    rcases run_bind_error.1 h with h | ⟨v, s₂, -, h⟩
    · rw [mention_run] at h
      cases h
    split at h
    next n hn =>
      cases h
      obtain ⟨-, rfl, -⟩ := arms_of_run harms
      rw [List.map_map] at hn
      rcases duplicate_of_repeated? hn with ⟨-, hmem⟩ | hduplicate
      · exact absurd hmem List.not_mem_nil
      · exact .inr ⟨_, .duplicateCase hduplicate, rfl⟩
    next => cases h
  | branch | goto | «return» | nop | invoke | assign => exact .inl ((Form.checks rfl).exists_of_error h)

end Dataflow.Reading
