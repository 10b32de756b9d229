import Dataflow.Proofs.Reading.Jumps
import Dataflow.Proofs.Reading.PrintedStatement
import Dataflow.Proofs.Routine.Texts
/-!
# Canonical forms

A statement shows its numbers without leading zeros, so its text is that of the canonical form of what its line says
(`text_of_form`). Wherever a form is read, its canonical form is read to the same statement (`Form.leads_canonical`).
-/
namespace Dataflow.Reading

/-- The literal of a number, without leading zeros. -/
def Numeral.ofInt : Int → Numeral
  | .ofNat n => ⟨false, String.ofList (Decimal.digits n)⟩
  | .negSucc n => ⟨true, String.ofList (Decimal.digits (n + 1))⟩

def Atom.canonical : Atom → Atom
  | number n => number (.ofInt n.value)
  | name s => name s

def Place.canonical : Place → Place
  | element array index => element array index.canonical
  | field base member => field base member
  | name s => name s

def Source.canonical : Source → Source
  | allocate type => allocate type
  | cast type value => cast type value.canonical
  | binary left op right => binary left.canonical op right.canonical
  | negate name => negate name
  | number n => number (.ofInt n.value)
  | place p => place p.canonical

/-- The form with its literals as a statement shows them, if it neither declares nor jumps. -/
def Form.canonical : Form → Form
  | .return value => .return (value.map Atom.canonical)
  | invoke result method args => invoke result method (args.map Atom.canonical)
  | assign place source => assign place.canonical source.canonical
  | form => form

variable {α β : Type} {line : Nat}

/-! ## Literals -/

theorem Numeral.text_ofInt (i : Int) : (ofInt i).text = Decimal.text i := by
  cases i with
  | ofNat n => simp [ofInt, text, Decimal.text, Decimal.integer]
  | negSucc n =>
    rw [← String.toList_inj]
    simp [ofInt, text, Decimal.text, Decimal.integer]

theorem Numeral.value_ofInt (i : Int) : (ofInt i).value = i := by
  cases i with
  | ofNat n => simp [ofInt, value, Decimal.value_digits]
  | negSucc n =>
    simp [ofInt, value, Decimal.value_digits]
    omega

theorem isDigit_of_mem_digits {n : Nat} {c : Char} (h : c ∈ Decimal.digits n) : Grammar.isDigit c = true := by
  have hdigit := Decimal.isDigit_of_mem_digits h
  simp only [Char.isDigit, Bool.and_eq_true, decide_eq_true_eq] at hdigit
  simp only [Grammar.isDigit, Bool.and_eq_true, decide_eq_true_eq]
  exact hdigit

theorem spelled_digits (n : Nat) : Spells Grammar.isDigit Grammar.isDigit (String.ofList (Decimal.digits n)) := by
  cases hdigits : Decimal.digits n with
  | nil => exact absurd hdigits Nat.toDigits_ne_nil
  | cons c cs =>
    have hall : ∀ d ∈ c :: cs, Grammar.isDigit d = true := fun d hd => isDigit_of_mem_digits (hdigits ▸ hd)
    exact ⟨c, cs, String.toList_ofList, hall c List.mem_cons_self, fun d hd => hall d (List.mem_cons_of_mem c hd)⟩

theorem Numeral.spelled_ofInt (i : Int) : (ofInt i).Spelled := by
  cases i with
  | ofNat n => exact spelled_digits n
  | negSucc n => exact spelled_digits (n + 1)

theorem Numeral.shown_ofInt {i : Int} (h : Int32.Fits i) : Decimal.shown i = .ok (ofInt i).text := by
  rw [Decimal.shown_of_short h.short, text_ofInt]

theorem Numeral.length_ofInt (i : Int) : (ofInt i).digits.length = (Decimal.digits i.natAbs).length := by
  cases i <;> exact String.length_ofList

theorem Numeral.read_ofInt {i : Int} (h : Int32.Fits i) (s : Scope) : ((ofInt i).read line).run s = .ok (i, s) := by
  have hlength : ¬ (ofInt i).digits.length > Decimal.maxDigits := by
    rw [length_ofInt]
    exact Nat.not_lt.2 h.short
  rw [Numeral.read, if_neg hlength, value_ofInt]
  exact congrArg (StateT.run · s) (if_pos h)

/-! ## Reading -/

/-- Where the first of two readings succeeds, the second gives the same. -/
def Leads (m m' : Scoped α) : Prop := ∀ s p, m.run s = .ok p → m'.run s = .ok p

theorem Leads.refl (m : Scoped α) : Leads m m := fun _ _ h => h

theorem Leads.bind {m m' : Scoped α} {f f' : α → Scoped β} (hm : Leads m m') (hf : ∀ a, Leads (f a) (f' a)) :
    Leads (m >>= f) (m' >>= f') := by
  rintro s ⟨b, s'⟩ h
  obtain ⟨a, s₁, ha, hb⟩ := run_bind_ok h
  rw [StateT.run_bind, hm _ _ ha]
  exact hf a _ _ hb

theorem Leads.mapM {f g : α → Scoped β} {c : α → α} (h : ∀ a, Leads (f a) (g (c a))) (as : List α) :
    Leads (as.mapM f) ((as.map c).mapM g) := by
  induction as with
  | nil => exact .refl _
  | cons a as ih =>
    rw [List.map_cons, List.mapM_cons, List.mapM_cons]
    exact (h a).bind fun b => ih.bind fun bs => .refl _

theorem Leads.optional {f g : α → Scoped β} {c : α → α} (h : ∀ a, Leads (f a) (g (c a))) (a : Option α) :
    Leads (a.mapM f) ((a.map c).mapM g) := by
  cases a with
  | none => exact .refl _
  | some a =>
    rw [Option.map_some, Option.mapM_some, Option.mapM_some, map_eq_pure_bind, map_eq_pure_bind]
    exact (h a).bind fun b => .refl _

theorem Numeral.leads_ofInt (n : Numeral) : Leads (n.read line) ((ofInt n.value).read line) := by
  rintro s ⟨i, s'⟩ h
  obtain ⟨rfl, hfits⟩ := n.read_ok h
  obtain rfl := n.eq_value h
  exact read_ofInt hfits _

theorem Atom.leads_canonical (a : Atom) : Leads (a.read line) (a.canonical.read line) := by
  cases a with
  | number n => exact n.leads_ofInt.bind fun _ => .refl _
  | name s => exact .refl _

theorem Place.leads_canonical (p : Place) : Leads (p.read line) (p.canonical.read line) := by
  cases p with
  | element array index => exact index.leads_canonical.bind fun _ => .refl _
  | field base member => exact .refl _
  | name s => exact .refl _

theorem Source.leads_canonical (x : Source) : Leads (x.read line) (x.canonical.read line) := by
  cases x with
  | allocate type => exact .refl _
  | cast type value => exact value.leads_canonical.bind fun _ => .refl _
  | binary left op right => exact left.leads_canonical.bind fun _ => right.leads_canonical.bind fun _ => .refl _
  | negate name => exact .refl _
  | number n => exact n.leads_ofInt.bind fun _ => .refl _
  | place p => exact p.leads_canonical

theorem Form.leads_canonical (form : Form) : Leads (form.read line) (form.canonical.read line) := by
  cases form with
  | «return» value => exact (Leads.optional Atom.leads_canonical value).bind fun _ => .refl _
  | invoke result method args => exact (Leads.mapM Atom.leads_canonical args).bind fun _ => .refl _
  | assign place source => exact place.leads_canonical.bind fun _ => source.leads_canonical.bind fun _ => .refl _
  | param | declare | branch | goto | switch | nop => exact .refl _

/-! ## Texts -/

variable {s s' : Scope}

theorem Atom.text_of_read {a : Atom} {o : Operand} (h : (a.read line).run s = .ok (o, s')) :
    o.text = .ok a.canonical.text := by
  cases reads_of_run h with
  | number hfits => exact Numeral.shown_ofInt hfits
  | name hv => exact congrArg Except.ok (mention_name hv)

theorem Place.text_of_read {p : Place} {e : Expr} (h : (p.read line).run s = .ok (e, s')) :
    e.text = .ok p.canonical.text := by
  cases reads_of_run h with
  | element ho hv =>
    rw [Expr.text, Atom.text_of_read ho, mention_name hv]
    rfl
  | field hfind => rw [Expr.text, Scope.name_of_find? hfind, canonical, text]
  | static => rfl
  | name hv => exact congrArg Except.ok (mention_name hv)

theorem Source.text_of_read {x : Source} {e : Expr} (h : (x.read line).run s = .ok (e, s')) :
    e.text = .ok x.canonical.text := by
  cases reads_of_run h with
  | allocate => rw [Expr.text, Ty.name_ofName, canonical, text]
  | cast ho =>
    rw [Expr.text, Ty.name_ofName, Atom.text_of_read ho]
    rfl
  | binary hl hr =>
    rw [Expr.text, Atom.text_of_read hl, Atom.text_of_read hr]
    rfl
  | negate hv => rw [Expr.text, mention_name hv, canonical, text]
  | number hfits => exact Numeral.shown_ofInt hfits
  | place hp => exact Place.text_of_read hp

theorem text_call {method : String} {args : List Atom} {os : List Operand}
    (h : (args.mapM (Atom.read line)).run s = .ok (os, s')) :
    (Expr.call method os).text = .ok (callText method (args.map Atom.canonical)) := by
  have hargs : List.Forall₂ (fun a o => Operand.text o = .ok a.canonical.text) args os :=
    forall₂_of_run_mapM (R := fun a o => Operand.text o = .ok a.canonical.text) (fun ho => Atom.text_of_read ho) h
  have htexts : os.mapM Operand.text = .ok (args.map fun a => a.canonical.text) :=
    mapM_of_forall₂ (List.forall₂_map_right_iff.2 hargs.flip)
  rw [Expr.text, htexts, callText, List.map_map]
  rfl

/-- What neither declares nor jumps. -/
def plainKinds : List String := ["AssignStmt", "Invoke", "Return", "Nop"]

/-- A statement that does not jump has the text of the canonical form that it comes from. -/
theorem text_of_form {form : Form} {x : Stmt String} {y : Statement} {f : String → Except ReadError Target}
    (h : (form.read line).run s = .ok (some x, s')) (hmap : x.mapTargets f = .ok y) (hkind : y.kind ∈ plainKinds) :
    ∃ t, y.text = .ok t ∧ form.canonical.text? = some t := by
  cases Form.reads_of_run h with
  | branch | goto =>
    obtain ⟨target, -, hmap⟩ := bind_ok_iff.1 hmap
    cases hmap
    simp [plainKinds, Stmt.kind] at hkind
  | switch =>
    obtain ⟨cases', -, hmap⟩ := bind_ok_iff.1 hmap
    obtain ⟨last, -, hmap⟩ := bind_ok_iff.1 hmap
    cases hmap
    simp [plainKinds, Stmt.kind] at hkind
  | leave | nop =>
    cases hmap
    exact ⟨_, rfl, rfl⟩
  | «return» ha =>
    cases hmap
    refine ⟨_, ?_, rfl⟩
    rw [Stmt.text, Atom.text_of_read ha]
    rfl
  | call hargs =>
    cases hmap
    exact ⟨_, text_call hargs, rfl⟩
  | invoke hargs hv =>
    cases hmap
    refine ⟨_, ?_, rfl⟩
    rw [Stmt.text, text_call hargs, mention_name hv]
    rfl
  | assign ht hv =>
    cases hmap
    refine ⟨_, ?_, rfl⟩
    rw [Stmt.text, Place.text_of_read ht, Source.text_of_read hv]
    rfl

/-! ## Spelling -/

theorem Atom.Spelled.canonical {a : Atom} (h : a.Spelled) : a.canonical.Spelled := by
  cases a with
  | number n => exact Numeral.spelled_ofInt n.value
  | name s => exact h

theorem Place.Spelled.canonical {p : Place} (h : p.Spelled) : p.canonical.Spelled := by
  cases p with
  | element array index => exact ⟨h.1, h.2.canonical⟩
  | field base member => exact h
  | name s => exact h

theorem Source.Spelled.canonical {x : Source} (h : x.Spelled) : x.canonical.Spelled := by
  cases x with
  | allocate type => exact h
  | cast type value => exact ⟨h.1, h.2.canonical⟩
  | binary left op right => exact ⟨h.1.canonical, h.2.canonical⟩
  | negate name => exact h
  | number n => exact Numeral.spelled_ofInt n.value
  | place p => exact Place.Spelled.canonical h

theorem Form.Spelled.canonical {form : Form} (h : form.Spelled) : form.canonical.Spelled := by
  cases form with
  | «return» value =>
    intro a ha
    obtain ⟨b, hb, rfl⟩ := Option.map_eq_some_iff.1 ha
    exact (h b hb).canonical
  | invoke result method args =>
    refine ⟨h.1, h.2.1, ?_⟩
    intro a ha
    obtain ⟨b, hb, rfl⟩ := List.mem_map.1 ha
    exact (h.2.2 b hb).canonical
  | assign place source =>
    refine ⟨h.1.canonical, ?_, h.2.2.canonical⟩
    cases place <;> exact h.2.1
  | param | declare | branch | goto | switch | nop => exact h

end Dataflow.Reading
