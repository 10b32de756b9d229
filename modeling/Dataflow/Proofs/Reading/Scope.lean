import Dataflow.Proofs.Fold
import Dataflow.Proofs.Routine.Fits
import Dataflow.Reading.Scope
/-!
# How a line is read

`Form.reads_of_run` says what a form can be read to, and by which steps; what holds of a form that has been read is shown
by cases on them. Reading only adds to the variables of a scope, and what has been read mentions variables of the scope
after it. A literal that does not fit in 32 bits is refused.
-/
namespace Dataflow.Reading

/-- A scope that comes later: it knows at least the same variables, and its parameters are among them if they were. -/
structure Scope.Grows (s s' : Scope) : Prop where
  vars : s.vars ⊆ s'.vars
  params : s.params ⊆ s.vars → s'.params ⊆ s'.vars

variable {α β : Type} {line : Nat} {s s' : Scope}

theorem Scope.Grows.refl (s : Scope) : s.Grows s := ⟨List.Subset.refl _, id⟩

theorem Scope.Grows.trans {s₁ : Scope} (h : s.Grows s₁) (h' : s₁.Grows s') : s.Grows s' :=
  ⟨List.Subset.trans h.vars h'.vars, fun hp => h'.params (h.params hp)⟩

theorem Scope.grows_push (s : Scope) (v : Var) : s.Grows (s.push v) :=
  ⟨List.subset_append_left _ _, fun hp => List.Subset.trans hp (List.subset_append_left _ _)⟩

theorem run_bind_ok {m : Scoped α} {f : α → Scoped β} {b : β} (h : (m >>= f).run s = .ok (b, s')) :
    ∃ a s₁, m.run s = .ok (a, s₁) ∧ (f a).run s₁ = .ok (b, s') := by
  rw [StateT.run_bind] at h
  obtain ⟨⟨a, s₁⟩, hm, hf⟩ := bind_ok_iff.1 h
  exact ⟨a, s₁, hm, hf⟩

/-! ## Names -/

theorem mention_run (n : String) (s : Scope) :
    (mention n).run s = .ok ((s.find? n).elim ({ name := n }, s.push { name := n }) fun u => (u, s)) := by
  cases h : s.find? n <;> simp only [mention, StateT.run_bind, StateT.run_get, pure_bind, h] <;> rfl

theorem mention_ok {name : String} {v : Var} (h : (mention name).run s = .ok (v, s')) : s.Grows s' ∧ v ∈ s'.vars := by
  unfold mention at h
  obtain ⟨scope, s₁, hget, h⟩ := run_bind_ok h
  cases hget
  split at h
  next w hw =>
    cases h
    exact ⟨.refl s, List.mem_of_find?_eq_some hw⟩
  next =>
    obtain ⟨u, s₂, hset, h⟩ := run_bind_ok h
    cases hset
    cases h
    exact ⟨s.grows_push _, List.mem_append_right _ List.mem_cons_self⟩

theorem Scope.name_of_find? {name : String} {v : Var} (h : s.find? name = some v) : v.name = name := by
  simpa using List.find?_some h

theorem mention_name {name : String} {v : Var} (h : (mention name).run s = .ok (v, s')) : v.name = name := by
  rw [mention_run] at h
  cases hfind : s.find? name with
  | none =>
    rw [hfind] at h
    cases h
    rfl
  | some u =>
    rw [hfind] at h
    cases h
    exact Scope.name_of_find? hfind

theorem declare_ok {type : Ty} {name : String} {v : Var} (h : (declare line type name).run s = .ok (v, s')) :
    s.Grows s' ∧ v ∈ s'.vars := by
  unfold declare at h
  obtain ⟨scope, s₁, hget, h⟩ := run_bind_ok h
  cases hget
  split at h
  next w hw =>
    split at h
    · cases h
      exact ⟨.refl s, List.mem_of_find?_eq_some hw⟩
    · cases h
  next =>
    obtain ⟨u, s₂, hset, h⟩ := run_bind_ok h
    cases hset
    cases h
    exact ⟨s.grows_push _, List.mem_append_right _ List.mem_cons_self⟩

theorem readField_run (base member : String) (s : Scope) :
    (readField base member).run s =
      .ok ((s.find? base).elim (.staticField base member) fun u => .field u member, s) := by
  cases h : s.find? base <;> simp only [readField, StateT.run_bind, StateT.run_get, pure_bind, h] <;> rfl

/-! ## Steps -/

theorem Numeral.read_ok {n : Numeral} {i : Int} (h : (n.read line).run s = .ok (i, s')) : s' = s ∧ Int32.Fits i := by
  unfold Numeral.read at h
  split at h
  · cases h
  · split at h
    next hfits =>
      cases h
      exact ⟨rfl, hfits⟩
    next => cases h

theorem Numeral.eq_value {n : Numeral} {i : Int} (h : (n.read line).run s = .ok (i, s')) : i = n.value := by
  unfold Numeral.read at h
  split at h
  · cases h
  · split at h
    next =>
      cases h
      rfl
    next => cases h

/-- An atom is read to an operand, in one scope and to another. -/
inductive Atom.Reads (line : Nat) (s : Scope) : Atom → Operand → Scope → Prop
  | number {n : Numeral} : Int32.Fits n.value → Reads line s (.number n) (.literal n.value) s
  | name {x : String} {v : Var} {s' : Scope} : (mention x).run s = .ok (v, s') → Reads line s (.name x) (.var v) s'

inductive Place.Reads (line : Nat) (s : Scope) : Place → Expr → Scope → Prop
  | element {array : String} {index : Atom} {o : Operand} {v : Var} {s₁ s' : Scope} :
      (index.read line).run s = .ok (o, s₁) → (mention array).run s₁ = .ok (v, s') →
      Reads line s (.element array index) (.element v o) s'
  | field {base member : String} {v : Var} :
      s.find? base = some v → Reads line s (.field base member) (.field v member) s
  | static {base member : String} :
      s.find? base = none → Reads line s (.field base member) (.staticField base member) s
  | name {x : String} {v : Var} {s' : Scope} : (mention x).run s = .ok (v, s') → Reads line s (.name x) (.var v) s'

inductive Source.Reads (line : Nat) (s : Scope) : Source → Expr → Scope → Prop
  | allocate {type : String} : Reads line s (.allocate type) (.allocate (.ofName type)) s
  | cast {type : String} {value : Atom} {o : Operand} {s' : Scope} :
      (value.read line).run s = .ok (o, s') → Reads line s (.cast type value) (.cast (.ofName type) o) s'
  | binary {left right : Atom} {op : BinOp} {l r : Operand} {s₁ s' : Scope} :
      (left.read line).run s = .ok (l, s₁) → (right.read line).run s₁ = .ok (r, s') →
      Reads line s (.binary left op right) (.binary op l r) s'
  | negate {x : String} {v : Var} {s' : Scope} :
      (mention x).run s = .ok (v, s') → Reads line s (.negate x) (.negate v) s'
  | number {n : Numeral} : Int32.Fits n.value → Reads line s (.number n) (.literal n.value) s
  | place {p : Place} {e : Expr} {s' : Scope} : (p.read line).run s = .ok (e, s') → Reads line s (.place p) e s'

/-- How a form is read. The numbers of the arms of a switch mention no names. -/
inductive Form.Reads (line : Nat) (s : Scope) : Form → Option (Stmt String) → Scope → Prop
  | param {type name : String} {v : Var} {s' : Scope} :
      name ∉ s.params.map Var.name → (Reading.declare line (.ofName type) name).run s = .ok (v, s') →
      Reads line s (.param type name) none { s' with params := s'.params ++ [v] }
  | declare {type : String} {names : List String} {u : Unit} {s' : Scope} :
      (names.forM fun name => discard (Reading.declare line (.ofName type) name)).run s = .ok (u, s') →
      Reads line s (.declare type names) none s'
  | branch {left right : Atom} {op : CompareOp} {label : String} {l r : Operand} {s₁ s' : Scope} :
      (left.read line).run s = .ok (l, s₁) → (right.read line).run s₁ = .ok (r, s') →
      Reads line s (.branch left op right label) (some (.branch (.binary (.compare op) l r) (some label))) s'
  | goto {label : String} : Reads line s (.goto label) (some (.goto (some label))) s
  | switch {scrutinee : String} {arms : List (Numeral × String)} {default : Option String} {v : Var} {s' : Scope} :
      (∀ arm ∈ arms, Int32.Fits arm.1.value) → repeated? [] (arms.map fun arm => arm.1.value) = none →
      (mention scrutinee).run s = .ok (v, s') →
      Reads line s (.switch scrutinee arms default)
        (some (.switch v (arms.map fun arm => (arm.1.value, some arm.2)) default)) s'
  | leave : Reads line s (.return none) (some (.return none)) s
  | return {a : Atom} {o : Operand} {s' : Scope} :
      (a.read line).run s = .ok (o, s') → Reads line s (.return (some a)) (some (.return (some o))) s'
  | nop : Reads line s .nop (some .nop) s
  | call {method : String} {args : List Atom} {os : List Operand} {s' : Scope} :
      (args.mapM (Atom.read line)).run s = .ok (os, s') →
      Reads line s (.invoke none method args) (some (.invoke (.call method os) none)) s'
  | invoke {x method : String} {args : List Atom} {os : List Operand} {v : Var} {s₁ s' : Scope} :
      (args.mapM (Atom.read line)).run s = .ok (os, s₁) → (mention x).run s₁ = .ok (v, s') →
      Reads line s (.invoke (some x) method args) (some (.invoke (.call method os) (some v))) s'
  | assign {place : Place} {source : Source} {target value : Expr} {s₁ s' : Scope} :
      (place.read line).run s = .ok (target, s₁) → (source.read line).run s₁ = .ok (value, s') →
      Reads line s (.assign place source) (some (.assign target value)) s'

theorem Atom.reads_of_run {a : Atom} {o : Operand} (h : (a.read line).run s = .ok (o, s')) : a.Reads line s o s' := by
  cases a with
  | number n =>
    obtain ⟨i, s₁, hn, h⟩ := run_bind_ok h
    cases h
    obtain ⟨rfl, hfits⟩ := n.read_ok hn
    obtain rfl := n.eq_value hn
    exact .number hfits
  | name x =>
    obtain ⟨v, s₁, hv, h⟩ := run_bind_ok h
    cases h
    exact .name hv

theorem Place.reads_of_run {p : Place} {e : Expr} (h : (p.read line).run s = .ok (e, s')) : p.Reads line s e s' := by
  cases p with
  | element array index =>
    obtain ⟨o, s₁, ho, h⟩ := run_bind_ok h
    obtain ⟨v, s₂, hv, h⟩ := run_bind_ok h
    cases h
    exact .element ho hv
  | field base member =>
    have hrun := h.symm.trans (readField_run base member s)
    cases hfind : s.find? base with
    | none =>
      rw [hfind] at hrun
      cases hrun
      exact .static hfind
    | some v =>
      rw [hfind] at hrun
      cases hrun
      exact .field hfind
  | name x =>
    obtain ⟨v, s₁, hv, h⟩ := run_bind_ok h
    cases h
    exact .name hv

theorem Source.reads_of_run {x : Source} {e : Expr} (h : (x.read line).run s = .ok (e, s')) : x.Reads line s e s' := by
  cases x with
  | allocate type =>
    cases h
    exact .allocate
  | cast type value =>
    obtain ⟨o, s₁, ho, h⟩ := run_bind_ok h
    cases h
    exact .cast ho
  | binary left op right =>
    obtain ⟨l, s₁, hl, h⟩ := run_bind_ok h
    obtain ⟨r, s₂, hr, h⟩ := run_bind_ok h
    cases h
    exact .binary hl hr
  | negate name =>
    obtain ⟨v, s₁, hv, h⟩ := run_bind_ok h
    cases h
    exact .negate hv
  | number n =>
    obtain ⟨i, s₁, hn, h⟩ := run_bind_ok h
    cases h
    obtain ⟨rfl, hfits⟩ := n.read_ok hn
    obtain rfl := n.eq_value hn
    exact .number hfits
  | place p => exact .place h

theorem arms_of_run {arms : List (Numeral × String)} {cases : List (Int × Option String)}
    (h : (arms.mapM fun (n, label) => return (← n.read line, some label) : Scoped _).run s = .ok (cases, s')) :
    s' = s ∧ cases = arms.map (fun arm => (arm.1.value, some arm.2)) ∧ ∀ arm ∈ arms, Int32.Fits arm.1.value := by
  induction arms generalizing cases s with
  | nil =>
    rw [List.mapM_nil] at h
    cases h
    exact ⟨rfl, rfl, fun _ harm => absurd harm List.not_mem_nil⟩
  | cons arm arms ih =>
    rw [List.mapM_cons] at h
    obtain ⟨c, s₁, hc, h⟩ := run_bind_ok h
    obtain ⟨rest, s₂, hrest, h⟩ := run_bind_ok h
    cases h
    obtain ⟨i, s₃, hn, hc⟩ := run_bind_ok hc
    cases hc
    obtain ⟨rfl, hfits⟩ := arm.1.read_ok hn
    obtain rfl := arm.1.eq_value hn
    obtain ⟨rfl, rfl, hall⟩ := ih hrest
    exact ⟨rfl, rfl, List.forall_mem_cons.2 ⟨hfits, hall⟩⟩

theorem Form.reads_of_run {form : Form} {stmt : Option (Stmt String)} (h : (form.read line).run s = .ok (stmt, s')) :
    form.Reads line s stmt s' := by
  cases form with
  | param type name =>
    obtain ⟨scope, s₁, hget, h⟩ := run_bind_ok h
    cases hget
    split at h
    · cases h
    next hnew =>
      obtain ⟨v, s₂, hv, h⟩ := run_bind_ok h
      obtain ⟨u, s₃, hmodify, h⟩ := run_bind_ok h
      cases hmodify
      cases h
      exact .param (by simpa using hnew) hv
  | declare type names =>
    obtain ⟨u, s₁, hnames, h⟩ := run_bind_ok h
    cases h
    exact .declare hnames
  | branch left op right label =>
    obtain ⟨l, s₁, hl, h⟩ := run_bind_ok h
    obtain ⟨r, s₂, hr, h⟩ := run_bind_ok h
    cases h
    exact .branch hl hr
  | goto label =>
    cases h
    exact .goto
  | switch scrutinee arms default =>
    obtain ⟨cases, s₁, harms, h⟩ := run_bind_ok h
    obtain ⟨v, s₂, hv, h⟩ := run_bind_ok h
    split at h
    · cases h
    next hrepeated =>
      cases h
      obtain ⟨rfl, rfl, hfits⟩ := arms_of_run harms
      rw [List.map_map] at hrepeated
      exact .switch hfits hrepeated hv
  | «return» value =>
    obtain ⟨o, s₁, ho, h⟩ := run_bind_ok h
    cases h
    cases value with
    | none =>
      cases ho
      exact .leave
    | some a =>
      obtain ⟨⟨b, s₁⟩, ha, heq⟩ := bind_ok_iff.1 ho
      cases heq
      exact .return ha
  | nop =>
    cases h
    exact .nop
  | invoke result method args =>
    obtain ⟨os, s₁, hargs, h⟩ := run_bind_ok h
    obtain ⟨v, s₂, hv, h⟩ := run_bind_ok h
    cases h
    cases result with
    | none =>
      cases hv
      exact .call hargs
    | some x =>
      obtain ⟨⟨w, s₃⟩, hw, heq⟩ := bind_ok_iff.1 hv
      cases heq
      exact .invoke hargs hw
  | assign place source =>
    obtain ⟨target, s₁, ht, h⟩ := run_bind_ok h
    obtain ⟨value, s₂, hv, h⟩ := run_bind_ok h
    cases h
    exact .assign ht hv

/-! ## Operands and expressions -/

theorem Atom.read_ok {a : Atom} {o : Operand} (h : (a.read line).run s = .ok (o, s')) :
    s.Grows s' ∧ o.Fits s'.vars := by
  cases reads_of_run h with
  | number hfits => exact ⟨.refl _, .literal hfits⟩
  | name hv =>
    obtain ⟨hgrow, hmem⟩ := mention_ok hv
    exact ⟨hgrow, .var hmem⟩

theorem args_read_ok {args : List Atom} {os : List Operand} (h : (args.mapM (Atom.read line)).run s = .ok (os, s')) :
    s.Grows s' ∧ ∀ o ∈ os, o.Fits s'.vars := by
  induction args generalizing s os with
  | nil =>
    rw [List.mapM_nil] at h
    cases h
    exact ⟨.refl _, fun _ ho => absurd ho List.not_mem_nil⟩
  | cons a args ih =>
    rw [List.mapM_cons] at h
    obtain ⟨o, s₁, ha, h⟩ := run_bind_ok h
    obtain ⟨os', s₂, hargs, h⟩ := run_bind_ok h
    cases h
    -- The first argument was read in an earlier scope than the rest.
    obtain ⟨hgrow, ho⟩ := a.read_ok ha
    obtain ⟨hgrows, hos⟩ := ih hargs
    exact ⟨hgrow.trans hgrows, List.forall_mem_cons.2 ⟨ho.mono hgrows.vars, hos⟩⟩

theorem Place.read_ok {p : Place} {e : Expr} (h : (p.read line).run s = .ok (e, s')) : s.Grows s' ∧ e.Fits s'.vars := by
  cases reads_of_run h with
  | element ho hv =>
    obtain ⟨hgrow, hfits⟩ := Atom.read_ok ho
    obtain ⟨hgrow', hmem⟩ := mention_ok hv
    exact ⟨hgrow.trans hgrow', (Fits.var hmem).append (hfits.mono hgrow'.vars)⟩
  | field hfind => exact ⟨.refl _, .var (List.mem_of_find?_eq_some hfind)⟩
  | static => exact ⟨.refl _, .nil⟩
  | name hv =>
    obtain ⟨hgrow, hmem⟩ := mention_ok hv
    exact ⟨hgrow, .var hmem⟩

theorem Source.read_ok {x : Source} {e : Expr} (h : (x.read line).run s = .ok (e, s')) :
    s.Grows s' ∧ e.Fits s'.vars := by
  cases reads_of_run h with
  | allocate => exact ⟨.refl _, .nil⟩
  | cast ho => exact Atom.read_ok ho
  | binary hl hr =>
    obtain ⟨hgrow, hfits⟩ := Atom.read_ok hl
    obtain ⟨hgrow', hfits'⟩ := Atom.read_ok hr
    exact ⟨hgrow.trans hgrow', (hfits.mono hgrow'.vars).append hfits'⟩
  | negate hv =>
    obtain ⟨hgrow, hmem⟩ := mention_ok hv
    exact ⟨hgrow, .var hmem⟩
  | number hfits => exact ⟨.refl _, .literal hfits⟩
  | place hp => exact Place.read_ok hp

end Dataflow.Reading
