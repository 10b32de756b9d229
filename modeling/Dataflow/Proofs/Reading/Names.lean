import Dataflow.Proofs.Reading.Labels
/-!
# What names stand for

A name becomes known where it is declared or first mentioned as a variable, and stands for one variable from there on
(`Scope.Learns`). So what is read in place of a name depends on the lines before it and on what stands to its left: a
field is that of a variable exactly if its base is known there (`wellNamed_read`).
-/
namespace Dataflow

/-! ## The variables of a routine -/

/-- The variables that stand anywhere in a statement. -/
def Stmt.vars {τ : Type} : Stmt τ → List Var
  | assign target value => target.uses ++ value.uses
  | invoke call result => result.toList ++ call.uses
  | branch condition _ => condition.uses
  | switch scrutinee _ _ => [scrutinee]
  | .return value => value.elim [] Operand.uses
  | goto _ | nop => []

/-- The variables that stand anywhere in a routine. -/
def Routine.occurring (r : Routine) : List Var :=
  r.params ++ r.vars ++ r.body.toList.flatMap fun line => line.stmt.vars

theorem Expr.uses_of_var? {e : Expr} {v : Var} (h : e.var? = some v) : e.uses = [v] := by
  unfold Expr.var? at h
  split at h
  next =>
    cases h
    rfl
  next => cases h

/-- A variable that stands in a statement is written or read. -/
theorem Stmt.vars_subset {τ : Type} (x : Stmt τ) : x.vars ⊆ x.defined?.toList ++ x.uses := by
  cases x with
  | assign target value =>
    change target.uses ++ value.uses ⊆
      target.var?.toList ++ (value.uses ++ if target.var?.isSome then [] else target.uses)
    cases htarget : target.var? with
    | none => simp
    | some v => simp [Expr.uses_of_var? htarget]
  | invoke call result =>
    cases result <;> exact List.Subset.refl _
  | branch | goto | switch | «return» | nop => exact List.Subset.refl _

theorem Routine.Fits.occurring_subset {r : Routine} (h : r.Fits) : r.occurring ⊆ r.vars := by
  refine List.append_subset.2 ⟨List.append_subset.2 ⟨h.params, List.Subset.refl _⟩, ?_⟩
  intro v hv
  obtain ⟨line, hline, hv⟩ := List.mem_flatMap.1 hv
  exact (h.body line (Array.mem_toList_iff.1 hline)).vars (line.stmt.vars_subset hv)

namespace Reading

/-! ## The names of a line -/

def Atom.names : Atom → List String
  | number _ => []
  | name s => [s]

/-- The base of a field is not mentioned as a variable: it stands for one only if that is known already. -/
def Place.names : Place → List String
  | element array index => index.names ++ [array]
  | field .. => []
  | name s => [s]

def Source.names : Source → List String
  | allocate _ | number _ => []
  | cast _ value => value.names
  | binary left _ right => left.names ++ right.names
  | negate name => [name]
  | place p => p.names

/-- The names that a form declares or mentions as variables. -/
def Form.names : Form → List String
  | param _ name => [name]
  | declare _ names => names
  | branch left _ right _ => left.names ++ right.names
  | goto _ | nop => []
  | switch scrutinee _ _ => [scrutinee]
  | .return value => value.elim [] Atom.names
  | invoke result _ args => args.flatMap Atom.names ++ result.toList
  | assign place source => place.names ++ source.names

def SourceLine.names (source : SourceLine) : List String := source.form.elim [] Form.names

/-- A line before a given one declares a name or mentions it as a variable. -/
def KnownBefore (lines : List (List Char × Nat)) (n : Nat) (name : String) : Prop :=
  ∃ m < n, ∃ source, Says lines m source ∧ name ∈ source.names

/-! ## What a form means -/

inductive Atom.Means : Atom → Operand → Prop
  | number {n : Numeral} : Means (.number n) (.literal n.value)
  | name {v : Var} : Means (.name v.name) (.var v)

/-- What a place stands for where some names are known. -/
inductive Place.Means (known : String → Prop) : Place → Expr → Prop
  | element {v : Var} {index : Atom} {o : Operand} : index.Means o → Means known (.element v.name index) (.element v o)
  /-- A field of a variable, if one of the name is known. -/
  | field {v : Var} {member : String} : known v.name → Means known (.field v.name member) (.field v member)
  /-- A static field, if none is. -/
  | static {base member : String} : ¬ known base → Means known (.field base member) (.staticField base member)
  | name {v : Var} : Means known (.name v.name) (.var v)

inductive Source.Means (known : String → Prop) : Source → Expr → Prop
  | allocate {type : String} : Means known (.allocate type) (.allocate (.ofName type))
  | cast {type : String} {a : Atom} {o : Operand} : a.Means o → Means known (.cast type a) (.cast (.ofName type) o)
  | binary {left right : Atom} {op : BinOp} {o o' : Operand} :
      left.Means o → right.Means o' → Means known (.binary left op right) (.binary op o o')
  | negate {v : Var} : Means known (.negate v.name) (.negate v)
  | number {n : Numeral} : Means known (.number n) (.literal n.value)
  | place {p : Place} {e : Expr} : p.Means known e → Means known (.place p) e

/-- What a form stands for where some names are known, its targets and arms aside. On the right of an assignment the
names on its left are known as well. -/
inductive Form.Means {τ : Type} (known : String → Prop) : Form → Stmt τ → Prop
  | branch {left right : Atom} {op : CompareOp} {label : String} {o o' : Operand} {target : Option τ} :
      left.Means o → right.Means o' →
      Means known (.branch left op right label) (.branch (.binary (.compare op) o o') target)
  | goto {label : String} {target : Option τ} : Means known (.goto label) (.goto target)
  | switch {v : Var} {arms : List (Numeral × String)} {default : Option String} {cases : List (Int × Option τ)}
      {last : Option τ} : Means known (.switch v.name arms default) (.switch v cases last)
  | return {a : Option Atom} {o : Option Operand} : Option.Rel Atom.Means a o → Means known (.return a) (.return o)
  | nop : Means known .nop .nop
  | invoke {name : Option String} {method : String} {args : List Atom} {os : List Operand} {result : Option Var} :
      List.Forall₂ Atom.Means args os → result.map Var.name = name →
      Means known (.invoke name method args) (.invoke (.call method os) result)
  | assign {place : Place} {source : Source} {target value : Expr} :
      place.Means known target → source.Means (fun name => known name ∨ name ∈ place.names) value →
      Means known (.assign place source) (.assign target value)

/-- The names of a routine that has been read from some lines: one variable for each, and at every place what the line
says, given the names that are known there. -/
structure WellNamed (lines : List (List Char × Nat)) (r : Routine) : Prop where
  type_eq : ∀ v ∈ r.occurring, ∀ w ∈ r.occurring, v.name = w.name → v.type = w.type
  nodup : r.vars.Nodup
  listed : r.occurring ⊆ r.vars
  params : (r.params.map Var.name).Nodup
  means : ∀ line ∈ r.body, line.stmt = .nop ∨ ∃ n source form, line.number = some n ∧ Says lines n source ∧
    source.form = some form ∧ form.Means (KnownBefore lines n) line.stmt

/-! ## What a scope learns -/

variable {α β : Type} {line : Nat} {s s₁ s' : Scope} {ns ns' : List String} {name : String} {v : Var}

def Scope.Knows (s : Scope) (name : String) : Prop := name ∈ s.vars.map Var.name

/-- No two variables have one name, and no two parameters. -/
structure Scope.Distinct (s : Scope) : Prop where
  vars : (s.vars.map Var.name).Nodup
  params : (s.params.map Var.name).Nodup

/-- Between two scopes some names become known, if they were not before. -/
structure Scope.Learns (s : Scope) (ns : List String) (s' : Scope) : Prop where
  knows : ∀ name, s'.Knows name ↔ s.Knows name ∨ name ∈ ns
  distinct : s.Distinct → s'.Distinct

theorem Scope.knows_of_find? (h : s.find? name = some v) : s.Knows name :=
  List.mem_map.2 ⟨v, List.mem_of_find?_eq_some h, name_of_find? h⟩

theorem Scope.not_knows_of_find? (h : s.find? name = none) : ¬ s.Knows name := by
  intro hname
  obtain ⟨v, hv, rfl⟩ := List.mem_map.1 hname
  simpa using List.find?_eq_none.1 h v hv

theorem Scope.Learns.refl (s : Scope) : s.Learns [] s := ⟨fun _ => by simp, id⟩

theorem Scope.Learns.trans (h : s.Learns ns s₁) (h' : s₁.Learns ns' s') : s.Learns (ns ++ ns') s' := by
  refine ⟨fun name => ?_, fun hs => h'.distinct (h.distinct hs)⟩
  rw [h'.knows, h.knows, List.mem_append, or_assoc]

theorem Scope.learns_of_find? (h : s.find? name = some v) : s.Learns [name] s := by
  refine ⟨fun n => ⟨.inl, ?_⟩, id⟩
  rintro (hn | hn)
  · exact hn
  · exact List.mem_singleton.1 hn ▸ knows_of_find? h

theorem Scope.learns_push (h : s.find? name = none) (type : Ty) : s.Learns [name] (s.push ⟨name, type⟩) := by
  have hnames : (s.push ⟨name, type⟩).vars.map Var.name = s.vars.map Var.name ++ [name] := by simp [push]
  refine ⟨fun n => ?_, fun hs => ⟨?_, hs.params⟩⟩
  · rw [Knows, hnames, List.mem_append]
    rfl
  · rw [hnames, ← List.concat_eq_append, List.nodup_concat]
    exact ⟨not_knows_of_find? h, hs.vars⟩

theorem mention_learns (h : (mention name).run s = .ok (v, s')) : v.name = name ∧ s.Learns [name] s' := by
  refine ⟨mention_name h, ?_⟩
  rw [mention_run] at h
  cases hfind : s.find? name with
  | none =>
    rw [hfind] at h
    cases h
    exact Scope.learns_push hfind _
  | some u =>
    rw [hfind] at h
    cases h
    exact Scope.learns_of_find? hfind

theorem declare_learns {type : Ty} (h : (declare line type name).run s = .ok (v, s')) :
    v.name = name ∧ s.Learns [name] s' ∧ s'.params = s.params := by
  unfold declare at h
  obtain ⟨scope, s₁, hget, h⟩ := run_bind_ok h
  cases hget
  split at h
  next u hu =>
    split at h
    · cases h
      exact ⟨Scope.name_of_find? hu, Scope.learns_of_find? hu, rfl⟩
    · cases h
  next hnew =>
    obtain ⟨u, s₂, hset, h⟩ := run_bind_ok h
    cases hset
    cases h
    exact ⟨rfl, Scope.learns_push hnew type, rfl⟩

theorem forM_declare_learns {type : Ty} {names : List String} {u : Unit}
    (h : (names.forM fun name => discard (declare line type name)).run s = .ok (u, s')) : s.Learns names s' := by
  induction names generalizing s with
  | nil =>
    cases h
    exact .refl _
  | cons name names ih =>
    obtain ⟨u₁, s₁, hname, h⟩ := run_bind_ok h
    obtain ⟨⟨v, s₂⟩, hv, heq⟩ := bind_ok_iff.1 hname
    cases heq
    exact (declare_learns hv).2.1.trans (ih h)

/-! ## Reading -/

theorem Atom.means_of_read {a : Atom} {o : Operand} (h : (a.read line).run s = .ok (o, s')) :
    a.Means o ∧ s.Learns a.names s' := by
  cases reads_of_run h with
  | number => exact ⟨.number, .refl _⟩
  | name hv =>
    obtain ⟨rfl, hlearns⟩ := mention_learns hv
    exact ⟨.name, hlearns⟩

theorem args_means_of_read {args : List Atom} {os : List Operand}
    (h : (args.mapM (Atom.read line)).run s = .ok (os, s')) :
    List.Forall₂ Atom.Means args os ∧ s.Learns (args.flatMap Atom.names) s' := by
  induction args generalizing s os with
  | nil =>
    rw [List.mapM_nil] at h
    cases h
    exact ⟨.nil, .refl _⟩
  | cons a args ih =>
    rw [List.mapM_cons] at h
    obtain ⟨o, s₁, ha, h⟩ := run_bind_ok h
    obtain ⟨os', s₂, hargs, h⟩ := run_bind_ok h
    cases h
    obtain ⟨hmeans, hlearns⟩ := a.means_of_read ha
    obtain ⟨hall, hlearns'⟩ := ih hargs
    exact ⟨.cons hmeans hall, hlearns.trans hlearns'⟩

theorem Place.means_of_read {p : Place} {e : Expr} (h : (p.read line).run s = .ok (e, s')) :
    p.Means s.Knows e ∧ s.Learns p.names s' := by
  cases reads_of_run h with
  | element ho hv =>
    obtain ⟨hmeans, hlearns⟩ := Atom.means_of_read ho
    obtain ⟨rfl, hlearns'⟩ := mention_learns hv
    exact ⟨.element hmeans, hlearns.trans hlearns'⟩
  | field hfind =>
    obtain rfl := Scope.name_of_find? hfind
    exact ⟨.field (Scope.knows_of_find? hfind), .refl _⟩
  | static hfind => exact ⟨.static (Scope.not_knows_of_find? hfind), .refl _⟩
  | name hv =>
    obtain ⟨rfl, hlearns⟩ := mention_learns hv
    exact ⟨.name, hlearns⟩

theorem Source.means_of_read {x : Source} {e : Expr} (h : (x.read line).run s = .ok (e, s')) :
    x.Means s.Knows e ∧ s.Learns x.names s' := by
  cases reads_of_run h with
  | allocate => exact ⟨.allocate, .refl _⟩
  | cast ho =>
    obtain ⟨hmeans, hlearns⟩ := Atom.means_of_read ho
    exact ⟨.cast hmeans, hlearns⟩
  | binary hl hr =>
    obtain ⟨hmeans, hlearns⟩ := Atom.means_of_read hl
    obtain ⟨hmeans', hlearns'⟩ := Atom.means_of_read hr
    exact ⟨.binary hmeans hmeans', hlearns.trans hlearns'⟩
  | negate hv =>
    obtain ⟨rfl, hlearns⟩ := mention_learns hv
    exact ⟨.negate, hlearns⟩
  | number => exact ⟨.number, .refl _⟩
  | place hp =>
    obtain ⟨hmeans, hlearns⟩ := Place.means_of_read hp
    exact ⟨.place hmeans, hlearns⟩

/-- A parameter of a new name leaves the names of the variables as they are. -/
theorem Scope.Learns.param (h : s.Learns ns s') (hparams : s'.params = s.params)
    (hnew : v.name ∉ s.params.map Var.name) :
    s.Learns ns { s' with params := s'.params ++ [v] } := by
  refine ⟨h.knows, fun hs => ⟨(h.distinct hs).vars, ?_⟩⟩
  change ((s'.params ++ [v]).map Var.name).Nodup
  rw [hparams, List.map_append, List.map_singleton, ← List.concat_eq_append, List.nodup_concat]
  exact ⟨hnew, hs.params⟩

theorem Form.means_of_read {form : Form} {stmt : Option (Stmt String)} (h : (form.read line).run s = .ok (stmt, s')) :
    (∀ x, stmt = some x → form.Means s.Knows x) ∧ s.Learns form.names s' := by
  cases reads_of_run h with
  | param hnew hv =>
    obtain ⟨rfl, hlearns, hparams⟩ := declare_learns hv
    exact ⟨fun _ hx => (nomatch hx), hlearns.param hparams hnew⟩
  | declare hnames => exact ⟨fun _ hx => (nomatch hx), forM_declare_learns hnames⟩
  | branch hl hr =>
    obtain ⟨hmeans, hlearns⟩ := Atom.means_of_read hl
    obtain ⟨hmeans', hlearns'⟩ := Atom.means_of_read hr
    exact ⟨fun x hx => Option.some.inj hx ▸ .branch hmeans hmeans', hlearns.trans hlearns'⟩
  | goto => exact ⟨fun x hx => Option.some.inj hx ▸ .goto, .refl _⟩
  | switch _ _ hv =>
    obtain ⟨rfl, hlearns⟩ := mention_learns hv
    exact ⟨fun x hx => Option.some.inj hx ▸ .switch, hlearns⟩
  | leave => exact ⟨fun x hx => Option.some.inj hx ▸ .return .none, .refl _⟩
  | «return» ha =>
    obtain ⟨hmeans, hlearns⟩ := Atom.means_of_read ha
    exact ⟨fun x hx => Option.some.inj hx ▸ .return (.some hmeans), hlearns⟩
  | nop => exact ⟨fun x hx => Option.some.inj hx ▸ .nop, .refl _⟩
  | call hargs =>
    obtain ⟨hmeans, hlearns⟩ := args_means_of_read hargs
    exact ⟨fun x hx => Option.some.inj hx ▸ .invoke hmeans rfl, hlearns.trans (.refl _)⟩
  | invoke hargs hv =>
    obtain ⟨hmeans, hlearns⟩ := args_means_of_read hargs
    obtain ⟨rfl, hlearns'⟩ := mention_learns hv
    exact ⟨fun x hx => Option.some.inj hx ▸ .invoke hmeans rfl, hlearns.trans hlearns'⟩
  | @assign place source target value s₁ s' ht hv =>
    obtain ⟨hmeans, hlearns⟩ := Place.means_of_read ht
    obtain ⟨hmeans', hlearns'⟩ := Source.means_of_read hv
    -- The right side is read in the scope that the left one leaves behind.
    have hknown : s₁.Knows = fun name => s.Knows name ∨ name ∈ place.names := funext fun n => propext (hlearns.knows n)
    rw [hknown] at hmeans'
    exact ⟨fun x hx => Option.some.inj hx ▸ .assign hmeans hmeans', hlearns.trans hlearns'⟩

/-- Targets are no names. -/
theorem Form.Means.mapTargets {τ υ ε : Type} {known : String → Prop} {f : τ → Except ε υ} {form : Form} {x : Stmt τ}
    {y : Stmt υ} (h : form.Means known x) (hy : x.mapTargets f = .ok y) : form.Means known y := by
  cases h with
  | branch ho ho' =>
    obtain ⟨target, -, hy⟩ := bind_ok_iff.1 hy
    cases hy
    exact .branch ho ho'
  | goto =>
    obtain ⟨target, -, hy⟩ := bind_ok_iff.1 hy
    cases hy
    exact .goto
  | switch =>
    obtain ⟨cases', -, hy⟩ := bind_ok_iff.1 hy
    obtain ⟨last, -, hy⟩ := bind_ok_iff.1 hy
    cases hy
    exact .switch
  | «return» ho =>
    cases hy
    exact .return ho
  | nop =>
    cases hy
    exact .nop
  | invoke hos hname =>
    cases hy
    exact .invoke hos hname
  | assign ht hv =>
    cases hy
    exact .assign ht hv

/-! ## Lines -/

/-- What has been read up to a line is named as its lines say. -/
structure Named (lines : List (List Char × Nat)) (a : Assembly) : Prop where
  distinct : a.scope.Distinct
  knows : ∀ name, a.scope.Knows name ↔ ∃ n source, Says lines n source ∧ name ∈ source.names
  body : ∀ l ∈ a.body, ∃ source form, Says lines l.line source ∧ source.form = some form ∧
    form.Means (KnownBefore lines l.line) l.stmt

variable {lines : List (List Char × Nat)} {cs : List Char} {n k : Nat} {a a' : Assembly} {source : SourceLine}

/-- A line makes no name known before itself. -/
theorem knownBefore_concat (hblank : (withoutComment cs).all Text.isBlank = false)
    (hread : readLine n (withoutComment cs) = .ok source) (hk : k ≤ n) :
    KnownBefore (lines ++ [(cs, n)]) k = KnownBefore lines k := by
  ext name
  refine exists_congr fun m => and_congr_right fun hm => ?_
  rw [exists_says_concat hblank hread]
  exact or_iff_left fun ⟨_, hmn⟩ => absurd (hmn ▸ hm) (Nat.not_lt.2 hk)

theorem addLine_learns (ha : a.addLine n source = .ok a') :
    a.scope.Learns source.names a'.scope ∧ ∀ l ∈ a'.body,
      l ∈ a.body ∨ (l.line = n ∧ ∃ form, source.form = some form ∧ form.Means a.scope.Knows l.stmt) := by
  obtain ⟨stmt, hread, hbody⟩ := addLine_eq_ok ha
  rw [hbody, SourceLine.names]
  cases hform : source.form with
  | none =>
    simp only [hform, Option.elim, Except.ok.injEq, Prod.mk.injEq] at hread
    obtain ⟨rfl, hscope⟩ := hread
    exact ⟨hscope ▸ .refl _, fun l hl => .inl hl⟩
  | some form =>
    rw [hform] at hread
    obtain ⟨hmeans, hlearns⟩ := form.means_of_read hread
    refine ⟨hlearns, fun l hl => ?_⟩
    cases stmt with
    | none => exact .inl hl
    | some x =>
      rcases Array.mem_push.1 hl with hl | rfl
      · exact .inl hl
      · exact .inr ⟨rfl, form, rfl, hmeans x rfl⟩

theorem Named.addLine (h : Named lines a) (hbefore : ∀ m source, Says lines m source → m < n)
    (hblank : (withoutComment cs).all Text.isBlank = false) (hread : readLine n (withoutComment cs) = .ok source)
    (ha : a.addLine n source = .ok a') : Named (lines ++ [(cs, n)]) a' := by
  obtain ⟨hlearns, hbody⟩ := addLine_learns ha
  have hsaid : ∀ m source', Says lines m source' → Says (lines ++ [(cs, n)]) m source' := fun _ _ hsaid =>
    says_concat.2 (.inl hsaid)
  have hself : Says (lines ++ [(cs, n)]) n source := says_concat.2 (.inr ⟨rfl, hblank, hread⟩)
  -- All lines so far come before this one.
  have hknown : a.scope.Knows = KnownBefore lines n := by
    ext name
    rw [h.knows]
    constructor
    · rintro ⟨m, source', hm, hname⟩
      exact ⟨m, hbefore m source' hm, source', hm, hname⟩
    · rintro ⟨m, -, source', hm, hname⟩
      exact ⟨m, source', hm, hname⟩
  refine ⟨hlearns.distinct h.distinct, fun name => ?_, fun l hl => ?_⟩
  · rw [hlearns.knows, h.knows]
    simp only [exists_says_concat hblank hread, exists_or, exists_and_left, exists_eq, and_true]
  · rcases hbody l hl with hl | ⟨rfl, form, hform, hmeans⟩
    · obtain ⟨source', form, hl, hform, hmeans⟩ := h.body l hl
      refine ⟨source', form, hsaid _ _ hl, hform, ?_⟩
      rwa [knownBefore_concat hblank hread (Nat.le_of_lt (hbefore _ _ hl))]
    · refine ⟨source, form, hself, hform, ?_⟩
      rwa [knownBefore_concat hblank hread (Nat.le_refl _), ← hknown]

theorem named_start : Named [] {} := by
  refine ⟨⟨List.nodup_nil, List.nodup_nil⟩, fun name => ⟨fun hname => absurd hname List.not_mem_nil, ?_⟩, ?_⟩
  · rintro ⟨n, source, hsaid, -⟩
    exact absurd hsaid not_says_nil
  · intro l hl
    exact absurd hl (Array.not_mem_empty l)

theorem named_of_foldlM {text : String} {done rest : List (List Char × Nat)} (htext : numberedLines text = done ++ rest)
    (h : done.foldlM step {} = .ok a) : Named done a := by
  refine keeps_of_foldlM (P := Named) named_start ?_ ?_ htext h
  · intro done cs n a hblank h
    have hsaid : Says (done ++ [(cs, n)]) = Says done := says_concat_blank hblank
    refine ⟨h.distinct, ?_, ?_⟩
    · rw [hsaid]
      exact h.knows
    · unfold KnownBefore
      rw [hsaid]
      exact h.body
  · intro done cs n a a' source hbefore hblank hread h hadd
    exact h.addLine hbefore hblank hread hadd

/-! ## The routine -/

/-- In a routine that has been read every name stands for one variable of one type, its variables are listed once each,
its parameters have names of their own, and a field access is static exactly if its base is not known as a variable
there. -/
theorem wellNamed_read {text name : String} {r : Routine} (h : read text name = .ok r) :
    WellNamed (numberedLines text) r := by
  have hfits := (fits_read h).occurring_subset
  obtain ⟨a, ha, hr⟩ := bind_ok_iff.1 h
  have hnamed := named_of_foldlM (List.append_nil _).symm ha
  obtain ⟨hparams, hvars, hbody⟩ := finish_eq_ok hr
  have hnames : (r.vars.map Var.name).Nodup := hvars ▸ hnamed.distinct.vars
  refine ⟨?_, hnames.of_map, hfits, hparams ▸ hnamed.distinct.params, ?_⟩
  · intro v hv w hw hname
    exact congrArg Var.type (List.inj_on_of_nodup_map hnames (hfits hv) (hfits hw) hname)
  · intro line hline
    obtain ⟨i, hi⟩ := List.getElem?_of_mem (Array.mem_toList_iff.2 hline)
    obtain ⟨l, hl, hresolve⟩ := forall₂_getElem? hbody hi
    obtain ⟨hnumber, f, hf, -⟩ := resolve_eq_ok hresolve
    rcases mem_close_body (Array.mem_toList_iff.1 (List.mem_of_getElem? hl)) with hl | hnop
    · obtain ⟨source, form, hsaid, hform, hmeans⟩ := hnamed.body l hl
      exact .inr ⟨l.line, source, form, hnumber, hsaid, hform, hmeans.mapTargets hf⟩
    · rw [hnop] at hf
      exact .inl (Except.ok.inj hf).symm

/-- Accesses before and after their base is mentioned, on the same line and on the next. -/
def accesses : String := "C.f = C.g\nC = C.f\nD.f = D\nx = D.f"

/-- `C` is known on the right of the second line, and `D` from the right of the third on. -/
def accessed : List Statement :=
  let c : Var := { name := "C" }
  let d : Var := { name := "D" }
  [.assign (.staticField "C" "f") (.staticField "C" "g"), .assign (.var c) (.field c "f"),
   .assign (.staticField "D" "f") (.var d), .assign (.var { name := "x" }) (.field d "f")]

theorem wellNamed_read_accesses :
    ∃ r, read accesses = .ok r ∧ WellNamed (numberedLines accesses) r ∧ r.vars.map Var.name = ["C", "D", "x"] ∧
      r.body.toList.map Line.stmt = accessed := by
  have hrun : ((read accesses).toOption.map fun r => (r.vars.map Var.name, r.body.toList.map Line.stmt)) =
      some (["C", "D", "x"], accessed) := by
    decide +kernel
  obtain ⟨r, hr, heq⟩ := Option.map_eq_some_iff.1 hrun
  obtain ⟨hvars, hbody⟩ := Prod.mk.inj heq
  rw [toOption_eq_some] at hr
  exact ⟨r, hr, wellNamed_read hr, hvars, hbody⟩

end Reading

end Dataflow
