import Dataflow.Proofs.Reading.Rereading
/-!
# Names that begin with a keyword

Where a line binds a name, another name may stand in its place, and the same statement is read with that name
(`readsAlike_iff`). The exceptions are the names that begin with `return` or `nop`, if these are the whole name or a
dollar sign follows them: the keyword is a statement by itself, and is tried before.
-/
namespace Dataflow

namespace Reading

open Reader

variable {cs tail w : List Char} {k : Nat} {n v x : String}

/-! ## Lines that bind a name -/

/-- What stands after the equality sign of a line, as a form of the name before it. -/
def Binds (w : List Char) (f : String → Form) : Prop :=
  ∃ rest, rest.dropWhile Grammar.isSpace = [] ∧
    ((∃ method args, Grammar.invokeExp (w.dropWhile Grammar.isSpace) = some ((method, args), rest) ∧
        f = fun n => .invoke (some n) method args) ∨
      (Grammar.invokeExp (w.dropWhile Grammar.isSpace) = none ∧
        ∃ source, Grammar.source (w.dropWhile Grammar.isSpace) = some (source, rest) ∧
          f = fun n => .assign (.name n) source))

theorem line_of_name (hn : IsName n) :
    Grammar.line (n.toList ++ (" = ".toList ++ w)) =
      some (match Grammar.statement (n.toList ++ (" = ".toList ++ w)) with
        | some (form, rest) => (⟨none, some form⟩, rest.dropWhile Grammar.isSpace)
        | none => (⟨none, none⟩, n.toList ++ (" = ".toList ++ w))) := by
  have hspace : Stops Grammar.isSpace (n.toList ++ (" = ".toList ++ w)) := Spells.stops_isSpace hn
  have hlabel : Grammar.labelDef (n.toList ++ (" = ".toList ++ w)) = none :=
    labelDef_none hn opens_equals.name opens_equals.colon
  rw [Grammar.line, bind_apply, blanks_apply, dropWhile_of_stops hspace, Option.bind_some, bind_apply, optional_apply,
    hlabel, Option.map_none, Option.map_none, Option.getD_none, Option.bind_some, bind_apply, optional_apply]
  cases Grammar.statement (n.toList ++ (" = ".toList ++ w)) with
  | none =>
    rw [Option.map_none, Option.map_none, Option.getD_none, Option.bind_some, bind_apply, blanks_apply,
      dropWhile_of_stops hspace]
    rfl
  | some p => rfl

theorem readLine_ok_iff {source : SourceLine} : readLine k cs = .ok source ↔ Grammar.line cs = some (source, []) := by
  unfold readLine
  split
  next source' h => simp [h]
  next source' rest hrest h =>
    simp only [h, readLine.unreadable, reduceCtorEq, Option.some.injEq, Prod.mk.injEq, false_iff, not_and]
    exact fun _ => hrest
  next h => simp [h, readLine.unreadable]

/-- A line that binds a name gives the form of what stands after the equality sign. -/
theorem readLine_eq_ok_iff (hn : IsName n) (h : Unshadowed n) {source : SourceLine} :
    readLine k (n.toList ++ (" = ".toList ++ w)) = .ok source ↔ ∃ f, Binds w f ∧ source = ⟨none, some (f n)⟩ := by
  rw [readLine_ok_iff, line_of_name hn, statement_bound hn h, Option.some.injEq]
  cases hcall : Grammar.invokeExp (w.dropWhile Grammar.isSpace) with
  | some p =>
    obtain ⟨⟨method, args⟩, rest⟩ := p
    simp only [Option.map_some, Option.some_or, Prod.mk.injEq]
    constructor
    · rintro ⟨rfl, hrest⟩
      exact ⟨_, ⟨rest, hrest, .inl ⟨method, args, hcall, rfl⟩⟩, rfl⟩
    · rintro ⟨f, ⟨rest', hrest, ⟨method', args', heq, rfl⟩ | ⟨hnone, -⟩⟩, rfl⟩
      · rw [hcall] at heq
        cases heq
        exact ⟨rfl, hrest⟩
      · rw [hcall] at hnone
        cases hnone
  | none =>
    cases hsource : Grammar.source (w.dropWhile Grammar.isSpace) with
    | some p =>
      obtain ⟨source', rest⟩ := p
      simp only [Option.map_none, Option.map_some, Option.none_or, Prod.mk.injEq]
      constructor
      · rintro ⟨rfl, hrest⟩
        exact ⟨_, ⟨rest, hrest, .inr ⟨hcall, source', hsource, rfl⟩⟩, rfl⟩
      · rintro ⟨f, ⟨rest', hrest, ⟨method, args, heq, -⟩ | ⟨-, source'', heq, rfl⟩⟩, rfl⟩
        · rw [hcall] at heq
          cases heq
        · rw [hsource] at heq
          cases heq
          exact ⟨rfl, hrest⟩
    | none =>
      constructor
      · intro heq
        simp at heq
      · rintro ⟨f, ⟨rest, -, ⟨method, args, heq, -⟩ | ⟨-, source', heq, -⟩⟩, -⟩
        · rw [hcall] at heq
          cases heq
        · rw [hsource] at heq
          cases heq

/-- A shadowed name is read as the keyword, and something is left. -/
theorem statement_shadowed (hn : IsName n) (h : ¬ Unshadowed n) :
    ∃ form rest, Grammar.statement (n.toList ++ (" = ".toList ++ w)) = some (form, rest) ∧
      rest.dropWhile Grammar.isSpace ≠ [] := by
  -- After the keyword there is an equality sign or a dollar sign.
  have hkeyword : ∀ {word : String}, Shadows word n → ∃ rest,
      Grammar.keyword word (n.toList ++ (" = ".toList ++ w)) = some ((), rest) ∧
        rest.dropWhile Grammar.isSpace ≠ [] ∧ Grammar.returnValue rest = none := by
    rintro word (rfl | ⟨ds, hds⟩)
    · refine ⟨" = ".toList ++ w, keyword_eq_some_iff.2 ⟨rfl, stops_cons.2 (by decide)⟩, by simp [Grammar.isSpace], ?_⟩
      have hgap : Grammar.gap (" = ".toList ++ w) = some ((), '=' :: ' ' :: w) := by
        rw [gap_eq_some_iff]
        simp [Grammar.isSpace]
      have hatom : Grammar.atom ('=' :: ' ' :: w) = none := rfl
      rw [Grammar.returnValue, seqRight_apply, hgap, Option.bind_some, hatom]
    · refine ⟨'$' :: ds ++ (" = ".toList ++ w), ?_, by simp [Grammar.isSpace], rfl⟩
      rw [keyword_eq_some_iff]
      exact ⟨by simp [hds], stops_cons.2 (by decide)⟩
  rw [statement_of_name hn opens_equals]
  by_cases hreturn : Shadows "return" n
  · obtain ⟨rest, hsome, hrest, hvalue⟩ := hkeyword hreturn
    refine ⟨.return none, rest, ?_, hrest⟩
    rw [Grammar.returnStmt, bind_apply, hsome, Option.bind_some, bind_apply, optional_apply, hvalue]
    rfl
  · obtain ⟨rest, hsome, hrest, -⟩ := hkeyword (not_not.1 fun hnop => h ⟨hreturn, hnop⟩)
    refine ⟨.nop, rest.dropWhile Grammar.isSpace, ?_, ?_⟩
    · rw [returnStmt_of_not_shadows hn opens_equals.name hreturn, Option.none_or, Grammar.nopStmt, bind_apply, hsome]
      rfl
    · rwa [dropWhile_of_stops (stops_dropWhile Grammar.isSpace rest)]

theorem readLine_shadowed (hn : IsName n) (h : ¬ Unshadowed n) (source : SourceLine) :
    readLine k (n.toList ++ (" = ".toList ++ w)) ≠ .ok source := by
  obtain ⟨form, rest, hstatement, hrest⟩ := statement_shadowed (w := w) hn h
  rw [ne_eq, readLine_ok_iff, line_of_name hn, hstatement, Option.some.injEq, Prod.mk.injEq]
  exact fun heq => hrest heq.2

/-! ## Variables of another name -/

end Reading

/-- The names of the variables that are read, or the class that a static field belongs to. -/
def Expr.names : Expr → List String
  | staticField owner _ => [owner]
  | e => e.uses.map Var.name

/-- The variable with the second name, if it has the first. -/
def Var.rename (v x : String) (u : Var) : Var := if u.name = v then { u with name := x } else u

namespace Reading

variable {α β : Type} {v x : String} {s s₁ s' : Scope} {line : Nat}

def Scope.rename (v x : String) (s : Scope) : Scope := { s with vars := s.vars.map (Var.rename v x) }

/-- Neither name is that of a variable. -/
def Scope.Free (v x : String) (s : Scope) : Prop := s.find? v = none ∧ s.find? x = none

theorem rename_of_ne {u : Var} (h : u.name ≠ v) : u.rename v x = u := if_neg h

theorem Scope.find?_rename {n : String} (hv : n ≠ v) (hx : n ≠ x) : (s.rename v x).find? n = s.find? n := by
  have hname : ∀ u : Var, decide ((u.rename v x).name = n) = decide (u.name = n) := by
    intro u
    by_cases hu : u.name = v
    · simp [Var.rename, hu, hv.symm, hx.symm]
    · rw [rename_of_ne hu]
  rw [Scope.find?, Scope.rename, List.find?_map]
  simp only [Function.comp_def, hname]
  rw [Scope.find?]
  cases hfind : s.vars.find? fun u => u.name = n with
  | none => rfl
  | some u =>
    have hu : u.name = n := by simpa using List.find?_some hfind
    rw [Option.map_some, rename_of_ne (hu ▸ hv)]

theorem Scope.rename_of_find?_none (h : s.find? v = none) : s.rename v x = s := by
  have hvars : s.vars.map (Var.rename v x) = s.vars := by
    refine List.map_congr_left (fun u hu => ?_) |>.trans (List.map_id _)
    rw [Scope.find?, List.find?_eq_none] at h
    exact rename_of_ne (by simpa using h u hu)
  rw [Scope.rename, hvars]

theorem Scope.rename_push (s : Scope) (u : Var) : (s.push u).rename v x = (s.rename v x).push (u.rename v x) := by
  simp [Scope.push, Scope.rename]

/-- What is read in a scope is read in the renamed one too, and neither name becomes known. -/
structure Alike (v x : String) (s s' : Scope) (m : Scoped α) (a : α) : Prop where
  run : m.run (s.rename v x) = .ok (a, s'.rename v x)
  free : s.Free v x → s'.Free v x

theorem Alike.pure (a : α) : Alike v x s s (Pure.pure a : Scoped α) a := ⟨rfl, id⟩

theorem Alike.bind {m : Scoped α} {f : α → Scoped β} {a : α} {b : β} (hm : Alike v x s s₁ m a)
    (hf : Alike v x s₁ s' (f a) b) : Alike v x s s' (m >>= f) b := by
  refine ⟨?_, fun h => hf.free (hm.free h)⟩
  rw [StateT.run_bind, hm.run]
  exact hf.run

theorem mention_alike {n : String} {u : Var} (h : (mention n).run s = .ok (u, s')) (hv : n ≠ v) (hx : n ≠ x) :
    Alike v x s s' (mention n) u := by
  rw [mention_run] at h
  cases hfind : s.find? n with
  | some w =>
    rw [hfind] at h
    cases h
    refine ⟨?_, id⟩
    rw [mention_run, Scope.find?_rename hv hx, hfind]
    rfl
  | none =>
    rw [hfind] at h
    cases h
    refine ⟨?_, fun ⟨hv', hx'⟩ => ⟨?_, ?_⟩⟩
    · rw [mention_run, Scope.find?_rename hv hx, hfind, Scope.rename_push, rename_of_ne hv]
      rfl
    · rw [Scope.find?] at hv' ⊢
      rw [Scope.push, List.find?_append, hv']
      simpa using hv
    · rw [Scope.find?] at hx' ⊢
      rw [Scope.push, List.find?_append, hx']
      simpa using hx

theorem Numeral.alike {i : Numeral} {n : Int} (h : (i.read line).run s = .ok (n, s')) :
    Alike v x s s' (i.read line) n := by
  obtain ⟨rfl, -⟩ := i.read_ok h
  refine ⟨?_, id⟩
  unfold Numeral.read at h ⊢
  split at h
  · cases h
  next hlength =>
    split at h
    next hfits =>
      cases h
      rw [if_neg hlength, if_pos hfits]
      rfl
    next => cases h

theorem Atom.alike {a : Atom} {o : Operand} (h : (a.read line).run s = .ok (o, s')) (hv : v ∉ o.uses.map Var.name)
    (hx : x ∉ o.uses.map Var.name) : Alike v x s s' (a.read line) o := by
  cases a with
  | number i =>
    obtain ⟨n, s₁, hn, h⟩ := run_bind_ok h
    cases h
    exact (Numeral.alike hn).bind (.pure _)
  | name n =>
    obtain ⟨u, s₁, hu, h⟩ := run_bind_ok h
    cases h
    have hname : u.name = n := mention_name hu
    simp only [Operand.uses, List.map_cons, List.map_nil, List.mem_singleton, hname] at hv hx
    exact (mention_alike hu (Ne.symm hv) (Ne.symm hx)).bind (.pure _)

theorem mapM_alike {args : List Atom} {os : List Operand} (h : (args.mapM (Atom.read line)).run s = .ok (os, s'))
    (hv : v ∉ (os.flatMap Operand.uses).map Var.name) (hx : x ∉ (os.flatMap Operand.uses).map Var.name) :
    Alike v x s s' (args.mapM (Atom.read line)) os := by
  induction args generalizing s os with
  | nil =>
    rw [List.mapM_nil] at h ⊢
    cases h
    exact .pure _
  | cons a args ih =>
    rw [List.mapM_cons] at h ⊢
    obtain ⟨o, s₁, ho, h⟩ := run_bind_ok h
    obtain ⟨os', s₂, hos, h⟩ := run_bind_ok h
    cases h
    simp only [List.flatMap_cons, List.map_append, List.mem_append, not_or] at hv hx
    exact (Atom.alike ho hv.1 hx.1).bind ((ih hos hv.2 hx.2).bind (.pure _))

theorem readField_alike {base member : String} {e : Expr} (h : (readField base member).run s = .ok (e, s'))
    (hv : v ∉ e.names) (hx : x ∉ e.names) : Alike v x s s' (readField base member) e := by
  rw [readField_run] at h
  cases h
  refine ⟨?_, id⟩
  have hbase : base ≠ v ∧ base ≠ x := by
    cases hfind : s.find? base with
    | some u =>
      have hu : u.name = base := Scope.name_of_find? hfind
      rw [hfind] at hv hx
      simp only [Option.elim, Expr.names, Expr.uses, List.map_cons, List.map_nil, List.mem_singleton, hu] at hv hx
      exact ⟨Ne.symm hv, Ne.symm hx⟩
    | none =>
      rw [hfind] at hv hx
      simp only [Option.elim, Expr.names, List.mem_singleton] at hv hx
      exact ⟨Ne.symm hv, Ne.symm hx⟩
  rw [readField_run, Scope.find?_rename hbase.1 hbase.2]

theorem Place.alike {p : Place} {e : Expr} (h : (p.read line).run s = .ok (e, s')) (hv : v ∉ e.names)
    (hx : x ∉ e.names) : Alike v x s s' (p.read line) e := by
  cases p with
  | element array index =>
    obtain ⟨o, s₁, ho, h⟩ := run_bind_ok h
    obtain ⟨u, s₂, hu, h⟩ := run_bind_ok h
    cases h
    have hname : u.name = array := mention_name hu
    simp only [Expr.names, Expr.uses, List.map_cons, List.mem_cons, not_or, hname] at hv hx
    exact (Atom.alike ho hv.2 hx.2).bind ((mention_alike hu (Ne.symm hv.1) (Ne.symm hx.1)).bind (.pure _))
  | field base member => exact readField_alike h hv hx
  | name n =>
    obtain ⟨u, s₁, hu, h⟩ := run_bind_ok h
    cases h
    have hname : u.name = n := mention_name hu
    simp only [Expr.names, Expr.uses, Operand.uses, List.map_cons, List.map_nil, List.mem_singleton, hname] at hv hx
    exact (mention_alike hu (Ne.symm hv) (Ne.symm hx)).bind (.pure _)

theorem Source.alike {y : Source} {e : Expr} (h : (y.read line).run s = .ok (e, s')) (hv : v ∉ e.names)
    (hx : x ∉ e.names) : Alike v x s s' (y.read line) e := by
  cases y with
  | allocate type =>
    cases h
    exact .pure _
  | cast type value =>
    obtain ⟨o, s₁, ho, h⟩ := run_bind_ok h
    cases h
    exact (Atom.alike ho hv hx).bind (.pure _)
  | binary left op right =>
    obtain ⟨l, s₁, hl, h⟩ := run_bind_ok h
    obtain ⟨r, s₂, hr, h⟩ := run_bind_ok h
    cases h
    simp only [Expr.names, Expr.uses, List.map_append, List.mem_append, not_or] at hv hx
    exact (Atom.alike hl hv.1 hx.1).bind ((Atom.alike hr hv.2 hx.2).bind (.pure _))
  | negate n =>
    obtain ⟨u, s₁, hu, h⟩ := run_bind_ok h
    cases h
    have hname : u.name = n := mention_name hu
    simp only [Expr.names, Expr.uses, List.map_cons, List.map_nil, List.mem_singleton, hname] at hv hx
    exact (mention_alike hu (Ne.symm hv) (Ne.symm hx)).bind (.pure _)
  | number i =>
    obtain ⟨n, s₁, hn, h⟩ := run_bind_ok h
    cases h
    exact (Numeral.alike hn).bind (.pure _)
  | place p => exact Place.alike h hv hx

/-! ## Statements that bind a name -/

/-- Two statements that define variables of two names, and do the same for the rest. -/
inductive Rebinds {τ : Type} (v x : String) : Stmt τ → Stmt τ → Prop
  | assign (value : Expr) : Rebinds v x (.assign (.var { name := v }) value) (.assign (.var { name := x }) value)
  | invoke (call : Expr) : Rebinds v x (.invoke call (some { name := v })) (.invoke call (some { name := x }))

theorem mention_of_free (h : s.find? v = none) : (mention v).run s = .ok ({ name := v }, s.push { name := v }) := by
  rw [mention_run, h]
  rfl

theorem rename_push_of_free (h : s.find? v = none) : (s.push { name := v }).rename v x = s.push { name := x } := by
  rw [Scope.rename_push, Scope.rename_of_find?_none h]
  simp [Var.rename]

/-- What binds one fresh name binds another one alike. -/
theorem form_rebinds {w : List Char} {f : String → Form} (hf : Binds w f) (hs : s.Free v x)
    {stmt : Option (Stmt String)} (h : ((f v).read line).run s = .ok (stmt, s'))
    (hnames : ∀ y e, stmt = some y → y.value? = some e → v ∉ e.names ∧ x ∉ e.names) :
    ∃ y y', stmt = some y ∧ Rebinds v x y y' ∧ ((f x).read line).run s = .ok (some y', s'.rename v x) := by
  obtain ⟨rest, -, ⟨method, args, -, rfl⟩ | ⟨-, source, -, rfl⟩⟩ := hf
  · obtain ⟨os, s₁, hargs, h⟩ := run_bind_ok h
    obtain ⟨u, s₂, hu, h⟩ := run_bind_ok h
    cases h
    obtain ⟨hv, hx⟩ := hnames _ _ rfl rfl
    have halike : Alike v x s s₁ (args.mapM (Atom.read line)) os := mapM_alike hargs hv hx
    obtain ⟨hv₁, hx₁⟩ := halike.free hs
    rw [Option.mapM_some, StateT.run_map, mention_of_free hv₁] at hu
    cases hu
    refine ⟨_, _, rfl, .invoke _, ?_⟩
    rw [rename_push_of_free hv₁]
    have hresult : ((some x).mapM mention).run s₁ = .ok (some { name := x }, s₁.push { name := x }) := by
      rw [Option.mapM_some, StateT.run_map, mention_of_free hx₁]
      rfl
    change ((args.mapM (Atom.read line)).run s >>= fun p => _) = _
    rw [hargs]
    change (((some x).mapM mention).run s₁ >>= fun p => _) = _
    rw [hresult]
    rfl
  · obtain ⟨target, s₁, ht, h⟩ := run_bind_ok h
    obtain ⟨e, s₂, he, h⟩ := run_bind_ok h
    cases h
    obtain ⟨u, s₃, hu, ht⟩ := run_bind_ok ht
    cases ht
    rw [mention_of_free hs.1] at hu
    cases hu
    obtain ⟨hv, hx⟩ := hnames _ _ rfl rfl
    have halike : Alike v x _ _ (source.read line) e := Source.alike he hv hx
    refine ⟨_, _, rfl, .assign e, ?_⟩
    have hrun := halike.run
    rw [rename_push_of_free hs.1] at hrun
    have htarget : ((Place.name x).read line).run s = .ok (.var { name := x }, s.push { name := x }) := by
      change ((mention x).run s >>= fun p => _) = _
      rw [mention_of_free hs.2]
      rfl
    change (((Place.name x).read line).run s >>= fun p => _) = _
    rw [htarget]
    change ((source.read line).run (s.push { name := x }) >>= fun p => _) = _
    rw [hrun]
    rfl

/-! ## The last line of a text -/

theorem numberedLines_concat {before : String} {line : List Char}
    (hbefore : ∀ c ∈ before.toList.getLast?, Text.isLineEnd c = true) (hne : line ≠ [])
    (hline : ∀ c ∈ line, Text.isLineEnd c = false) :
    numberedLines (before ++ String.ofList line) =
      numberedLines before ++ [(line, (Text.lines before.toList).length + 1)] := by
  rw [numberedLines, String.toList_append, String.toList_ofList, Text.lines_concat hbefore hne hline,
    List.zipIdx_append, Nat.add_comm]
  rfl

/-- No label waits after a statement, so nothing is appended to it. -/
theorem finish_append_iff {a : Assembly} {y : Stmt String} {name : String} {r : Routine} :
    (a.append y line).finish name = .ok r ↔
      ∃ lines l, a.body.mapM (Assembly.resolve (a.append y line).labels) = .ok lines ∧
        Assembly.resolve (a.append y line).labels ⟨y, line⟩ = .ok l ∧
        r = { name, params := a.scope.params, body := lines.push l, vars := a.scope.vars } := by
  have hbody : (a.body.push ⟨y, line⟩).mapM (Assembly.resolve (a.append y line).labels) =
      (a.body.mapM (Assembly.resolve (a.append y line).labels)) >>= fun lines =>
        (Assembly.resolve (a.append y line).labels ⟨y, line⟩).map lines.push := by
    have hsingle : #[(⟨y, line⟩ : Labelled)].mapM (Assembly.resolve (a.append y line).labels) =
        (Assembly.resolve (a.append y line).labels ⟨y, line⟩).map fun l => #[l] := by
      rw [Array.mapM_eq_mapM_toList]
      cases hread : Assembly.resolve (a.append y line).labels ⟨y, line⟩ <;> simp [hread] <;> rfl
    rw [← Array.append_singleton, Array.mapM_append, hsingle]
    refine bind_congr fun lines => ?_
    cases Assembly.resolve (a.append y line).labels ⟨y, line⟩ <;> rfl
  have hfinish : (a.append y line).finish name =
      (a.body.push ⟨y, line⟩).mapM (Assembly.resolve (a.append y line).labels) >>= fun body =>
        .ok { name, params := a.scope.params, body, vars := a.scope.vars } := rfl
  rw [hfinish, hbody]
  constructor
  · intro h
    obtain ⟨body, hmap, hr⟩ := bind_ok_iff.1 h
    obtain ⟨lines, hlines, hpush⟩ := bind_ok_iff.1 hmap
    obtain ⟨l, hl, rfl⟩ := map_ok_iff.1 hpush
    cases hr
    exact ⟨lines, l, hlines, hl, rfl⟩
  · rintro ⟨lines, l, hlines, hl, rfl⟩
    exact bind_ok_iff.2 ⟨lines.push l, bind_ok_iff.2 ⟨lines, hlines, map_ok_iff.2 ⟨l, hl, rfl⟩⟩, rfl⟩

theorem value?_of_mapTargets {τ υ ε : Type} {f : τ → Except ε υ} {y : Stmt τ} {z : Stmt υ} (h : y.mapTargets f = .ok z)
    {e : Expr} (he : y.value? = some e) : z.value? = some e := by
  cases y with
  | assign | invoke =>
    cases h
    exact he
  | branch | goto | switch | «return» | nop => cases he

theorem resolve_rebinds {y y' : Stmt String} (hy : Rebinds v x y y') {labels : List (String × Nat)} {l : Line}
    (h : Assembly.resolve labels ⟨y, line⟩ = .ok l) :
    ∃ l', Assembly.resolve labels ⟨y', line⟩ = .ok l' ∧ Rebinds v x l.stmt l'.stmt ∧ l'.number = l.number := by
  rcases hy with e | e <;> cases h
  · exact ⟨_, rfl, .assign e, rfl⟩
  · exact ⟨_, rfl, .invoke e, rfl⟩

/-! ## The law -/

/-- The lines before know no variable of the name. -/
def Fresh (before n : String) : Prop :=
  ∀ a, (numberedLines before).foldlM step {} = .ok a → a.scope.find? n = none

/-- The name may be bound like any other: where the last line of a text binds a fresh name to what speaks neither of it
nor of this one, this one may stand in its place. The same routine is read, but for the name of the variable. -/
def ReadsAlike (x : String) : Prop :=
  ∀ (before v value name : String) (r : Routine) (l : Line),
    (∀ c ∈ before.toList.getLast?, Text.isLineEnd c = true) → (∀ c ∈ value.toList, Text.isLineEnd c = false) →
    IsName v → Fresh before v → Fresh before x → read (before ++ v ++ " = " ++ value) name = .ok r →
    r.body.back? = some l → (∀ e, l.stmt.value? = some e → v ∉ e.names ∧ x ∉ e.names) →
    ∃ l', read (before ++ x ++ " = " ++ value) name =
        .ok { r with body := r.body.pop.push l', vars := r.vars.map (Var.rename v x) } ∧
      Rebinds v x l.stmt l'.stmt ∧ l'.number = l.number

/-- Reading the last line of a text. -/
theorem read_concat {before : String} {name : String} (hn : IsName n) {value : String}
    (hbefore : ∀ c ∈ before.toList.getLast?, Text.isLineEnd c = true)
    (hvalue : ∀ c ∈ value.toList, Text.isLineEnd c = false) :
    read (before ++ n ++ " = " ++ value) name =
      ((numberedLines before).foldlM step {} >>= fun a =>
        readLine ((Text.lines before.toList).length + 1) (n.toList ++ (" = ".toList ++ withoutComment value.toList)) >>=
          fun source => a.addLine ((Text.lines before.toList).length + 1) source) >>= fun a => a.finish name := by
  have hconcat :
      before ++ n ++ " = " ++ value = before ++ String.ofList (n.toList ++ (" = ".toList ++ value.toList)) := by
    rw [← String.toList_inj]
    simp
  have hends : ∀ c ∈ n.toList ++ (" = ".toList ++ value.toList), Text.isLineEnd c = false := by
    intro c hc
    rcases List.mem_append.1 hc with hc | hc
    · exact (hn.plain c hc).2
    rcases List.mem_append.1 hc with hc | hc
    · have hequals : Plain " = ".toList := by decide
      exact (hequals c hc).2
    · exact hvalue c hc
  obtain ⟨d, ds, hds, hd⟩ := hn.exists_cons
  have hne : n.toList ++ (" = ".toList ++ value.toList) ≠ [] := by simp [hds]
  have hcomment : withoutComment (n.toList ++ (" = ".toList ++ value.toList)) =
      n.toList ++ (" = ".toList ++ withoutComment value.toList) := by
    rw [withoutComment, List.takeWhile_append_of_pos, List.takeWhile_append_of_pos]
    · rfl
    · simp
    · exact fun c hc => by simpa using (hn.plain c hc).1
  have hblank : (n.toList ++ (" = ".toList ++ withoutComment value.toList)).all Text.isBlank = false := by
    simp [hds, isBlank_of_isNameChar (isNameChar_of_isLetter hd)]
  rw [read, hconcat, numberedLines_concat hbefore hne hends, List.foldlM_append]
  congr 1
  refine bind_congr fun a => ?_
  rw [List.foldlM_cons, step]
  simp only [hcomment, hblank, Bool.false_eq_true, if_false, List.foldlM_nil, bind_pure]

/-- A name that no statement shadows may be bound like any other. -/
theorem readsAlike_of_unshadowed (hx : IsName x) (h : Unshadowed x) : ReadsAlike x := by
  intro before v value name r l hbefore hvalue hv hfresh hfresh' hread hl hnames
  rw [read_concat hv hbefore hvalue] at hread
  rw [read_concat hx hbefore hvalue]
  obtain ⟨a₁, hread, hfinish⟩ := bind_ok_iff.1 hread
  obtain ⟨a, ha, hread⟩ := bind_ok_iff.1 hread
  obtain ⟨source, hsource, hadd⟩ := bind_ok_iff.1 hread
  have hunshadowed : Unshadowed v := by_contra fun hshadowed => readLine_shadowed hv hshadowed source hsource
  obtain ⟨f, hf, rfl⟩ := (readLine_eq_ok_iff hv hunshadowed).1 hsource
  have hsource' := (readLine_eq_ok_iff (k := (Text.lines before.toList).length + 1) hx h).2 ⟨f, hf, rfl⟩
  rw [addLine_eq] at hadd
  obtain ⟨⟨stmt, scope⟩, hform, hadd⟩ := bind_ok_iff.1 hadd
  cases hadd
  obtain ⟨-, hdeclares⟩ | ⟨y, rfl, -, -⟩ := jumps_of_form hform
  · obtain ⟨rest, -, ⟨method, args, -, rfl⟩ | ⟨-, source, -, rfl⟩⟩ := hf <;> cases hdeclares
  obtain ⟨lines, last, hlines, hlast, rfl⟩ := finish_append_iff.1 hfinish
  obtain rfl : last = l := by simpa using hl
  -- The statement speaks of neither name, so it is read alike in the renamed scope.
  obtain ⟨z, hz, hlast'⟩ := bind_ok_iff.1 hlast
  cases hlast'
  have hspeaks : ∀ y' e, some y = some y' → y'.value? = some e → v ∉ e.names ∧ x ∉ e.names := by
    rintro y' e heq he
    cases heq
    exact hnames e (value?_of_mapTargets hz he)
  obtain ⟨y₁, y', heq, hy, hform'⟩ := form_rebinds hf ⟨hfresh a ha, hfresh' a ha⟩ hform hspeaks
  cases heq
  obtain ⟨l', hl', hrebinds, hnumber⟩ := resolve_rebinds hy hlast
  refine ⟨l', ?_, hrebinds, hnumber⟩
  refine bind_ok_iff.2 ⟨{ a with scope := scope.rename v x }.append y' ((Text.lines before.toList).length + 1),
    bind_ok_iff.2 ⟨a, ha, ?_⟩, ?_⟩
  · refine bind_ok_iff.2 ⟨_, hsource', ?_⟩
    rw [addLine_eq]
    refine bind_ok_iff.2 ⟨_, hform', ?_⟩
    rfl
  · refine finish_append_iff.2 ⟨lines, l', hlines, hl', ?_⟩
    simp [Scope.rename]

/-- A shadowed name may not be bound: the line is not read. -/
theorem not_readsAlike_of_shadowed (hx : IsName x) (h : ¬ Unshadowed x) : ¬ ReadsAlike x := by
  intro halike
  have hname : IsName "a" := isName_of_name (by decide)
  have hfresh : ∀ n, Fresh "" n := by
    rintro n a ha
    cases ha
    rfl
  have hrun : (read ("" ++ "a" ++ " = " ++ "1")).toOption.map (fun r => r.body.back?) =
      some (some ⟨.assign (.var { name := "a" }) (.literal 1), some 1⟩) := by
    decide +kernel
  obtain ⟨r, hr, hl⟩ := Option.map_eq_some_iff.1 hrun
  rw [toOption_eq_some] at hr
  obtain ⟨l', hread, -⟩ :=
    halike "" "a" "1" "main" r _ (by simp) (by simp [Text.isLineEnd]) hname (hfresh _) (hfresh _) hr hl (by
      rintro e he
      cases he
      simp [Expr.names, Expr.uses, Operand.uses])
  rw [read_concat hx (by simp) (by simp [Text.isLineEnd])] at hread
  obtain ⟨a₁, hread, -⟩ := bind_ok_iff.1 hread
  obtain ⟨a, -, hread⟩ := bind_ok_iff.1 hread
  obtain ⟨source, hsource, -⟩ := bind_ok_iff.1 hread
  exact readLine_shadowed hx h source hsource

/-- The names that may be bound like any other are those that no statement shadows: neither `return` nor `nop`, and
neither of these with a dollar sign after it. -/
theorem readsAlike_iff (hx : IsName x) : ReadsAlike x ↔ ¬ Shadows "return" x ∧ ¬ Shadows "nop" x :=
  ⟨fun h => by_contra fun hshadowed => not_readsAlike_of_shadowed hx hshadowed h, readsAlike_of_unshadowed hx⟩

/-- A dollar sign after `goto` makes another name of it, and after `nop` it does not. -/
theorem readsAlike_dollar : (IsName "goto$" ∧ ReadsAlike "goto$") ∧ IsName "nop$x" ∧ ¬ ReadsAlike "nop$x" := by
  have hgoto : IsName "goto$" := isName_of_name (by decide)
  have hnop : IsName "nop$x" := isName_of_name (by decide)
  refine ⟨⟨hgoto, (readsAlike_iff hgoto).2 ⟨?_, ?_⟩⟩, hnop, fun h => ((readsAlike_iff hnop).1 h).2 (.inr ⟨['x'], rfl⟩)⟩
  · rintro (h | ⟨cs, h⟩) <;> simp at h
  · rintro (h | ⟨cs, h⟩) <;> simp at h

/-- The words that begin a rule of the grammar. -/
def keywords : List String :=
  ["param", "if", "goto", "switch", "case", "default", "return", "nop", "invoke", "new"]

/-- A name that is no keyword and may not be bound. -/
theorem not_readsAlike_returnDollar : IsName "return$" ∧ "return$" ∉ keywords ∧ ¬ ReadsAlike "return$" := by
  have hname : IsName "return$" := isName_of_name (by decide)
  exact ⟨hname, by decide, not_readsAlike_of_shadowed hname fun h => h.1 (.inr ⟨[], rfl⟩)⟩

end Reading

end Dataflow
