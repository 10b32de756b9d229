import Dataflow.Fact.Value
import Dataflow.Routine.Ty
/-!
# Environments

An environment gives every variable an abstract value. Only what is known is stored, so two
environments are the same exactly when they give every variable the same value; the entries keep the
order in which they came in.
-/
namespace Dataflow

namespace Env

/-- The value of a variable, `undefined` where no entry holds it. -/
def lookup : List (Var × Value) → Var → Value
  | [], _ => .undefined
  | (k, x) :: rest, v => if k = v then x else lookup rest v

/-- Overwrites the entry in its place, or adds one at the end. -/
def put : List (Var × Value) → Var → Value → List (Var × Value)
  | [], v, x => [(v, x)]
  | (k, y) :: rest, v, x => if k = v then (k, x) :: rest else (k, y) :: put rest v x

theorem lookup_put (l : List (Var × Value)) (v w : Var) (x : Value) :
    lookup (put l v x) w = if v = w then x else lookup l w := by
  induction l with
  | nil => simp [put, lookup]
  | cons e rest ih => grind [put, lookup]

theorem lookup_erase (l : List (Var × Value)) (v w : Var) :
    lookup (l.filter (·.1 ≠ v)) w = if v = w then .undefined else lookup l w := by
  induction l with
  | nil => simp [lookup]
  | cons e rest ih => grind [lookup]

theorem lookup_of_mem {l : List (Var × Value)} (hl : (l.map (·.1)).Nodup) {e : Var × Value}
    (he : e ∈ l) : lookup l e.1 = e.2 := by
  induction l with
  | nil => simp at he
  | cons f rest ih =>
    simp only [List.map_cons, List.nodup_cons] at hl
    rcases List.mem_cons.1 he with rfl | he
    · simp [lookup]
    · have : f.1 ≠ e.1 := fun h => hl.1 (h ▸ List.mem_map_of_mem he)
      simp [lookup, this, ih hl.2 he]

theorem mem_of_lookup {l : List (Var × Value)} {v : Var} (h : lookup l v ≠ .undefined) :
    (v, lookup l v) ∈ l := by
  induction l with
  | nil => simp [lookup] at h
  | cons e rest ih => grind [lookup]

theorem map_fst_put (l : List (Var × Value)) (v : Var) (x : Value) :
    (put l v x).map (·.1) = if v ∈ l.map (·.1) then l.map (·.1) else l.map (·.1) ++ [v] := by
  induction l with
  | nil => simp [put]
  | cons e rest ih => grind [put]

theorem mem_put {l : List (Var × Value)} {v : Var} {x : Value} {e : Var × Value}
    (h : e ∈ put l v x) : e ∈ l ∨ e = (v, x) := by
  induction l with
  | nil => simpa [put] using h
  | cons f rest ih => grind [put]

end Env

structure Env where
  entries : List (Var × Value)
  distinct : (entries.map (·.1)).Nodup
  known : ∀ e ∈ entries, e.2 ≠ .undefined

namespace Env

def empty : Env := ⟨[], by simp, by simp⟩

def get (e : Env) (v : Var) : Value := lookup e.entries v

def contains (e : Env) (v : Var) : Bool := e.entries.any (·.1 = v)

def size (e : Env) : Nat := e.entries.length

def keys (e : Env) : List Var := e.entries.map (·.1)

/-- Forgets a variable. -/
def erase (e : Env) (v : Var) : Env where
  entries := e.entries.filter (·.1 ≠ v)
  distinct := e.distinct.sublist (List.filter_sublist.map _)
  known f hf := e.known f (List.mem_filter.1 hf).1

/-- Gives a variable a value; `undefined` forgets it. -/
def set (e : Env) (v : Var) (x : Value) : Env :=
  if h : x = .undefined then e.erase v
  else {
    entries := put e.entries v x
    distinct := by
      rw [map_fst_put]
      split
      · exact e.distinct
      · next hv => exact List.nodup_append.2 ⟨e.distinct, by simp, by grind⟩
    known := fun f hf => (mem_put hf).elim (e.known f) fun hf => by simpa [hf] using h }

/-- Gives a variable a value and says whether that is news. -/
def update (e : Env) (v : Var) (x : Value) : Env × Bool := (e.set v x, e.get v != x)

/-- Forgets a variable and says what was known of it. -/
def remove (e : Env) (v : Var) : Env × Option Value :=
  (e.erase v, if e.contains v then some (e.get v) else none)

def ofList (updates : List (Var × Value)) : Env :=
  updates.foldl (fun e (v, x) => e.set v x) empty

/-- The order of the environments: value by value. -/
def le (a b : Env) : Bool := a.entries.all fun (v, x) => x.le (b.get v)

/-- The same value for every variable, whatever the order of the entries. -/
def same (a b : Env) : Bool := a.size = b.size && a.entries.all fun (v, x) => b.get v = x

/-- Takes over another environment, and keeps its own entries where that is the same. -/
def replace (target source : Env) : Env × Bool :=
  if target.same source then (target, false) else (source, true)

/-- Joins every entry of `source` into `target` and says whether that changed it. -/
def mergeInto (source target : Env) : Env × Bool :=
  source.entries.foldl (fun (t, changed) (v, x) =>
    let (t, news) := t.update v (x.join (t.get v))
    (t, changed || news)) (target, false)

/-- The entries by name; those of one name keep their order. -/
def text (e : Env) : Except NoText String := do
  let entries := e.entries.mergeSort fun a b => decide (a.1.name ≤ b.1.name)
  let shown ← entries.mapM fun (v, x) => return v.name ++ "=" ++ (← x.text)
  return "CPFact(\x7b" ++ ", ".intercalate shown ++ "\x7d)"

/-! ## What an operation does to the values -/

@[simp] theorem get_empty (v : Var) : empty.get v = .undefined := rfl

@[simp] theorem get_erase (e : Env) (v w : Var) :
    (e.erase v).get w = if v = w then .undefined else e.get w :=
  lookup_erase e.entries v w

@[simp] theorem get_set (e : Env) (v w : Var) (x : Value) :
    (e.set v x).get w = if v = w then x else e.get w := by
  unfold set
  split
  next h => simp [h]
  next => exact lookup_put e.entries v w x

theorem get_of_mem {e : Env} {v : Var} {x : Value} (h : (v, x) ∈ e.entries) : e.get v = x :=
  lookup_of_mem e.distinct h

theorem mem_of_get {e : Env} {v : Var} (h : e.get v ≠ .undefined) : (v, e.get v) ∈ e.entries :=
  mem_of_lookup h

theorem le_iff {a b : Env} : a.le b = true ↔ ∀ v, (a.get v).le (b.get v) = true := by
  simp only [le, List.all_eq_true]
  constructor
  · intro h v
    by_cases hv : a.get v = .undefined
    · simp [hv, Value.undefined_le]
    · exact h _ (mem_of_get hv)
  · intro h e he
    simpa [get_of_mem he] using h e.1

end Env

end Dataflow
