import Dataflow.Routine.Ty
/-!
# Sets of variables
-/
namespace Dataflow

structure VarSet where
  members : List Var
  distinct : members.Nodup

namespace VarSet

def empty : VarSet := ⟨[], List.nodup_nil⟩

def contains (s : VarSet) (v : Var) : Bool := decide (v ∈ s.members)

def size (s : VarSet) : Nat := s.members.length

def insert (s : VarSet) (v : Var) : VarSet :=
  if h : v ∈ s.members then s
  else ⟨s.members ++ [v], List.nodup_append.2 ⟨s.distinct, by simp, by grind⟩⟩

def erase (s : VarSet) (v : Var) : VarSet :=
  ⟨s.members.filter (· ≠ v), s.distinct.sublist List.filter_sublist⟩

def ofList (vs : List Var) : VarSet := vs.foldl insert empty

def union (s t : VarSet) : VarSet := t.members.foldl insert s

/-- Adds a variable and says whether that is news. -/
def add (s : VarSet) (v : Var) : VarSet × Bool := (s.insert v, !s.contains v)

/-- Takes a variable out and says whether it was there. -/
def remove (s : VarSet) (v : Var) : VarSet × Bool := (s.erase v, s.contains v)

def subset (s t : VarSet) : Bool := s.members.all t.contains

/-- The same members, in whatever order. -/
def same (s t : VarSet) : Bool := s.size = t.size && s.subset t

/-- Adds the members of `source` to `target` and says whether there were new ones. -/
def mergeInto (source target : VarSet) : VarSet × Bool :=
  let merged := target.union source
  (merged, merged.size != target.size)

/-- Takes over another set and says whether that is a change. -/
def replace (target source : VarSet) : VarSet × Bool :=
  if target.same source then (target, false) else (source, true)

/-- The names in order, as often as there are variables of the name. -/
def text (s : VarSet) : String :=
  let names := (s.members.map (·.name)).mergeSort fun a b => decide (a ≤ b)
  "\x7b" ++ ", ".intercalate names ++ "\x7d"

/-! ## Membership -/

instance : Membership Var VarSet := ⟨fun s v => v ∈ s.members⟩

theorem mem_members {s : VarSet} {v : Var} : v ∈ s ↔ v ∈ s.members := Iff.rfl

@[simp] theorem contains_iff {s : VarSet} {v : Var} : s.contains v = true ↔ v ∈ s := by
  simp [contains, mem_members]

@[simp] theorem not_mem_empty (v : Var) : v ∉ empty := by simp [empty, mem_members]

@[simp] theorem mem_insert {s : VarSet} {v w : Var} : w ∈ s.insert v ↔ w ∈ s ∨ w = v := by
  unfold insert
  split
  · simp [mem_members]; grind
  · simp [mem_members]

@[simp] theorem mem_erase {s : VarSet} {v w : Var} : w ∈ s.erase v ↔ w ∈ s ∧ w ≠ v := by
  simp [erase, mem_members]

theorem mem_foldl_insert {vs : List Var} {s : VarSet} {w : Var} :
    w ∈ vs.foldl insert s ↔ w ∈ s ∨ w ∈ vs := by
  induction vs generalizing s with
  | nil => simp
  | cons v vs ih => simp [ih, or_assoc]

@[simp] theorem mem_ofList {vs : List Var} {w : Var} : w ∈ ofList vs ↔ w ∈ vs := by
  simp [ofList, mem_foldl_insert]

@[simp] theorem mem_union {s t : VarSet} {w : Var} : w ∈ s.union t ↔ w ∈ s ∨ w ∈ t :=
  mem_foldl_insert

theorem subset_iff {s t : VarSet} : s.subset t = true ↔ ∀ v ∈ s, v ∈ t := by
  simp [subset, mem_members]

end VarSet

end Dataflow
