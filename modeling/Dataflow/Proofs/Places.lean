/-!
# Values at places

A vector holds a value at each of `n` places. What is read at a place is what was last written there.
-/
namespace Dataflow

variable {α : Type} {n : Nat}

@[simp] theorem get_replicate (x : α) (p : Fin n) : (Vector.replicate n x).get p = x :=
  Vector.getElem_replicate p.isLt

theorem get_setIfInBounds (xs : Vector α n) (p q : Fin n) (x : α) :
    (xs.setIfInBounds p x).get q = if p = q then x else xs.get q := by
  change (xs.setIfInBounds p x)[q.val] = if p = q then x else xs[q.val]
  simp only [Vector.getElem_setIfInBounds, Fin.ext_iff]

end Dataflow
