import Mathlib.Tactic
import RefineMesh.Status
import RefineMesh.Sort
import RefineMesh.FreeList
import RefineMesh.ArrayLoops

/-!
# The node store

`REF_NODE_STRUCT` keeps three views of the nodes of one rank: the slot array
`global`, whose negative entries thread the blank list through the unused
slots; the pair `sortedGlobal`, `sortedLocal`, ascending in the first; and the
stack of released globals.  An array is a function from positions; the entries
past its allocated length are whatever the memory held.  A slot index is a
`Nat`: a negative index fails `ref_node_valid` before it is used.

`REF_DBL` data only moves through the store, so its type is a parameter.  The
one arithmetic the store needs is the logarithm of a metric.
-/

namespace RefineMesh

/-- What the stores use of `REF_DBL`: two constants and `ref_matrix_log_m`. -/
class RefDbl (D : Type) where
  zero : D
  one : D
  logM : (Nat → D) → Except Status (Nat → D)

/-- `REF_NODE_STRUCT`; `real node i` is `real[i + REF_NODE_REAL_PER*node]` and
`rank` is the rank of its `ref_mpi`. -/
structure RefNode (D : Type) where
  n : Nat
  max : Nat
  blank : Int
  global : Nat → Int
  sortedGlobal : Nat → Int
  sortedLocal : Nat → Nat
  part : Nat → Nat
  age : Nat → Int
  real : Nat → Nat → D
  naux : Nat
  aux : Nat → Nat → D
  rank : Nat
  nUnused : Nat
  maxUnused : Nat
  unusedGlobal : Nat → Int
  oldNGlobal : Int
  newNGlobal : Int

/-- `next2index`, the slot behind a link of the blank list. -/
def next2index (next : Int) : Int := -next - 2

/-- `index2next`: links start at `-2`, below the terminator `REF_EMPTY`. -/
def index2next (index : Nat) : Int := -2 - index

@[simp] theorem next2index_index2next (k : Nat) : (next2index (index2next k)).toNat = k := by
  unfold next2index index2next; omega

theorem index2next_injective : Function.Injective index2next := by
  intro i j h
  unfold index2next at h
  omega

theorem index2next_ne_refEmpty (k : Nat) : index2next k ≠ refEmpty := by
  unfold index2next refEmpty; omega

theorem index2next_neg (k : Nat) : index2next k < 0 := by
  unfold index2next; omega

/-- `REF_NODE_REAL_PER`: the coordinates, the metric and its logarithm. -/
def refNodeRealPer : Nat := 15

namespace RefNode

variable {D : Type}

/-- `ref_node_valid` of a slot index. -/
def Live (s : RefNode D) (node : Nat) : Prop := node < s.max ∧ 0 ≤ s.global node

instance (s : RefNode D) : DecidablePred s.Live :=
  fun node => inferInstanceAs (Decidable (node < s.max ∧ 0 ≤ s.global node))

/-- `ref_node_owned`. -/
def Owned (s : RefNode D) (node : Nat) : Prop := s.rank = s.part node

instance (s : RefNode D) : DecidablePred s.Owned :=
  fun node => inferInstanceAs (Decidable (s.rank = s.part node))

/-- The slots in the order of `each_ref_node_valid_node`. -/
def validNodes (s : RefNode D) : List Nat := (List.range s.max).filter (fun k => s.Live k)

/-- `ref_node_create`, over memory `mem` that the allocations do not clear. -/
def create (mem : RefNode D) (rank : Nat) : RefNode D :=
  let max := 20
  { mem with
    n := 0
    max := max
    global := SlotList.linkFresh index2next refEmpty 0 max mem.global
    blank := index2next 0
    naux := 0
    rank := rank
    nUnused := 0
    maxUnused := 10
    oldNGlobal := refEmpty
    newNGlobal := refEmpty }

/-- `ref_node_local`. -/
def nodeLocal (s : RefNode D) (global : Int) : Except Status Nat :=
  (sortSearch s.n s.sortedGlobal global).map s.sortedLocal

/-- `ref_node_metric_set`. -/
def metricSet [RefDbl D] (s : RefNode D) (node : Nat) (m : Nat → D) :
    Except Status (RefNode D) := do
  let s := { s with
    real := Function.update s.real node
      (fun i => if 3 ≤ i ∧ i < 9 then m (i - 3) else s.real node i) }
  let logM ← RefDbl.logM m
  .ok { s with
    real := Function.update s.real node
      (fun i => if 9 ≤ i ∧ i < 15 then logM (i - 9) else s.real node i) }

/-- `ref_node_metric_form`. -/
def metricForm [RefDbl D] (s : RefNode D) (node : Nat) (m11 m12 m13 m22 m23 m33 : D) :
    Except Status (RefNode D) :=
  s.metricSet node fun
    | 0 => m11
    | 1 => m12
    | 2 => m13
    | 3 => m22
    | 4 => m23
    | _ => m33

/-- The growth of `ref_node_add_core` when the blank list is exhausted.  The
new maximum is computed in `REF_INT` without a limit check. -/
def grow (s : RefNode D) : Except Status (RefNode D) :=
  let orig := s.max
  let chunk := Nat.max 5000 (3 * orig / 2)
  let max := orig + chunk
  if refIntMax < max then .error .undefined
  else .ok { s with
    max := max
    global := SlotList.linkFresh index2next refEmpty orig max s.global
    blank := index2next orig }

/-- The guard of the growth: only an exhausted blank list grows. -/
def growIfFull (s : RefNode D) : Except Status (RefNode D) :=
  if s.blank = refEmpty then s.grow else .ok s

/-- `ref_node_add_core`: take the first blank slot, growing when there is
none.  The sorted arrays are left to the caller. -/
def addCore [RefDbl D] (s : RefNode D) (global : Int) : Except Status (RefNode D × Nat) :=
  if global < 0 then .error .invalid
  else do
    let s ← s.growIfFull
    let node := (next2index s.blank).toNat
    let s := { s with
      blank := s.global node
      global := Function.update s.global node global
      part := Function.update s.part node s.rank
      age := Function.update s.age node 0 }
    let s ← s.metricForm node RefDbl.one RefDbl.zero RefDbl.zero RefDbl.one RefDbl.zero
      RefDbl.one
    .ok ({ s with n := s.n + 1 }, node)

/-- The search of `ref_node_add` for the insertion point, from the largest
entry down. -/
def insertPoint (sortedGlobal : Nat → Int) (global : Int) : Nat → Nat
  | 0 => 0
  | k+1 => if sortedGlobal k < global then k + 1 else insertPoint sortedGlobal global k

/-- `ref_node_add`. -/
def add [RefDbl D] (s : RefNode D) (global : Int) : Except Status (RefNode D × Nat) :=
  if global < 0 then .error .invalid
  else
    match s.nodeLocal global with
    | .ok node => .ok (s, node)
    | .error .notFound => do
        let (s, node) ← s.addCore global
        let point := insertPoint s.sortedGlobal global (s.n - 1)
        .ok ({ s with
          sortedGlobal := Function.update
            (ArrayLoop.shiftDown point (s.n - 1) s.sortedGlobal) point global
          sortedLocal := Function.update
            (ArrayLoop.shiftDown point (s.n - 1) s.sortedLocal) point node }, node)
    | .error status => .error status

/-- `ref_node_rebuild_sorted_global`: pack the valid slots, heap sort their
globals and read both arrays back through the order. -/
def rebuildSortedGlobal (s : RefNode D) : RefNode D :=
  let pack := fun i => s.validNodes.getD i 0
  let packed := fun i =>
    if i < s.validNodes.length then s.global (pack i) else s.sortedGlobal i
  let order := sortHeap s.n packed s.sortedLocal
  let sortedLocal := fun i => if i < s.n then pack (order i) else order i
  { s with
    sortedLocal := sortedLocal
    sortedGlobal := fun i => if i < s.n then s.global (sortedLocal i) else packed i }

/-- The loop of `ref_node_add_many` over the sorted candidates: `j` is the
first of the current run of equal globals, the rest of the run is blanked. -/
def blankRepeats (sorted : Nat → Nat) (n : Nat) (global : Nat → Int) : Nat × (Nat → Int) :=
  (List.range' 1 (n - 1)).foldl
    (fun acc i =>
      if acc.2 (sorted i) ≠ acc.2 (sorted acc.1) then (i, acc.2)
      else (acc.1, Function.update acc.2 (sorted i) refEmpty))
    (0, global)

/-- `ref_node_add_many`. -/
def addMany [RefDbl D] (s : RefNode D) (globalOrig : List Int) : Except Status (RefNode D) := do
  let candidates := globalOrig.filter (fun g => s.nodeLocal g = .error .notFound)
  let nadd := candidates.length
  let sorted := sortHeap nadd (fun i => candidates.getD i 0) (fun _ => 0)
  let global := (blankRepeats sorted nadd (fun i => candidates.getD i 0)).2
  let s ← (List.range nadd).foldlM
    (fun s i => if global i ≠ refEmpty then (s.addCore (global i)).map Prod.fst else .ok s) s
  .ok s.rebuildSortedGlobal

/-- `ref_node_push_unused`. -/
def pushUnused (s : RefNode D) (unused : Int) : RefNode D :=
  { s with
    maxUnused := if s.maxUnused = s.nUnused then s.maxUnused + 1000 else s.maxUnused
    unusedGlobal := Function.update s.unusedGlobal s.nUnused unused
    nUnused := s.nUnused + 1 }

/-- `ref_node_pop_unused`. -/
def popUnused (s : RefNode D) : Except Status (RefNode D × Int) :=
  if s.nUnused = 0 then .error .failure
  else .ok ({ s with nUnused := s.nUnused - 1 }, s.unusedGlobal (s.nUnused - 1))

/-- The tail of every removal: the slot heads the blank list. -/
def release (s : RefNode D) (node : Nat) : RefNode D :=
  { s with
    global := Function.update s.global node s.blank
    blank := index2next node
    n := s.n - 1 }

/-- The shift of both sorted arrays that closes the gap at `location`. -/
def closeGap (s : RefNode D) (location : Nat) : RefNode D :=
  { s with
    sortedGlobal := ArrayLoop.shiftUp (s.n - 1 - location) location s.sortedGlobal
    sortedLocal := ArrayLoop.shiftUp (s.n - 1 - location) location s.sortedLocal }

/-- `ref_node_remove_without_global`. -/
def removeWithoutGlobal (s : RefNode D) (node : Nat) : Except Status (RefNode D) :=
  if ¬ s.Live node then .error .invalid
  else do
    let location ← sortSearch s.n s.sortedGlobal (s.global node)
    .ok ((s.closeGap location).release node)

/-- `ref_node_remove`. -/
def remove (s : RefNode D) (node : Nat) : Except Status (RefNode D) :=
  if ¬ s.Live node then .error .invalid
  else do
    let location ← sortSearch s.n s.sortedGlobal (s.global node)
    .ok (((s.closeGap location).pushUnused (s.global node)).release node)

/-- `ref_node_remove_invalidates_sorted`. -/
def removeInvalidatesSorted (s : RefNode D) (node : Nat) : Except Status (RefNode D) :=
  if ¬ s.Live node then .error .invalid
  else .ok ((s.pushUnused (s.global node)).release node)

/-- `ref_node_remove_without_global_invalidates_sorted`. -/
def removeWithoutGlobalInvalidatesSorted (s : RefNode D) (node : Nat) :
    Except Status (RefNode D) :=
  if ¬ s.Live node then .error .invalid
  else .ok (s.release node)

/-- `ref_node_initialize_n_global`. -/
def initializeNGlobal (s : RefNode D) (nGlobal : Int) : RefNode D :=
  { s with oldNGlobal := nGlobal, newNGlobal := nGlobal }

/-- `ref_node_next_global`. -/
def nextGlobal (s : RefNode D) : Except Status (RefNode D × Int) :=
  if 0 < s.nUnused then s.popUnused
  else
    let s := if s.newNGlobal = refEmpty then s.initializeNGlobal s.n else s
    .ok ({ s with newNGlobal := s.newNGlobal + 1 }, s.newNGlobal)

end RefNode

end RefineMesh
