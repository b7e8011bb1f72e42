import Mathlib.Tactic
import RefineMesh.Status
import RefineMesh.FreeList
import RefineMesh.Sort
import RefineMesh.Adj

/-!
# The cell store

`REF_CELL_STRUCT` keeps the cells of one type: a table `c2n` of node indices,
with the id of the cell in a last column for the boundary types, a blank list
threaded through column 1 of the unused rows, and the adjacency from nodes to
cells.  `c2n cell node` is the entry that the source writes
`ref_cell_c2n(ref_cell, node, cell)`.
-/

namespace RefineMesh

open SlotList

/-- `REF_CELL_TYPE`. -/
inductive CellType
  | edg | ed2 | ed3 | tri | tr2 | tr3 | qua | qu2
  | tet | pyr | pri | hex | te2 | py2 | pr2 | he2
  deriving DecidableEq, Repr

namespace CellType

/-- `ref_cell_last_node_is_an_id`, set in `ref_cell_initialize`. -/
def lastNodeIsAnId : CellType → Bool
  | edg | ed2 | ed3 | tri | tr2 | tr3 | qua | qu2 => true
  | tet | pyr | pri | hex | te2 | py2 | pr2 | he2 => false

/-- `ref_cell_node_per`. -/
def nodePer : CellType → Nat
  | edg => 2
  | ed2 => 3
  | ed3 => 4
  | tri => 3
  | tr2 => 6
  | tr3 => 10
  | qua => 4
  | qu2 => 9
  | tet => 4
  | pyr => 5
  | pri => 6
  | hex => 8
  | te2 => 10
  | py2 => 14
  | pr2 => 18
  | he2 => 27

/-- `ref_cell_size_per`. -/
def sizePer (t : CellType) : Nat := t.nodePer + (if t.lastNodeIsAnId then 1 else 0)

theorem two_le_nodePer (t : CellType) : 2 ≤ t.nodePer := by cases t <;> decide

theorem nodePer_le_sizePer (t : CellType) : t.nodePer ≤ t.sizePer := Nat.le_add_right _ _

end CellType

/-- `REF_CELL_STRUCT`; the counts and tables that `ref_cell_initialize` derives
from the type are functions of `cellType`. -/
structure RefCell where
  cellType : CellType
  n : Nat
  max : Nat
  blank : Int
  c2n : Nat → Nat → Int
  adj : RefAdj

namespace RefCell

/-- `ref_cell_node_per`. -/
def nodePer (s : RefCell) : Nat := s.cellType.nodePer

/-- `ref_cell_size_per`. -/
def sizePer (s : RefCell) : Nat := s.cellType.sizePer

/-- `ref_cell_valid` of a slot index. -/
def Live (s : RefCell) (cell : Nat) : Prop := cell < s.max ∧ s.c2n cell 0 ≠ refEmpty

instance (s : RefCell) : DecidablePred s.Live :=
  fun cell => inferInstanceAs (Decidable (cell < s.max ∧ s.c2n cell 0 ≠ refEmpty))

/-- The rows `orig` to `size` linked into a blank list: the first column marks
the row invalid, the second is the link. -/
def linkRows (orig size : Nat) (c2n : Nat → Nat → Int) : Nat → Nat → Int :=
  fun cell node =>
    if node = 0 then (if orig ≤ cell ∧ cell < size then refEmpty else c2n cell 0)
    else if node = 1 then linkFresh plainLink refEmpty orig size (fun k => c2n k 1) cell
    else c2n cell node

/-- `ref_cell_create`, over memory `mem` that the allocations do not clear. -/
def create (mem : RefCell) (cellType : CellType) : RefCell :=
  let max := 100
  { cellType := cellType
    n := 0
    max := max
    c2n := linkRows 0 max mem.c2n
    blank := 0
    adj := RefAdj.create mem.adj }

/-- The nodes of a cell, without its id. -/
def nodeList (s : RefCell) (cell : Nat) : List Int := (List.range s.nodePer).map (s.c2n cell)

/-- `ref_cell_nodes`. -/
def nodes (s : RefCell) (cell : Nat) : Except Status (Nat → Int) :=
  if ¬ s.Live cell then .error .invalid else .ok (s.c2n cell)

/-- The cells in the order of `each_ref_cell_valid_cell`. -/
def validCells (s : RefCell) : List Nat := (List.range s.max).filter (fun c => s.Live c)

/-- The growth of `ref_cell_add`.  The length of the table is computed in
`REF_INT`. -/
def grow (s : RefCell) : Except Status RefCell :=
  let maxLimit := refIntMax / 4
  if s.blank ≠ refEmpty then .ok s
  else if s.max = maxLimit then .error .failure
  else
    let orig := s.max
    let chunk := Nat.max 5000 (3 * orig / 2)
    if maxLimit ≤ orig then .error .failure
    else
      let chunk := Nat.min chunk (maxLimit - orig)
      let max := orig + chunk
      if refIntMax < s.sizePer * max then .error .undefined
      else .ok { s with
        max := max
        c2n := linkRows orig max s.c2n
        blank := orig }

/-- `ref_cell_add`: the cell takes the first blank row and is registered with
each of its nodes. -/
def add (s : RefCell) (nodes : Nat → Int) : Except Status (RefCell × Nat) := do
  let s ← s.grow
  let cell := s.blank.toNat
  let row := fun node => if node < s.sizePer then nodes node else s.c2n cell node
  let adj ← (List.range s.nodePer).foldlM (fun adj node => adj.add (nodes node) cell) s.adj
  .ok ({ s with
    blank := s.c2n cell 1
    c2n := Function.update s.c2n cell row
    adj := adj
    n := s.n + 1 }, cell)

/-- `ref_cell_remove`. -/
def remove (s : RefCell) (cell : Nat) : Except Status RefCell :=
  if ¬ s.Live cell then .error .invalid
  else do
    let adj ← (List.range s.nodePer).foldlM
      (fun adj node => adj.remove (s.c2n cell node) cell) s.adj
    let row := fun node =>
      if node = 0 then refEmpty else if node = 1 then s.blank else s.c2n cell node
    .ok { s with
      n := s.n - 1
      adj := adj
      c2n := Function.update s.c2n cell row
      blank := cell }

/-- The body shared by the two replacements: one entry of a cell is taken off
the list of its old node, overwritten and put on the list of the new one. -/
def replaceEntry (s : RefCell) (cell node : Nat) (newNode : Int) : Except Status RefCell := do
  let adj ← s.adj.remove (s.c2n cell node) cell
  let c2n := Function.update s.c2n cell (Function.update (s.c2n cell) node newNode)
  let adj ← adj.add newNode cell
  .ok { s with c2n := c2n, adj := adj }

/-- `ref_cell_replace_whole`. -/
def replaceWhole (s : RefCell) (cell : Nat) (nodes : Nat → Int) : Except Status RefCell :=
  if ¬ s.Live cell then .error .failure
  else do
    let s ← (List.range s.nodePer).foldlM
      (fun s node => s.replaceEntry cell node (nodes node)) s
    if s.cellType.lastNodeIsAnId then
      let node := s.sizePer - 1
      .ok { s with
        c2n := Function.update s.c2n cell (Function.update (s.c2n cell) node (nodes node)) }
    else .ok s

/-- The inner loop of `ref_cell_replace_node` over the nodes of one cell. -/
def replaceInCell (s : RefCell) (cell : Nat) (oldNode newNode : Int) : Except Status RefCell :=
  (List.range s.nodePer).foldlM
    (fun s node =>
      if oldNode = s.c2n cell node then s.replaceEntry cell node newNode else .ok s) s

/-- The outer loop of `ref_cell_replace_node`, cut off after `fuel` rounds:
`none` when it has not ended by then. -/
def replaceNodeLoop (oldNode newNode : Int) : Nat → RefCell → Option (Except Status RefCell)
  | 0, _ => none
  | fuel+1, s =>
      let item := s.adj.firstItem oldNode
      if item = refEmpty then some (.ok s)
      else
        match s.replaceInCell (s.adj.itemRef item.toNat).toNat oldNode newNode with
        | .ok s => replaceNodeLoop oldNode newNode fuel s
        | .error status => some (.error status)

/-- `ref_cell_replace_node`. -/
def replaceNode (s : RefCell) (oldNode newNode : Int) (fuel : Nat) :
    Option (Except Status RefCell) :=
  if oldNode = newNode then some (.ok s) else replaceNodeLoop oldNode newNode fuel s

end RefCell

end RefineMesh
