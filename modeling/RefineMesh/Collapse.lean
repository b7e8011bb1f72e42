import Mathlib.Tactic
import RefineMesh.CellRuns
import RefineMesh.Grid

/-!
# Collapsing an edge

`ref_collapse_edge` removes the cells that hold both ends of an edge and puts
`node0` in the place of `node1` in all others.  Before that the caller asks
three questions: are there other cells at `node1`, does the geometry allow the
move, and does it keep the mesh a manifold.  A question is answered with a
truth value or fails with a code.
-/

namespace RefineMesh

open Chains

variable {D : Type}

/-- `MAX_CELL_COLLAPSE`. -/
def maxCellCollapse : Nat := 100

/-- `MAX_NODE_LIST`. -/
def maxNodeList : Nat := 1000

/-- A value that is not in the list yet goes to its end; `full` is the code
when there is no room. -/
def insertNew (limit : Nat) (full : Status) (haves : List Int) (x : Int) :
    Except (Status × List Int) (List Int) :=
  if x ∈ haves then .ok haves
  else if haves.length < limit then .ok (haves ++ [x])
  else .error (full, haves)

namespace RefCell

/-- `ref_cell_node_list_around`. -/
def nodeListAround (s : RefCell) (node : Int) (maxNode : Nat) :
    Except (Status × List Int) (List Int) :=
  (s.having node).foldlM (fun nodeList cell =>
    (List.range s.nodePer).foldlM (fun nodeList cellNode =>
      if node = s.c2n cell cellNode then .ok nodeList
      else insertNew maxNode .increaseLimit nodeList (s.c2n cell cellNode)) nodeList) []

/-- `ref_cell_id_list_around`: a failed call has filled the list up to the
cell where it stops. -/
def idListAround (s : RefCell) (node : Int) (maxIds : Nat) :
    Except (Status × List Int) (List Int) :=
  (s.having node).foldlM (fun ids cell => do
    let nodes ← (s.nodes cell).mapError fun status => (status, ids)
    insertNew maxIds .increaseLimit ids (nodes s.nodePer)) []

end RefCell

/-- `ref_collapse_edge_mixed`. -/
def collapseEdgeMixed (g : RefGrid D) (_node0 node1 : Int) : Bool :=
  (g.cell .pyr).adj.firstItem node1 = refEmpty ∧ (g.cell .pri).adj.firstItem node1 = refEmpty ∧
    (g.cell .hex).adj.firstItem node1 = refEmpty ∧ (g.cell .qua).adj.firstItem node1 = refEmpty

/-- The branch of `ref_collapse_edge_geometry` for a node on two faces. -/
def collapseOnTwoFaces (tri : RefCell) (node0 node1 : Int) (ids1 : List Int) :
    Except Status Bool := do
  let cellToCollapse ← tri.listWith2 node0 node1 maxCellCollapse
  match cellToCollapse with
  | [cell0, cell1] =>
      let nodes ← tri.nodes cell0
      let id0 := nodes 3
      let nodes ← tri.nodes cell1
      let id1 := nodes 3
      .ok ((id0 = ids1.getD 0 0 ∧ id1 = ids1.getD 1 0) ∨
        (id1 = ids1.getD 0 0 ∧ id0 = ids1.getD 1 0))
  | _ => .ok false

/-- The `switch` of `ref_collapse_edge_geometry`. -/
def collapseByDegree (tri : RefCell) (node0 node1 : Int) (ids1 : List Int) : Except Status Bool :=
  match ids1.length with
  | 0 => .ok true
  | 1 => .ok (tri.hasSide node0 node1)
  | 2 => collapseOnTwoFaces tri node0 node1 ids1
  | _ => .ok false

/-- `ref_collapse_edge_geometry`. -/
def collapseEdgeGeometry (g : RefGrid D) (node0 node1 : Int) : Except Status Bool :=
  if g.geom.isA node1 .node then .ok false
  else if g.geom.isA node1 .edge then .ok ((g.cell .edg).hasSide node0 node1)
  else
    match (g.cell .tri).idListAround node1 3 with
    | .ok ids1 => collapseByDegree (g.cell .tri) node0 node1 ids1
    | .error (.increaseLimit, ids1) => collapseByDegree (g.cell .tri) node0 node1 ids1
    | .error (status, _) => .error status

section Manifold

variable (node0 node1 : Int)

/-- `will_be_collapsed`. -/
def willBeCollapsed (nodePer : Nat) (nodes : Nat → Int) : Bool :=
  (List.range nodePer).any fun node => node0 = nodes node

/-- The three loops of `ref_collapse_edge_manifold` that look for a cell in the
way: a cell of `node1` that stays must not become a copy of another cell. -/
def noCopy (s : RefCell) : List Nat → Except Status Bool
  | [] => .ok true
  | cell :: rest => do
      let nodes ← s.nodes cell
      if willBeCollapsed node0 s.nodePer nodes then noCopy s rest
      else
        match s.cellWith (substitute s.nodePer node1 node0 nodes) with
        | .error .notFound => noCopy s rest
        | .error status => .error status
        | .ok _ => .ok false

/-- `safe_list`: the nodes of the triangles that go away. -/
def safeList (s : RefCell) : Except (Status × List Int) (List Int) :=
  (s.having node1).foldlM (fun safe cell => do
    let nodes ← (s.nodes cell).mapError fun status => (status, safe)
    if willBeCollapsed node0 s.nodePer nodes then
      (List.range s.nodePer).foldlM (fun safe node => insertNew 4 .failure safe (nodes node)) safe
    else .ok safe) []

/-- The block of `ref_collapse_edge_manifold` on the neighbors: one that
`node0` and `node1` share is on a triangle that goes away. -/
def noNewConnection (s : RefCell) : Except Status Bool := do
  let safe ← (safeList node0 node1 s).mapError Prod.fst
  if safe.length = 0 then .ok true
  else if safe.length = 3 ∨ safe.length = 4 then do
    let nodeList0 ← (s.nodeListAround node0 maxNodeList).mapError Prod.fst
    let nodeList1 ← (s.nodeListAround node1 maxNodeList).mapError Prod.fst
    .ok (nodeList0.all fun x => nodeList1.all fun y => ¬ (x = y ∧ x ∉ safe))
  else .error .failure

/-- `ref_collapse_edge_manifold`. -/
def collapseEdgeManifold (g : RefGrid D) : Except Status Bool := do
  if ¬ (← noCopy node0 node1 (g.cell .tet) ((g.cell .tet).having node1)) then .ok false
  else if ¬ (← noCopy node0 node1 (g.cell .tri) ((g.cell .tri).having node1)) then .ok false
  else if ¬ (← noNewConnection node0 node1 (g.cell .tri)) then .ok false
  else noCopy node0 node1 (g.cell .edg) ((g.cell .edg).having node1)

end Manifold

section Collapse

variable (node0 node1 : Int) (fuel : Nat)

/-- The part of `ref_collapse_edge` for one cell type; `none` when the loop of
`ref_cell_replace_node` has not ended after `fuel` rounds. -/
def collapseGroup (s : RefCell) : Option (Except Status RefCell) :=
  match (do
    let cellToCollapse ← s.listWith2 node0 node1 maxCellCollapse
    cellToCollapse.foldlM RefCell.remove s : Except Status RefCell) with
  | .error status => some (.error status)
  | .ok s => s.replaceNode node1 node0 fuel

/-- Two calls that may not end, one after the other. -/
def andThen {α β : Type} (x : Option (Except Status α)) (f : α → Option (Except Status β)) :
    Option (Except Status β) :=
  match x with
  | none => none
  | some (.error status) => some (.error status)
  | some (.ok a) => f a

/-- `ref_node_remove` of a node that may be negative. -/
def removeNode (s : RefNode D) (node : Int) : Except Status (RefNode D) :=
  if node < 0 then .error .invalid else s.remove node.toNat

/-- `ref_collapse_edge`. -/
def collapseEdge (g : RefGrid D) : Option (Except Status (RefGrid D)) :=
  andThen (collapseGroup node0 node1 fuel (g.cell .tet)) fun tet =>
  let g := g.setCell .tet tet
  andThen (collapseGroup node0 node1 fuel (g.cell .tri)) fun tri =>
  let g := g.setCell .tri tri
  andThen (collapseGroup node0 node1 fuel (g.cell .edg)) fun edg =>
  let g := g.setCell .edg edg
  andThen (some (removeNode g.node node1)) fun node =>
  andThen (g.geom.removeAll node1 fuel) fun geom =>
  some (.ok { g with node := node, geom := geom })

end Collapse

end RefineMesh
