import Mathlib.Tactic
import RefineMesh.CellQuery
import RefineMesh.Edge

/-!
# Edge swaps

`ref_swap_tri_pass` visits the edges of a surface mesh and replaces the two
triangles on an edge by those on the other diagonal, when a row of questions is
answered yes.  The questions on geometry, quality, lengths and normals depend on
floating point values; they are parameters of the pass.
-/

namespace RefineMesh

variable {D : Type}

/-- The three lines of `ref_swap_node23` that look for the corner behind the
directed edge from `node0` to `node1`. -/
def nodeBehind (nodes : Nat → Int) (node0 node1 : Int) (found : Int) : Int :=
  let found := if node0 = nodes 0 ∧ node1 = nodes 1 then nodes 2 else found
  let found := if node0 = nodes 1 ∧ node1 = nodes 2 then nodes 0 else found
  if node0 = nodes 2 ∧ node1 = nodes 0 then nodes 1 else found

section Questions

variable (node0 node1 : Int)

/-- `ref_swap_node23`. -/
def swapNode23 (tri : RefCell) : Except Status (Int × Int) := do
  match ← tri.listWith2 node0 node1 2 with
  | [cell0, cell1] =>
      let nodes ← tri.nodes cell0
      let node2 := nodeBehind nodes node0 node1 refEmpty
      let node3 := nodeBehind nodes node1 node0 refEmpty
      let nodes ← tri.nodes cell1
      let node2 := nodeBehind nodes node0 node1 node2
      let node3 := nodeBehind nodes node1 node0 node3
      if node2 = refEmpty then .error .failure
      else if node3 = refEmpty then .error .failure
      else .ok (node2, node3)
  | _ => .error .failure

/-- `ref_swap_same_faceid`. -/
def swapSameFaceid (g : RefGrid D) : Except Status Bool :=
  let hasEdg := (g.cell .edg).hasSide node0 node1
  let hasTri := (g.cell .tri).hasSide node0 node1
  let hasQua := (g.cell .qua).hasSide node0 node1
  if hasEdg || (hasTri && hasQua) then .ok false
  else do
    match ← (g.cell .tri).listWith2 node0 node1 2 with
    | [] => .ok true
    | [cell0, cell1] =>
        let nodes ← (g.cell .tri).nodes cell0
        let id0 := nodes (g.cell .tri).nodePer
        let nodes ← (g.cell .tri).nodes cell1
        let id1 := nodes (g.cell .tri).nodePer
        .ok (id0 = id1)
    | _ => .error .failure

/-- A row with its first three nodes replaced. -/
def withTri (nodes : Nat → Int) (node0 node1 node2 : Int) : Nat → Int :=
  Function.update (Function.update (Function.update nodes 0 node0) 1 node1) 2 node2

/-- One `RXS` on `ref_cell_with` in `ref_swap_manifold`: whether a cell is
there. -/
def swapHasCell (tri : RefCell) (nodes : Nat → Int) : Except Status Bool :=
  match tri.cellWith nodes with
  | .ok _ => .ok true
  | .error .notFound => .ok false
  | .error status => .error status

/-- `ref_swap_manifold`. -/
def swapManifold (tri : RefCell) : Except Status Bool := do
  let (node2, node3) ← swapNode23 node0 node1 tri
  match ← tri.listWith2 node0 node1 2 with
  | [cell0, _] =>
      let nodes ← tri.nodes cell0
      let nodes := withTri nodes node0 node3 node2
      if ← swapHasCell tri nodes then .ok false
      else
        let nodes := withTri nodes node1 node2 node3
        if ← swapHasCell tri nodes then .ok false
        else .ok (!tri.hasSide node2 node3)
  | _ => .error .failure

/-- `ref_swap_edge_mixed`. -/
def swapEdgeMixed (g : RefGrid D) : Bool :=
  !(g.cell .qua).hasSide node0 node1 && !(g.cell .pri).hasSide node0 node1 &&
    !(g.cell .pyr).hasSide node0 node1 && !(g.cell .hex).hasSide node0 node1

/-- `ref_swap_local_cell`. -/
def swapLocalCell (g : RefGrid D) : Bool :=
  ((g.cell .tri).having2 node0 node1).all fun cell =>
    (List.range (g.cell .tri).nodePer).all fun testNode =>
      g.node.Owned ((g.cell .tri).c2n cell testNode).toNat

end Questions

/-- The answers to `ref_swap_geom_topo`, `ref_swap_quality`, `ref_swap_ratio`,
`ref_swap_conforming` and `ref_swap_outward_norm`. -/
structure SwapTests (D : Type) where
  geomTopo : RefGrid D → Int → Int → Except Status Bool
  quality : RefGrid D → Int → Int → Except Status Bool
  ratio : RefGrid D → Int → Int → Except Status Bool
  conforming : RefGrid D → Int → Int → Except Status Bool
  outwardNorm : RefGrid D → Int → Int → Except Status Bool

/-- `ref_swap_tri_edge`. -/
def swapTriEdge (node0 node1 : Int) (tri : RefCell) : Except Status RefCell := do
  let (node2, node3) ← swapNode23 node0 node1 tri
  match ← tri.listWith2 node0 node1 2 with
  | [cell0, cell1] =>
      let nodes ← tri.nodes cell0
      let tri ← tri.remove cell0
      let tri ← tri.remove cell1
      let nodes := withTri nodes node0 node3 node2
      let (tri, _) ← tri.add nodes
      let nodes := withTri nodes node1 node2 node3
      let (tri, _) ← tri.add nodes
      .ok tri
  | _ => .error .failure

/-- `ref_node_age(ref_node, node)++` for both ends of an edge. -/
def ageBoth (s : RefNode D) (node0 node1 : Int) : RefNode D :=
  let older := fun (age : Nat → Int) (node : Int) =>
    Function.update age node.toNat (age node.toNat + 1)
  { s with age := older (older s.age node0) node1 }

section Pass

variable (surf : Bool) (tests : SwapTests D)

/-- The questions of `ref_swap_tri_pass` from `ref_swap_edge_mixed` on, but for
the last. -/
def swapAllowed (g : RefGrid D) (node0 node1 : Int) : Except Status Bool := do
  if !swapEdgeMixed node0 node1 g then .ok false
  else if !(← swapSameFaceid node0 node1 g) then .ok false
  else if !(← swapManifold node0 node1 (g.cell .tri)) then .ok false
  else if !(← tests.geomTopo g node0 node1) then .ok false
  else if !(← tests.quality g node0 node1) then .ok false
  else if !(← tests.ratio g node0 node1) then .ok false
  else if surf then tests.conforming g node0 node1
  else tests.outwardNorm g node0 node1

/-- The body of the loop of `ref_swap_tri_pass`. -/
def swapTriStep (g : RefGrid D) (edge : Int × Int) : Except Status (RefGrid D) :=
  let node0 := edge.1
  let node1 := edge.2
  if (g.cell .edg).hasSide node0 node1 then .ok g
  else if !(g.cell .tri).hasSide node0 node1 then .ok g
  else if ¬ g.node.Owned node0.toNat ∧ ¬ g.node.Owned node1.toNat then .ok g
  else do
    if !(← swapAllowed surf tests g node0 node1) then .ok g
    else if !swapLocalCell node0 node1 g then .ok { g with node := ageBoth g.node node0 node1 }
    else
      let tri ← swapTriEdge node0 node1 (g.cell .tri)
      .ok (g.setCell .tri tri)

/-- The loop of `ref_swap_tri_pass` over a list of edges. -/
def swapTriLoop (edges : List (Int × Int)) (g : RefGrid D) : Except Status (RefGrid D) :=
  edges.foldlM (swapTriStep surf tests) g

/-- `ref_swap_tri_pass`; `mem` is the memory of the edge list. -/
def swapTriPass (twod : Bool) (mem : RefEdge) (g : RefGrid D) : Except Status (RefGrid D) :=
  if surf || twod then do
    let refEdge ← RefEdge.create mem g
    swapTriLoop surf tests
      ((List.range refEdge.n).map fun edge => (refEdge.e2n edge 0, refEdge.e2n edge 1)) g
  else .error .failure

end Pass

end RefineMesh
