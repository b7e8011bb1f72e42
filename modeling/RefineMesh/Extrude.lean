import Mathlib.Tactic
import RefineMesh.BoundaryOrientation
import RefineMesh.Iso

/-!
# Extrusion of a 2D grid

`ref_grid_extrude_twod` makes a grid of prisms and hexes from planes of nodes,
one copy of the nodes of a 2D grid for each plane.  The nodes of the cells are
the slots of the 2D nodes, shifted by the number of 2D nodes for each plane.
-/

namespace RefineMesh

open Spmd
open scoped List

/-- What the extrusion uses of `REF_DBL`: the conversion of a `REF_INT` and the
division. -/
class RefPlaneDbl (D : Type) extends RefDbl D, IntCast D, Div D

variable {D : Type}

/-- `REF_INT_MIN`. -/
def refIntMin : Int := -2147483648

/-- `MPI_MAX` on `REF_INT`. -/
def intMax (a b : Int) : Int := max a b

/-- `ref_mpi_max` of one `REF_INT`; only rank 0 has the maximum. -/
def mpiMaxInt (p : Nat) (x : Int) : RankProg D Int :=
  (mpiSum p .int intMax 1 (fun _ => x) fun _ => x).bind fun output => .ret (output 0)

/-- One side in `ref_grid_orient_edg`: its nodes if the edge is on it. -/
def matchSide (nodes sideNodes : Nat → Int) (found : Int × Int) (side : Nat × Nat) : Int × Int :=
  if min (nodes 0) (nodes 1) = min (sideNodes side.1) (sideNodes side.2) ∧
      max (nodes 0) (nodes 1) = max (sideNodes side.1) (sideNodes side.2) then
    (sideNodes side.1, sideNodes side.2)
  else found

/-- The sides of the cell of one type with the edge, if there is one. -/
def matchSides (s : RefCell) (nodes : Nat → Int) (cells : List Nat) (found : Int × Int) :
    Except Status (Int × Int) :=
  match cells with
  | [cell] => do
      let sideNodes ← s.nodes cell
      .ok (s.cellType.e2n.foldl (matchSide nodes sideNodes) found)
  | _ => .ok found

namespace RefGrid

/-- `ref_grid_orient_edg`. -/
def orientEdg (g : RefGrid D) (nodes : Nat → Int) : Except Status (Nat → Int) := do
  let tris ← (g.cell .tri).listWith2 (nodes 0) (nodes 1) 1
  let quas ← (g.cell .qua).listWith2 (nodes 0) (nodes 1) 1
  if tris.length + quas.length ≠ 1 then .error .failure
  else if min tris.length quas.length ≠ 0 then .error .failure
  else do
    let found ← matchSides (g.cell .tri) nodes tris (refEmpty, refEmpty)
    let found ← matchSides (g.cell .qua) nodes quas found
    if found.1 = refEmpty then .error .failure
    else if found.2 = refEmpty then .error .failure
    else .ok fun node => if node = 0 then found.1 else if node = 1 then found.2 else nodes node

/-- `ref_cell_add` of a row. -/
def addRow (g : RefGrid D) (t : CellType) (row : List Int) : Except Status (RefGrid D) := do
  let added ← (g.cell t).add fun i => row.getD i 0
  .ok (g.setCell t added.1)

/-- One node of one plane. -/
def extrudeNode [RefPlaneDbl D] (twodNode : RefNode D) (globalOffset : Int) (y : D)
    (s : RefNode D) (node : Nat) : Except Status (RefNode D) := do
  let added ← s.add (twodNode.global node + globalOffset)
  let newNode := added.2
  let xyz := fun i => if i = 0 then twodNode.real node 0 else if i = 1 then y
    else if i = 2 then twodNode.real node 1 else added.1.real newNode i
  .ok { added.1 with
    part := Function.update added.1.part newNode (twodNode.part node)
    real := Function.update added.1.real newNode xyz }

/-- The nodes of one plane. -/
def extrudePlane [RefPlaneDbl D] (twodNode : RefNode D) (nPlanes : Nat) (s : RefNode D)
    (plane : Nat) : Except Status (RefNode D) :=
  let y := ((plane : Int) : D) / (((nPlanes : Int) - 1 : Int) : D)
  twodNode.validNodes.foldlM (extrudeNode twodNode (plane * twodNode.oldNGlobal) y) s

/-- The first loop of `ref_grid_extrude_twod`. -/
def extrudeNodes [RefPlaneDbl D] (twodNode : RefNode D) (nPlanes : Nat) (s : RefNode D) :
    Except Status (RefNode D) := do
  let s ← (List.range nPlanes).foldlM (extrudePlane twodNode nPlanes) s
  .ok (s.initializeNGlobal (nPlanes * twodNode.oldNGlobal))

/-- The boundary of one edge between two planes. -/
def extrudeEdg (twod : RefGrid D) (nPlanes : Nat) (g : RefGrid D) (cell : Nat) :
    Except Status (RefGrid D) := do
  let nodes ← twod.orientEdg ((twod.cell .edg).c2n cell)
  let node0 := nodes 0
  let node1 := nodes 1
  (List.range (nPlanes - 1)).foldlM (fun g (plane : Nat) =>
    let offset0 := (0 + plane) * twod.node.n
    let offset1 := (1 + plane) * twod.node.n
    g.addRow .qua [node1 + offset0, node0 + offset0, node0 + offset1, node1 + offset1, nodes 2]) g

/-- `max_faceid` of one rank. -/
def maxFaceid (twod : RefGrid D) : Int :=
  (twod.cell .edg).validCells.foldl (fun m cell => max m ((twod.cell .edg).c2n cell 2)) refIntMin

/-- The boundary and the prisms of one triangle. -/
def extrudeTri (twod : RefGrid D) (nPlanes : Nat) (faceid1 faceid2 : Int) (g : RefGrid D)
    (cell : Nat) : Except Status (RefGrid D) := do
  let offset := ((nPlanes : Int) - 1) * twod.node.n
  let nodes := (twod.cell .tri).c2n cell
  let g ← g.addRow .tri [nodes 0, nodes 1, nodes 2, faceid1]
  let g ← g.addRow .tri [nodes 0 + offset, nodes 2 + offset, nodes 1 + offset, faceid2]
  (List.range (nPlanes - 1)).foldlM (fun g (plane : Nat) =>
    let offset0 := (0 + plane) * twod.node.n
    let offset1 := (1 + plane) * twod.node.n
    g.addRow .pri [nodes 0 + offset0, nodes 1 + offset0, nodes 2 + offset0,
      nodes 0 + offset1, nodes 1 + offset1, nodes 2 + offset1]) g

/-- The boundary and the hexes of one quadrilateral. -/
def extrudeQua (twod : RefGrid D) (nPlanes : Nat) (faceid1 faceid2 : Int) (g : RefGrid D)
    (cell : Nat) : Except Status (RefGrid D) := do
  let offset := ((nPlanes : Int) - 1) * twod.node.n
  let nodes := (twod.cell .qua).c2n cell
  let g ← g.addRow .qua [nodes 3, nodes 2, nodes 1, nodes 0, faceid1]
  let g ← g.addRow .qua [nodes 0 + offset, nodes 1 + offset, nodes 2 + offset, nodes 3 + offset,
    faceid2]
  (List.range (nPlanes - 1)).foldlM (fun g (plane : Nat) =>
    let offset0 := (0 + plane) * twod.node.n
    let offset1 := (1 + plane) * twod.node.n
    g.addRow .hex [nodes 0 + offset0, nodes 1 + offset0, nodes 2 + offset0, nodes 3 + offset0,
      nodes 0 + offset1, nodes 1 + offset1, nodes 2 + offset1, nodes 3 + offset1]) g

/-- The nodes and the sides. -/
def extrudeSides [RefPlaneDbl D] (mem : RefGrid D) (nPlanes : Nat) (twod : RefGrid D) :
    Except Status (RefGrid D) := do
  let g := RefGrid.create mem twod.node.rank
  let node ← extrudeNodes twod.node nPlanes g.node
  (twod.cell .edg).validCells.foldlM (extrudeEdg twod nPlanes) { g with node := node }

/-- The cells between the planes and on the symmetry planes. -/
def extrudeCells (nPlanes : Nat) (twod : RefGrid D) (maxFaceid : Int) (g : RefGrid D) :
    Except Status (RefGrid D) :=
  if (refIntMax : Int) < maxFaceid + 2 then .error .undefined
  else do
    let faceid1 := maxFaceid + 1
    let faceid2 := maxFaceid + 2
    let g ← (twod.cell .tri).validCells.foldlM (extrudeTri twod nPlanes faceid1 faceid2) g
    (twod.cell .qua).validCells.foldlM (extrudeQua twod nPlanes faceid1 faceid2) g

/-- `ref_grid_extrude_twod`; `isTwod` is `ref_grid_twod`. -/
def extrudeTwod [RefPlaneDbl D] (p : Nat) (mem : RefGrid D) (isTwod : Bool) (nPlanes : Nat)
    (twod : RefGrid D) : RankProg D (RefGrid D) :=
  if ¬ isTwod then .fail .failure
  else
    (Prog.lift (extrudeSides mem nPlanes twod)).bind fun g =>
      (mpiMaxInt p twod.maxFaceid).bind fun maxFaceid =>
        (bcastInt p maxFaceid).bind fun maxFaceid =>
          Prog.lift (extrudeCells nPlanes twod maxFaceid g)

end RefGrid

end RefineMesh
