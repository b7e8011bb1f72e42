import Mathlib.Tactic
import RefineMesh.EdgeGhost
import RefineMesh.GeomStore
import RefineMesh.NodeSync
import RefineMesh.Subdiv

/-!
# The isosurface of a field

`ref_iso_insert` makes a grid of its own for the surface on which a field is
zero.  Every edge whose ends have values of opposite signs gets a node; inside
a tet the nodes on its edges are the corners of one or two triangles, inside a
triangle (of a 2D grid) they are the ends of an edg.
-/

namespace RefineMesh

open Spmd

/-- What `ref_iso.c` uses of `REF_DBL`; `half` is `0.5`, `huge` the factor
`1.0e20` of `ref_math_divisible` and `filler` the `-999.0` of the buffers. -/
class RefIsoDbl (D : Type) extends RefDbl D, LinearOrder D, Add D, Sub D, Neg D, Mul D, Div D where
  half : D
  huge : D
  filler : D

variable {D : Type}

/-- `ref_grid_create`. -/
def RefGrid.create (mem : RefGrid D) (rank : Nat) : RefGrid D :=
  { node := RefNode.create mem.node rank
    cell := fun t => RefCell.create (mem.cell t) t
    geom := RefGeom.create mem.geom }

/-- The memory that the allocations of `ref_iso_insert` do not clear. -/
structure IsoMemory (D : Type) where
  unused : Nat → Int
  grid : RefGrid D
  edge : RefEdge
  global : RequestMemory Int
  part : RequestMemory Int
  real : RequestMemory D
  interp : RequestMemory D
  out : Nat → D

/-- `iso_grid` and `out` after `ref_iso_insert`. -/
structure IsoResult (D : Type) where
  grid : RefGrid D
  out : Nat → D

section Points

variable [RefIsoDbl D]

/-- `ABS`. -/
def refAbs (a : D) : D := if RefDbl.zero < a then a else -a

/-- `ref_math_divisible`. -/
def refMathDivisible (n d : D) : Prop := refAbs n < refAbs (RefIsoDbl.huge * d)

instance (n d : D) : Decidable (refMathDivisible n d) :=
  inferInstanceAs (Decidable (refAbs n < refAbs (RefIsoDbl.huge * d)))

/-- The field changes its sign between two nodes. -/
def Crosses (field : Nat → D) (node0 node1 : Nat) : Prop :=
  RefDbl.zero < max (field node0) (field node1) ∧ min (field node0) (field node1) < RefDbl.zero

instance (field : Nat → D) (node0 node1 : Nat) : Decidable (Crosses field node0 node1) :=
  inferInstanceAs (Decidable (_ ∧ _))

/-- `t1` of an edge. -/
def isoWeight (field : Nat → D) (node0 node1 : Nat) : D :=
  let d := field node1 - field node0
  if refMathDivisible (field node0) d then -field node0 / d else RefIsoDbl.half

/-- The interpolation of two values along an edge. -/
def isoBlend (t1 x0 x1 : D) : D := t1 * x1 + (RefDbl.one - t1) * x0

namespace RefEdge

/-- `ref_edge_e2n` as a node index. -/
def endNode (s : RefEdge) (edge node : Nat) : Nat := (s.e2n edge node).toNat

/-- The body of the first loop of `ref_iso_insert`: `iso_grid`'s nodes and
`new_node`. -/
def isoNode (s : RefEdge) (refNode : RefNode D) (field : Nat → D)
    (acc : RefNode D × (Nat → Int)) (edge : Nat) : Except Status (RefNode D × (Nat → Int)) :=
  let node0 := s.endNode edge 0
  let node1 := s.endNode edge 1
  if refNode.rank = s.edgePart refNode edge ∧ Crosses field node0 node1 then do
    let next ← acc.1.nextGlobal
    let added ← next.1.add next.2
    let node := added.2
    let t1 := isoWeight field node0 node1
    let xyz := fun i => if i < 3 then isoBlend t1 (refNode.real node0 i) (refNode.real node1 i)
      else added.1.real node i
    .ok ({ added.1 with real := Function.update added.1.real node xyz },
      Function.update acc.2 edge node)
  else .ok acc

/-- The last loop of `ref_iso_ghost`. -/
def isoGhostNode (edgeGlobal edgePart : Nat → Int) (edgeReal : Nat → D)
    (acc : RefNode D × (Nat → Int)) (edge : Nat) : Except Status (RefNode D × (Nat → Int)) :=
  if edgeGlobal edge ≠ refEmpty then do
    let added ← acc.1.add (edgeGlobal edge)
    let node := added.2
    let real := fun i => if i < refNodeRealPer then edgeReal (i + refNodeRealPer * edge)
      else added.1.real node i
    .ok ({ added.1 with
        part := Function.update added.1.part node (edgePart edge).toNat
        real := Function.update added.1.real node real },
      Function.update acc.2 edge node)
  else .ok acc

/-- `ref_iso_ghost`. -/
def isoGhost (p : Nat) (mem : IsoMemory D) (s : RefEdge) (refNode isoNode : RefNode D)
    (newNode : Nat → Int) : RankProg D (RefNode D × (Nat → Int)) :=
  if refIntMax < refNodeRealPer * s.n then .fail .undefined
  else
    let mine := fun edge => edge < s.n ∧ newNode edge ≠ refEmpty ∧
      isoNode.rank = s.edgePart refNode edge
    let edgeGlobal := fun edge =>
      if mine edge then isoNode.global (newNode edge).toNat else refEmpty
    let edgePart := fun edge =>
      if mine edge then (isoNode.part (newNode edge).toNat : Int) else refEmpty
    let edgeReal := fun place =>
      let edge := place / refNodeRealPer
      if mine edge then isoNode.real (newNode edge).toNat (place % refNodeRealPer)
      else RefIsoDbl.filler
    (s.ghostGlob p refNode edgeGlobal mem.global).bind fun edgeGlobal =>
      (s.ghostInt p refNode edgePart mem.part).bind fun edgePart =>
        (s.ghostDbl p refNode refNodeRealPer edgeReal mem.real).bind fun edgeReal =>
          Prog.lift ((List.range s.n).foldlM (isoGhostNode edgeGlobal edgePart edgeReal)
            (isoNode, newNode))

/-- `ref_iso_interp`: `out` on the nodes of the surface. -/
def isoInterp (p : Nat) (mem : IsoMemory D) (s : RefEdge) (refNode isoNode : RefNode D)
    (newNode : Nat → Int) (field : Nat → D) (ldim : Nat) (input : Nat → D) :
    RankProg D (Nat → D) :=
  if ldim = 0 then .ret mem.out
  else if refIntMax < ldim * isoNode.max ∨ refIntMax < ldim * s.n then .fail .undefined
  else
    let blend := fun edge i => isoBlend (isoWeight field (s.endNode edge 0) (s.endNode edge 1))
      (input (i + ldim * s.endNode edge 0)) (input (i + ldim * s.endNode edge 1))
    let own := (List.range s.n).filter fun edge =>
      newNode edge ≠ refEmpty ∧ isoNode.rank = s.edgePart refNode edge
    let others := (List.range s.n).filter fun edge =>
      newNode edge ≠ refEmpty ∧ isoNode.rank ≠ s.edgePart refNode edge
    let out := own.foldl
      (fun out edge => Segments.storeRecord ldim (blend edge) (newNode edge).toNat out) mem.out
    let edgeReal := own.foldl
      (fun real edge => Segments.storeRecord ldim (blend edge) edge real) fun _ => RefIsoDbl.filler
    (s.ghostDbl p refNode ldim edgeReal mem.interp).bind fun edgeReal =>
      .ret (others.foldl (fun out edge => Segments.storeRecord ldim
        (fun i => edgeReal (i + ldim * edge)) (newNode edge).toNat out) out)

end RefEdge

end Points

/-! ## Cells of the surface -/

/-- The new node on each of the given edges. -/
def RefEdge.newNodes (s : RefEdge) (newNode : Nat → Int) (ends : List (Int × Int)) :
    Except Status (List Int) :=
  ends.mapM fun pair => do
    let edge ← s.edgeWith pair.1 pair.2
    .ok (newNode edge)

/-- The cases of `ref_iso_insert` for a triangle: the positions of the nodes of
each edg among `node0`, `node1`, `node2`; `cut` says which of them are nodes. -/
def triCut (cut : Nat → Bool) : List (List Nat) :=
  (if !cut 0 ∧ cut 1 ∧ cut 2 then [[1, 2]] else []) ++
    (if cut 0 ∧ !cut 1 ∧ cut 2 then [[2, 0]] else []) ++
      if cut 0 ∧ cut 1 ∧ !cut 2 then [[0, 1]] else []

/-- The three quadrilaterals: the two opposite edges that are not cut and the
triangles between the four others. -/
def tetQuads : List ((Nat × Nat) × List (List Nat)) :=
  [((0, 5), [[1, 2, 4], [1, 4, 3]]), ((1, 4), [[0, 3, 2], [2, 3, 5]]),
    ((2, 3), [[0, 4, 1], [1, 4, 5]])]

/-- The `switch` of `ref_iso_insert` for a tet: the positions of the nodes of
each triangle in `edge_nodes`. -/
def tetCut (cut : Nat → Bool) : Except Status (List (List Nat)) :=
  let newNodes := (List.range 6).filter cut
  match newNodes.length with
  | 0 => .ok []
  | 3 => .ok [newNodes]
  | 4 =>
      match tetQuads.filter fun quad => !cut quad.1.1 ∧ !cut quad.1.2 with
      | [quad] => .ok quad.2
      | _ => .error .failure
  | _ => .error .implement

/-- A row of `new_nodes`: the nodes at the given positions, then the id. -/
def isoRow (nodes : List Int) (places : List Nat) : Nat → Int := fun node =>
  (places.map (fun k => nodes.getD k refEmpty) ++ [1]).getD node 0

/-- The body of the loop over the triangles of a 2D grid. -/
def isoEdg (s : RefEdge) (newNode : Nat → Int) (tri edg : RefCell) (cell : Nat) :
    Except Status RefCell := do
  let nodes ← tri.nodes cell
  let edgeNodes ← s.newNodes newNode
    [(nodes 1, nodes 2), (nodes 2, nodes 0), (nodes 0, nodes 1)]
  RefSubdiv.addRows edg
    ((triCut fun k => edgeNodes.getD k refEmpty ≠ refEmpty).map (isoRow edgeNodes))

/-- The body of the loop over the tets. -/
def isoTri (s : RefEdge) (newNode : Nat → Int) (tet tri : RefCell) (cell : Nat) :
    Except Status RefCell := do
  let nodes ← tet.nodes cell
  let edgeNodes ← s.newNodes newNode
    (tet.cellType.e2n.map fun e => (nodes e.1, nodes e.2))
  let places ← tetCut fun k => edgeNodes.getD k refEmpty ≠ refEmpty
  RefSubdiv.addRows tri (places.map (isoRow edgeNodes))

/-- The two loops over the cells; `twod` is `ref_grid_twod`. -/
def isoCells (g : RefGrid D) (twod : Bool) (s : RefEdge) (newNode : Nat → Int) (iso : RefGrid D) :
    Except Status (RefGrid D) :=
  if twod then do
    let edg ← (g.cell .tri).validCells.foldlM (isoEdg s newNode (g.cell .tri)) (iso.cell .edg)
    .ok (iso.setCell .edg edg)
  else do
    let tri ← (g.cell .tet).validCells.foldlM (isoTri s newNode (g.cell .tet)) (iso.cell .tri)
    .ok (iso.setCell .tri tri)

/-- `ref_iso_insert`. -/
def isoInsert [RefIsoDbl D] (p : Nat) (mem : IsoMemory D) (g : RefGrid D) (twod : Bool)
    (field : Nat → D) (ldim : Nat) (input : Nat → D) : RankProg D (IsoResult D) :=
  (g.node.synchronizeGlobals p mem.unused).bind fun node =>
    let g := { g with node := node }
    let iso := RefGrid.create mem.grid g.node.rank
    (Prog.lift (RefEdge.create mem.edge g)).bind fun edge =>
      (Prog.lift ((List.range edge.n).foldlM (edge.isoNode g.node field)
        (iso.node.initializeNGlobal 0, fun _ => refEmpty))).bind fun made =>
        (made.1.shiftNewGlobals p).bind fun isoNode =>
          (edge.isoGhost p mem g.node isoNode made.2).bind fun made =>
            (edge.isoInterp p mem g.node made.1 made.2 field ldim input).bind fun out =>
              (Prog.lift (isoCells g twod edge made.2 { iso with node := made.1 })).bind fun iso =>
                .ret ⟨iso, out⟩

end RefineMesh
