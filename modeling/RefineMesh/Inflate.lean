import Mathlib.Tactic
import RefineMesh.Dict
import RefineMesh.Grid
import RefineMesh.NodeGhost
import RefineMesh.NodeSync

/-!
# Inflating a layer of prisms

`ref_inflate_face` puts a layer of prisms on the triangles with the listed face
ids.  It makes a node above each node of these triangles, closes the sides of
the layer with quadrilaterals where it meets other faces, adds the prisms and
moves the triangles to the new nodes.

What is computed from the coordinates is a parameter: the normals of the face
ids, the place of a new node, and the test of a prism.
-/

namespace RefineMesh

open Spmd

variable {D : Type}

namespace RefInflate

/-- What `ref_inflate_face` computes from the coordinates: `face_normal`, the
place above a node with whether it is out of range, and `ref_inflate_pri_min_dot`
with whether `min_dot` is positive. -/
structure Geometry (D : Type) where
  normals : RefDict → RefGrid D → RankProg D (Nat → D)
  place : RefDict → (Nat → D) → RefGrid D → Nat → Except Status (Bool × (Nat → D))
  priMinDot : RefNode D → (Nat → Int) → Except Status Bool

/-- The memory of the exchanges. -/
structure Memory (D : Type) where
  glob : GhostMemory Int
  real : GhostMemory D
  aux : GhostMemory D

/-! ## New nodes -/

/-- `ref_dict_has_key` of the id of a triangle. -/
def listed (faceids : RefDict) (tri : RefCell) (cell : Nat) : Bool :=
  faceids.hasKey (tri.c2n cell 3)

def setPart (s : RefNode D) (node part : Nat) : RefNode D :=
  { s with part := Function.update s.part node part }

def setXyz (s : RefNode D) (node : Nat) (xyz : Nat → D) : RefNode D :=
  { s with real := Function.update s.real node fun i => if i < 3 then xyz i else s.real node i }

/-- The loop that builds the list of node globals, for one node; `o2n` is
`REF_EMPTY` where there is no new node. -/
def newNode [RefDbl D] (acc : RefNode D × (Nat → Int)) (node : Nat) :
    Except Status (RefNode D × (Nat → Int)) :=
  if acc.1.Owned node ∧ acc.2 node = refEmpty then do
    let drawn ← acc.1.nextGlobal
    let added ← drawn.1.add drawn.2
    .ok (setPart added.1 added.2 added.1.rank, Function.update acc.2 node added.2)
  else .ok acc

/-- The loop that builds the list of node globals. -/
def newNodes [RefDbl D] (faceids : RefDict) (tri : RefCell) (s : RefNode D) :
    Except Status (RefNode D × (Nat → Int)) :=
  tri.validCells.foldlM (fun acc cell =>
    if listed faceids tri cell then
      (List.range 3).foldlM (fun acc triNode => newNode acc (tri.c2n cell triNode).toNat) acc
    else .ok acc) (s, fun _ => refEmpty)

/-- `o2g` before the ghosts are filled. -/
def newGlobals (o2nMax : Nat) (s : RefNode D) (o2n : Nat → Int) : Nat → Int := fun node =>
  if node < o2nMax ∧ o2n node ≠ refEmpty then s.global (o2n node).toNat else refEmpty

/-- One node of the loop that fills `o2n` from `o2g`. -/
def placeNode [RefDbl D] (o2g : Nat → Int) (acc : RefNode D × (Nat → Int)) (node : Nat) :
    Except Status (RefNode D × (Nat → Int)) :=
  if o2g node ≠ refEmpty then do
    -- returns node if already added
    let added ← acc.1.add (o2g node)
    .ok (setPart added.1 added.2 (added.1.part node), Function.update acc.2 node added.2)
  else .ok acc

/-- The loop that fills `o2n` from `o2g`. -/
def placeNodes [RefDbl D] (o2g : Nat → Int) (s : RefNode D) :
    Except Status (RefNode D × (Nat → Int)) :=
  (List.range s.max).foldlM (placeNode o2g) (s, fun _ => refEmpty)

/-- One node of the loop that creates the offsets. -/
def offsetNode (geometry : Geometry D) (faceids : RefDict) (normals : Nat → D) (g : RefGrid D)
    (o2n : Nat → Int) (acc : RefNode D × Bool) (node : Nat) : Except Status (RefNode D × Bool) :=
  if acc.1.Live node ∧ acc.1.Owned node ∧ o2n node ≠ refEmpty then do
    let placed ← geometry.place faceids normals { g with node := acc.1 } node
    .ok (setXyz acc.1 (o2n node).toNat placed.2, acc.2 || placed.1)
  else .ok acc

/-- The loop that creates the offsets, with `problem_detected`. -/
def offsetNodes (geometry : Geometry D) (faceids : RefDict) (normals : Nat → D) (g : RefGrid D)
    (o2nMax : Nat) (o2n : Nat → Int) (s : RefNode D) : Except Status (RefNode D × Bool) :=
  (List.range o2nMax).foldlM (offsetNode geometry faceids normals g o2n) (s, false)

/-- The entries of a vector by rows of `n`; what is behind a row stays. -/
def rowsOfVector (n : Nat) (a : Nat → Nat → D) (vector : Nat → D) : Nat → Nat → D := fun node i =>
  if i < n then vector (i + n * node) else a node i

/-- `ref_node_ghost_real`. -/
def ghostReal (p : Nat) (mem : Memory D) (s : RefNode D) : RankProg D (RefNode D) :=
  (ghostDbl p s (fun k => s.real (k / refNodeRealPer) (k % refNodeRealPer)) refNodeRealPer
      mem.real).bind fun real =>
    let s := { s with real := rowsOfVector refNodeRealPer s.real real }
    if 0 < s.naux then
      (ghostDbl p s (fun k => s.aux (k / s.naux) (k % s.naux)) s.naux mem.aux).bind fun aux =>
        .ret { s with aux := rowsOfVector s.naux s.aux aux }
    else .ret s

/-! ## New cells -/

/-- `o2n` of a node of a cell. -/
def above (o2n : Nat → Int) (node : Int) : Int := o2n node.toNat

/-- The row of a quadrilateral on the side of the layer. -/
def sideRow (up : Int → Int) (node0 node1 id : Int) : List Int :=
  [node0, node1, up node1, up node0, id]

/-- `ref_cell_add` of a row. -/
def addRow (s : RefCell) (row : List Int) : Except Status RefCell := do
  let added ← s.add fun i => row.getD i 0
  .ok added.1

/-- One side of a listed triangle: a quadrilateral where the neighbor is not
listed. -/
def sideQua (faceids : RefDict) (node : RefNode D) (tri : RefCell) (up : Int → Int) (cell : Nat)
    (qua : RefCell) (triSide : Nat × Nat) : Except Status RefCell :=
  let node0 := tri.c2n cell triSide.1
  let node1 := tri.c2n cell triSide.2
  if node.Owned node0.toNat ∨ node.Owned node1.toNat then do
    let tris ← tri.listWith2 node0 node1 2
    match tris with
    | [_] => do
        let quads ← qua.listWith2 node0 node1 2
        match quads with
        | [quad] => addRow qua (sideRow up node0 node1 (qua.c2n quad 4))
        | _ => .error .failure
    | [tri0, tri1] =>
        if listed faceids tri tri0 ∧ ¬ listed faceids tri tri1 then
          addRow qua (sideRow up node0 node1 (tri.c2n tri1 3))
        else if ¬ listed faceids tri tri0 ∧ listed faceids tri tri1 then
          addRow qua (sideRow up node0 node1 (tri.c2n tri0 3))
        else .ok qua
    | _ => .error .undefined
  else .ok qua

/-- The loop over the sides of the listed triangles. -/
def sideQuas (faceids : RefDict) (node : RefNode D) (tri : RefCell) (up : Int → Int)
    (qua : RefCell) : Except Status RefCell :=
  tri.validCells.foldlM (fun qua cell =>
    if listed faceids tri cell then
      CellType.tri.e2n.foldlM (sideQua faceids node tri up cell) qua
    else .ok qua) qua

/-- The row of a prism. -/
def priRow (up : Int → Int) (nodes : Nat → Int) : List Int :=
  [nodes 0, nodes 2, nodes 1, up (nodes 0), up (nodes 2), up (nodes 1)]

/-- The loop over the listed triangles that adds the prisms, with
`problem_detected`. -/
def prisms (geometry : Geometry D) (faceids : RefDict) (node : RefNode D) (tri : RefCell)
    (up : Int → Int) (pri : RefCell) (problem : Bool) : Except Status (RefCell × Bool) :=
  tri.validCells.foldlM (fun acc cell =>
    if listed faceids tri cell then do
      let row := priRow up (tri.c2n cell)
      let positive ← geometry.priMinDot node fun i => row.getD i 0
      let pri ← addRow acc.1 row
      .ok (pri, acc.2 || !positive)
    else .ok acc) (pri, problem)

/-- The nodes of a triangle on top of the layer. -/
def moved (up : Int → Int) (nodes : Nat → Int) : Nat → Int := fun i =>
  if i < 3 then up (nodes i) else nodes i

/-- The loop that moves the listed triangles. -/
def moveTris (faceids : RefDict) (up : Int → Int) (tri : RefCell) : Except Status RefCell :=
  tri.validCells.foldlM (fun tri cell =>
    if listed faceids tri cell then tri.replaceWhole cell (moved up (tri.c2n cell))
    else .ok tri) tri

/-- The loops of `ref_inflate_face` over the triangles, and the report of a
problem. -/
def inflateCells (geometry : Geometry D) (faceids : RefDict) (up : Int → Int) (problem : Bool)
    (g : RefGrid D) : Except Status (RefGrid D) := do
  let qua ← sideQuas faceids g.node (g.cell .tri) up (g.cell .qua)
  let built ← prisms geometry faceids g.node (g.cell .tri) up (g.cell .pri) problem
  let tri ← moveTris faceids up (g.cell .tri)
  if built.2 then .error .failure
  else .ok (((g.setCell .qua qua).setCell .pri built.1).setCell .tri tri)

/-- `ref_inflate_face`. -/
def inflateFace [RefDbl D] (p : Nat) (mem : Memory D) (geometry : Geometry D) (faceids : RefDict)
    (g : RefGrid D) : RankProg D (RefGrid D) :=
  (geometry.normals faceids g).bind fun normals =>
    (Prog.lift (newNodes faceids (g.cell .tri) g.node)).bind fun made =>
      (made.1.shiftNewGlobals p).bind fun s =>
        (ghostGlob p s (newGlobals g.node.max s made.2) 1 mem.glob).bind fun o2g =>
          (Prog.lift (placeNodes o2g s)).bind fun placed =>
            (Prog.lift (offsetNodes geometry faceids normals g s.max placed.2 placed.1)).bind
              fun offset =>
                (ghostReal p mem offset.1).bind fun node =>
                  Prog.lift (inflateCells geometry faceids (above placed.2) offset.2
                    { g with node := node })

end RefInflate

end RefineMesh
