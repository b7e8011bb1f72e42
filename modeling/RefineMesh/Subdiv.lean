import Mathlib.Tactic
import RefineMesh.Edge
import RefineMesh.Subdivision

/-!
# Subdividing cells

`ref_subdiv_split_tet` and `ref_subdiv_split_tri` cut the cells with marked
edges.  The pieces are collected in a store of their own; when all cells are
visited the cut cells are removed and the pieces with a node of this rank are
added.
-/

namespace RefineMesh

variable {D : Type}

/-- `REF_SUBDIV_STRUCT`, without its switches: `mark` and `node` are indexed by
edges. -/
structure RefSubdiv (D : Type) where
  grid : RefGrid D
  edge : RefEdge
  mark : Nat → Int
  node : Nat → Int

namespace RefSubdiv

variable (s : RefSubdiv D)

/-- `ref_subdiv_c2e`.  A lookup that fails gives `REF_EMPTY`, which every caller
uses as an index. -/
def c2e (refCell : RefCell) (cellEdge cell : Nat) : Except Status Nat :=
  if ¬ refCell.Live cell then .error .undefined
  else
    match refCell.cellType.e2n[cellEdge]? with
    | none => .error .undefined
    | some ends =>
        match s.edge.edgeWith (refCell.c2n cell ends.1) (refCell.c2n cell ends.2) with
        | .ok edge => .ok edge
        | .error _ => .error .undefined

/-- `ref_subdiv_map`. -/
def cellMap (refCell : RefCell) (cell : Nat) : Except Status Int := do
  let mapBit ← (List.range refCell.cellType.e2n.length).foldlM
    (fun (acc : Int × Int) cellEdge => do
      let edge ← s.c2e refCell cellEdge cell
      .ok (acc.1 + acc.2 * s.mark edge, acc.2 * 2)) (0, 1)
  .ok mapBit.1

/-- `ref_subdiv_node_between`. -/
def nodeBetween (node0 node1 : Int) : Except Status Int := do
  let edge ← s.edge.edgeWith node0 node1
  .ok (s.node edge)

/-- `ref_subdiv_add_local_cell`. -/
def addLocalCell (refCell : RefCell) (nodes : Nat → Int) : Except Status RefCell :=
  let hasLocal := (List.range refCell.nodePer).any fun node =>
    s.grid.node.rank = s.grid.node.part (nodes node).toNat
  if hasLocal then do
    let added ← refCell.add nodes
    .ok added.1
  else .ok refCell

/-- New cells one after the other. -/
def addRows (refCell : RefCell) (rows : List (Nat → Int)) : Except Status RefCell :=
  rows.foldlM (fun refCell nodes => do
    let added ← refCell.add nodes
    .ok added.1) refCell

/-- The last loops of the split functions: the marked cells are removed. -/
def removeMarked (refCell : RefCell) (markedForRemoval : Nat → Bool) : Except Status RefCell :=
  ((List.range refCell.max).filter markedForRemoval).foldlM RefCell.remove refCell

/-- The last loops of the split functions: the pieces are added. -/
def addLocalCells (refCell refCellSplit : RefCell) : Except Status RefCell :=
  refCellSplit.validCells.foldlM
    (fun refCell cell => s.addLocalCell refCell (refCellSplit.c2n cell)) refCell

/-! ## Tets -/

/-- The case of one marked edge. -/
def oneEdgeRows (tet : RefCell) (cell : Nat) (nodes : Nat → Int) :
    Except Status (List (Nat → Int)) := do
  let splitEdge ← (List.range tet.cellType.e2n.length).foldlM
    (fun (splitEdge : Option Nat) cellEdge => do
      let edge ← s.c2e tet cellEdge cell
      .ok (if s.mark edge ≠ 0 then some cellEdge else splitEdge)) none
  match splitEdge with
  | none => .error .failure
  | some splitEdge => do
      let globalEdge ← s.c2e tet splitEdge cell
      let ends := tet.cellType.e2n.getD splitEdge (0, 0)
      .ok [Function.update nodes ends.1 (s.node globalEdge),
        Function.update nodes ends.2 (s.node globalEdge)]

/-- `node_swap`. -/
def nodeSwap (nodes : Nat → Int) (a b : Nat) : Nat → Int :=
  Function.update (Function.update nodes a (nodes b)) b (nodes a)

/-- The case of three marked edges, after the cell is oriented. -/
def fourRows (nodes : Nat → Int) : Except Status (List (Nat → Int)) := do
  let n01 ← s.nodeBetween (nodes 0) (nodes 1)
  let n02 ← s.nodeBetween (nodes 0) (nodes 2)
  let near0 := Function.update (Function.update nodes 1 n01) 2 n02
  let n10 ← s.nodeBetween (nodes 1) (nodes 0)
  let n12 ← s.nodeBetween (nodes 1) (nodes 2)
  let near1 := Function.update (Function.update nodes 0 n10) 2 n12
  let n20 ← s.nodeBetween (nodes 2) (nodes 0)
  let n21 ← s.nodeBetween (nodes 2) (nodes 1)
  let near2 := Function.update (Function.update nodes 0 n20) 1 n21
  let c0 ← s.nodeBetween (nodes 0) (nodes 1)
  let c1 ← s.nodeBetween (nodes 1) (nodes 2)
  let c2 ← s.nodeBetween (nodes 2) (nodes 0)
  let center := Function.update (Function.update (Function.update nodes 0 c0) 1 c1) 2 c2
  .ok [near0, near1, near2, center]

/-- `add_cell_with`. -/
def cellRowWith (fnnw0 fnnw1 fnnw2 fnnw3 : Int) : Nat → Int := fun node =>
  if node = 0 then fnnw0 else if node = 1 then fnnw1 else if node = 2 then fnnw2 else fnnw3

/-- The case of six marked edges. -/
def eightRows (nodes : Nat → Int) : Except Status (List (Nat → Int)) := do
  let n0 := nodes 0
  let n1 := nodes 1
  let n2 := nodes 2
  let n3 := nodes 3
  let e0 ← s.nodeBetween (nodes 0) (nodes 1)
  let e1 ← s.nodeBetween (nodes 0) (nodes 2)
  let e2 ← s.nodeBetween (nodes 0) (nodes 3)
  let e3 ← s.nodeBetween (nodes 1) (nodes 2)
  let e4 ← s.nodeBetween (nodes 1) (nodes 3)
  let e5 ← s.nodeBetween (nodes 2) (nodes 3)
  .ok [cellRowWith e0 e2 e1 n0, cellRowWith e0 e3 e4 n1, cellRowWith e1 e5 e3 n2,
    cellRowWith e2 e4 e5 n3, cellRowWith e0 e5 e1 e2, cellRowWith e0 e5 e2 e4,
    cellRowWith e0 e5 e4 e3, cellRowWith e0 e5 e3 e1]

/-- The `switch` of `ref_subdiv_split_tet`: the pieces of a tet, none when it is
left alone. -/
def tetRows (tet : RefCell) (cell : Nat) (map : Int) (nodes : Nat → Int) :
    Except Status (List (Nat → Int)) :=
  if map = 0 then .ok []
  else if map ∈ [1, 2, 4, 8, 16, 32] then s.oneEdgeRows tet cell nodes
  else if map = 11 then s.fourRows nodes
  else if map = 56 then s.fourRows (nodeSwap (nodeSwap nodes 0 3) 1 2)
  else if map = 38 then s.fourRows (nodeSwap (nodeSwap nodes 1 3) 0 2)
  else if map = 21 then s.fourRows (nodeSwap (nodeSwap nodes 2 3) 0 1)
  else if map = 63 then s.eightRows nodes
  else .error .implement

/-- The body of the loop of `ref_subdiv_split_tet`: the store of the pieces and
`marked_for_removal`. -/
def splitTetCell (acc : RefCell × (Nat → Bool)) (cell : Nat) :
    Except Status (RefCell × (Nat → Bool)) := do
  let tet := s.grid.cell .tet
  let map ← s.cellMap tet cell
  let nodes ← tet.nodes cell
  let rows ← s.tetRows tet cell map nodes
  let split ← addRows acc.1 rows
  .ok (split, if rows.isEmpty then acc.2 else Function.update acc.2 cell true)

/-- `ref_subdiv_split_tet`, over memory `mem` for the store of the pieces. -/
def splitTet (mem : RefCell) : Except Status (RefSubdiv D) := do
  let tet := s.grid.cell .tet
  let acc ← tet.validCells.foldlM s.splitTetCell (RefCell.create mem tet.cellType, fun _ => false)
  let tet ← removeMarked tet acc.2
  let tet ← s.addLocalCells tet acc.1
  .ok { s with grid := s.grid.setCell .tet tet }

/-! ## Triangles -/

/-- Two of three edges marked: the triangle at the corner between them and the
quadrilateral behind it.  `corner` is the first, `before` and `after` the
neighbors in the order of the source. -/
def cornerRow (nodes : Nat → Int) (corner after before : Nat) : Except Status (Nat → Int) := do
  let n0 ← s.nodeBetween (nodes corner) (nodes after)
  let n1 ← s.nodeBetween (nodes corner) (nodes before)
  .ok (Function.update (Function.update nodes after n0) before n1)

/-- The pieces of a triangle with the edges at node 1 marked. -/
def rowsAt1 (nodes : Nat → Int) : Except Status (List (Nat → Int) × List (Nat → Int)) := do
  let tri ← s.cornerRow nodes 1 2 0
  let qua := Function.update (Function.update nodes 4 (nodes 3)) 3 (nodes 2)
  let n2 ← s.nodeBetween (nodes 1) (nodes 2)
  let n1 ← s.nodeBetween (nodes 1) (nodes 0)
  .ok ([tri], [Function.update (Function.update qua 2 n2) 1 n1])

/-- The pieces of a triangle with the edges at node 2 marked. -/
def rowsAt2 (nodes : Nat → Int) : Except Status (List (Nat → Int) × List (Nat → Int)) := do
  let tri ← s.cornerRow nodes 2 1 0
  let qua := Function.update nodes 4 (nodes 3)
  let n2 ← s.nodeBetween (nodes 2) (nodes 1)
  let n3 ← s.nodeBetween (nodes 2) (nodes 0)
  .ok ([tri], [Function.update (Function.update qua 2 n2) 3 n3])

/-- The pieces of a triangle with the edges at node 0 marked. -/
def rowsAt0 (nodes : Nat → Int) : Except Status (List (Nat → Int) × List (Nat → Int)) := do
  let tri ← s.cornerRow nodes 0 1 2
  let qua := Function.update nodes 4 (nodes 3)
  let n0 ← s.nodeBetween (nodes 0) (nodes 1)
  let n3 ← s.nodeBetween (nodes 0) (nodes 2)
  .ok ([tri], [Function.update (Function.update qua 0 n0) 3 n3])

/-- The pieces of a triangle with one marked edge, from `a` to `b`. -/
def halves (nodes : Nat → Int) (a b first second : Nat) : Except Status (List (Nat → Int)) := do
  let n0 ← s.nodeBetween (nodes a) (nodes b)
  let n1 ← s.nodeBetween (nodes a) (nodes b)
  .ok [Function.update nodes first n0, Function.update nodes second n1]

/-- The branches of `ref_subdiv_split_tri`: the triangles and the
quadrilaterals in place of a triangle. -/
def triRows (nodes : Nat → Int) (mark01 mark12 mark20 : Bool) :
    Except Status (List (Nat → Int) × List (Nat → Int)) :=
  if mark01 ∧ mark12 ∧ mark20 then do
    let near0 ← s.cornerRow nodes 0 1 2
    let near1 ← s.cornerRow nodes 1 0 2
    let near2 ← s.cornerRow nodes 2 1 0
    let c0 ← s.nodeBetween (nodes 0) (nodes 1)
    let c1 ← s.nodeBetween (nodes 1) (nodes 2)
    let c2 ← s.nodeBetween (nodes 2) (nodes 0)
    let center := Function.update (Function.update (Function.update nodes 0 c0) 1 c1) 2 c2
    .ok ([near0, near1, near2, center], [])
  else if mark01 ∧ mark12 ∧ ¬ mark20 then s.rowsAt1 nodes
  else if mark12 ∧ mark20 ∧ ¬ mark01 then s.rowsAt2 nodes
  else if mark20 ∧ mark01 ∧ ¬ mark12 then s.rowsAt0 nodes
  else do
    let rows01 ← if mark01 then s.halves nodes 0 1 0 1 else .ok []
    let rows12 ← if mark12 then s.halves nodes 1 2 1 2 else .ok []
    let rows20 ← if mark20 then s.halves nodes 2 0 2 0 else .ok []
    .ok (rows01 ++ rows12 ++ rows20, [])

/-- The body of the loop of `ref_subdiv_split_tri`: the stores of the pieces
and `marked_for_removal`. -/
def splitTriCell (acc : RefCell × RefCell × (Nat → Bool)) (cell : Nat) :
    Except Status (RefCell × RefCell × (Nat → Bool)) := do
  let tri := s.grid.cell .tri
  let nodes ← tri.nodes cell
  let edge01 ← s.edge.edgeWith (nodes 0) (nodes 1)
  let edge12 ← s.edge.edgeWith (nodes 1) (nodes 2)
  let edge20 ← s.edge.edgeWith (nodes 2) (nodes 0)
  let rows ← s.triRows nodes (s.mark edge01 ≠ 0) (s.mark edge12 ≠ 0) (s.mark edge20 ≠ 0)
  let triSplit ← addRows acc.1 rows.1
  let quaSplit ← addRows acc.2.1 rows.2
  .ok (triSplit, quaSplit,
    if rows.1.isEmpty then acc.2.2 else Function.update acc.2.2 cell true)

/-- `ref_subdiv_split_tri`, over memory `mem` for the stores of the pieces. -/
def splitTri (mem : RefCell) : Except Status (RefSubdiv D) := do
  let tri := s.grid.cell .tri
  let qua := s.grid.cell .qua
  let acc ← tri.validCells.foldlM s.splitTriCell
    (RefCell.create mem tri.cellType, RefCell.create mem qua.cellType, fun _ => false)
  let tri ← removeMarked tri acc.2.2
  let tri ← s.addLocalCells tri acc.1
  let qua ← s.addLocalCells qua acc.2.1
  .ok { s with grid := (s.grid.setCell .tri tri).setCell .qua qua }

end RefSubdiv

end RefineMesh
