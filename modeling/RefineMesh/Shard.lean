import Mathlib.Tactic
import RefineMesh.CellQuery
import RefineMesh.Dict
import RefineMesh.Grid
import RefineMesh.NodeGhost

/-!
# Sharding

`ref_shard.c` cuts prisms, pyramids, hexes and quads into simplices.  The tables
place the diagonal of every quadrilateral at its node of smallest global, so
that the two sides of a face agree.  `ref_shard_prism_into_tet` keeps the prisms
of the first layers over some faces, `ref_shard_in_place` cuts everything.
-/

namespace RefineMesh

open Spmd

variable {D : Type}

/-- `ref_shard_cell_add_local`. -/
def shardCellAddLocal (refNode : RefNode D) (refCell : RefCell) (nodes : Nat → Int) :
    Except Status RefCell :=
  let hasLocal := (List.range refCell.nodePer).any fun node =>
    refNode.rank = refNode.part (nodes node).toNat
  if hasLocal then do
    let added ← refCell.add nodes
    .ok added.1
  else .ok refCell

/-- A local array of nodes. -/
def nodeArray (row : List Int) : Nat → Int := fun i => row.getD i 0

/-- The cells of a splitter, one after the other. -/
def addShards (refNode : RefNode D) (refCell : RefCell) (rows : List (List Int)) :
    Except Status RefCell :=
  rows.foldlM (fun refCell row => shardCellAddLocal refNode refCell (nodeArray row)) refCell

/-- The cells of a table, through the order of the nodes. -/
def tableRows (nodes : Nat → Int) (order : List Nat) (table : List (List Nat)) : List (List Int) :=
  table.map fun cell => cell.map fun i => nodes (order.getD i 0)

/-- The smallest of the first `n` globals. -/
def minGlobal (global : Nat → Int) (n : Nat) : Int :=
  (List.range' 1 (n - 1)).foldl (fun smallest node => min smallest (global node)) (global 0)

/-- The order of a list of candidates: the last one whose node has the
smallest global, otherwise the first. -/
def orderAtMin (global : Nat → Int) (n : Nat) (orders : List (List Nat)) : List Nat :=
  orders.foldl (fun order candidate =>
    if global (candidate.getD 0 0) = minGlobal global n then candidate else order)
    (orders.getD 0 [])

/-! ## Prisms -/

/-- The orders of `pri_nodes`, each from another node on. -/
def priOrders : List (List Nat) :=
  [[0, 1, 2, 3, 4, 5], [1, 2, 0, 4, 5, 3], [2, 0, 1, 5, 3, 4], [3, 5, 4, 0, 2, 1],
    [4, 3, 5, 1, 0, 2], [5, 4, 3, 2, 1, 0]]

/-- The tets of an ordered prism; the quad away from node 0 is cut from 1 to 5
or from 2 to 4. -/
def priTable (diag15 : Bool) : List (List Nat) :=
  [0, 4, 5, 3] :: if diag15 then [[0, 1, 5, 4], [0, 1, 2, 5]] else [[2, 0, 4, 5], [0, 1, 2, 4]]

/-- The rows of `ref_shard_add_pri_as_tet`. -/
def priAsTet (refNode : RefNode D) (nodes : Nat → Int) : List (List Int) :=
  let global := fun node => refNode.global (nodes node).toNat
  let order := orderAtMin global 6 priOrders
  let priGlobal := fun i => global (order.getD i 0)
  tableRows nodes order <| priTable <| decide
    ((priGlobal 1 < priGlobal 2 ∧ priGlobal 1 < priGlobal 4) ∨
      (priGlobal 5 < priGlobal 2 ∧ priGlobal 5 < priGlobal 4))

/-! ## Pyramids -/

/-- The tets of a pyramid whose quad is cut from 0 to 4 or from 3 to 1. -/
def pyrTable (diag04 : Bool) : List (List Nat) :=
  if diag04 then [[0, 4, 1, 2], [0, 3, 4, 2]] else [[0, 3, 1, 2], [1, 3, 4, 2]]

/-- The rows of `ref_shard_add_pyr_as_tet`. -/
def pyrAsTet (refNode : RefNode D) (nodes : Nat → Int) : List (List Int) :=
  let global := fun node => refNode.global (nodes node).toNat
  tableRows nodes (List.range 5) <| pyrTable <| decide
    ((global 0 < global 1 ∧ global 0 < global 3) ∨ (global 4 < global 1 ∧ global 4 < global 3))

/-! ## Hexes -/

/-- The orders `I` of the nodes of a hex, each from another node on. -/
def hexOrders : List (List Nat) :=
  [[0, 1, 2, 3, 4, 5, 6, 7], [1, 0, 4, 5, 2, 3, 7, 6], [2, 1, 5, 6, 3, 0, 4, 7],
    [3, 0, 1, 2, 7, 4, 5, 6], [4, 0, 3, 7, 5, 1, 2, 6], [5, 1, 0, 4, 6, 2, 3, 7],
    [6, 2, 1, 5, 7, 3, 0, 4], [7, 3, 2, 6, 4, 0, 1, 5]]

/-- `ref_shard_permute_hex_120`. -/
def permuteHex120 (I : List Nat) : List Nat :=
  let at' := fun i => I.getD i 0
  [at' 0, at' 4, at' 5, at' 1, at' 3, at' 7, at' 6, at' 2]

/-- The turn of table 5, in steps of 120 degrees. -/
def hexTurn : Bool → Bool → Bool → Nat
  | false, false, false => 0
  | false, false, true => 1
  | false, true, false => 2
  | false, true, true => 0
  | true, false, false => 0
  | true, false, true => 2
  | true, true, false => 1
  | true, true, true => 0

/-- The tets of an ordered hex with `n` diagonals toward node 6. -/
def hexTable : Nat → List (List Nat)
  | 0 => [[0, 1, 2, 5], [0, 2, 7, 5], [0, 2, 3, 7], [0, 5, 7, 4], [2, 7, 5, 6]]
  | 1 => [[0, 5, 7, 4], [0, 1, 7, 5], [1, 6, 7, 5], [0, 7, 2, 3], [0, 7, 1, 2], [1, 7, 6, 2]]
  | 2 => [[0, 4, 5, 6], [0, 3, 7, 6], [0, 7, 4, 6], [0, 1, 2, 5], [0, 3, 6, 2], [0, 6, 5, 2]]
  | _ => [[0, 2, 3, 6], [0, 3, 7, 6], [0, 7, 4, 6], [0, 5, 6, 4], [1, 5, 6, 0], [1, 6, 2, 0]]

/-- The rows of `ref_shard_add_hex_as_tet`. -/
def hexAsTet (refNode : RefNode D) (nodes : Nat → Int) : List (List Int) :=
  let global := fun node => refNode.global (nodes node).toNat
  let order := orderAtMin global 8 hexOrders
  let at' := fun i => global (order.getD i 0)
  let face0 := decide (min (at' 1) (at' 6) < min (at' 2) (at' 5))
  let face1 := decide (min (at' 3) (at' 6) < min (at' 2) (at' 7))
  let face2 := decide (min (at' 4) (at' 6) < min (at' 5) (at' 7))
  tableRows nodes (permuteHex120^[hexTurn face0 face1 face2] order)
    (hexTable (face0.toNat + face1.toNat + face2.toNat))

/-! ## Quads -/

/-- The triangles of a quad that is cut from 0 to 2 or from 3 to 1. -/
def quaTable (diag02 : Bool) : List (List Nat) :=
  if diag02 then [[0, 2, 3], [0, 1, 2]] else [[0, 1, 3], [2, 3, 1]]

/-- The rows of `ref_shard_add_qua_as_tri`, with the id of the quad. -/
def quaAsTri (refNode : RefNode D) (nodes : Nat → Int) : List (List Int) :=
  let global := fun node => refNode.global (nodes node).toNat
  (tableRows nodes (List.range 4) <| quaTable <| decide
    ((global 0 < global 1 ∧ global 0 < global 3) ∨
      (global 2 < global 1 ∧ global 2 < global 3))).map (· ++ [nodes 4])

/-! ## Keeping layers -/

/-- A face of a prism marks its nodes when it is a triangle with an id of the
dictionary. -/
def markPriTri (g : RefGrid D) (ofFaceid : RefDict) (triNodes : List Int) (mark : Nat → Int) :
    Except Status (Nat → Int) :=
  match (g.cell .tri).cellWith (nodeArray triNodes) with
  | .ok triMark =>
      if ofFaceid.hasKey ((g.cell .tri).c2n triMark 3) then
        .ok (triNodes.foldl (fun mark node => Function.update mark node.toNat 0) mark)
      else .ok mark
  | .error .notFound => .ok mark
  | .error status => .error status

/-- The loop that marks nodes on prism tris. -/
def markPriTris (g : RefGrid D) (ofFaceid : RefDict) (mark : Nat → Int) :
    Except Status (Nat → Int) :=
  (g.cell .pri).validCells.foldlM (fun mark cell => do
    let orig := (g.cell .pri).c2n cell
    let mark ← markPriTri g ofFaceid [orig 0, orig 1, orig 2] mark
    markPriTri g ofFaceid [orig 3, orig 5, orig 4] mark) mark

/-- A mark is passed on to an unmarked node. -/
def passMark (markCopy : Nat → Int) (mark : Nat → Int) (source target : Nat) : Nat → Int :=
  if markCopy target = refEmpty ∧ markCopy source ≠ refEmpty then
    Function.update mark target (markCopy source + 1)
  else mark

/-- The body of the loop of a relaxation: the three columns of a prism. -/
def relaxPri (markCopy mark orig : Nat → Int) : Nat → Int :=
  [(3, 0), (0, 3), (4, 1), (1, 4), (5, 2), (2, 5)].foldl (fun mark column =>
    passMark markCopy mark (orig column.1).toNat (orig column.2).toNat) mark

/-- One relaxation without its exchange. -/
def relaxPris (pri : RefCell) (mark : Nat → Int) : Nat → Int :=
  pri.validCells.foldl (fun acc cell => relaxPri mark acc (pri.c2n cell)) mark

/-- The relaxations; `mem` is the memory of the buffers of each exchange. -/
def relaxLayers (p : Nat) (g : RefGrid D) :
    Nat → (Nat → GhostMemory Int) → (Nat → Int) → RankProg D (Nat → Int)
  | 0, _, mark => .ret mark
  | layers+1, mem, mark =>
      (ghostInt p g.node (relaxPris (g.cell .pri) mark) 1 (mem 0)).bind fun mark =>
        relaxLayers p g layers (fun i => mem (i + 1)) mark

/-- The marks before the first exchange. -/
def firstMarks (g : RefGrid D) (keepingNLayers : Int) (ofFaceid : Option RefDict) :
    Except Status (Nat → Int) :=
  match ofFaceid with
  | some dict =>
      if 0 < keepingNLayers then markPriTris g dict fun _ => refEmpty
      else .ok fun _ => refEmpty
  | none => .ok fun _ => refEmpty

/-- The marks of `ref_shard_prism_into_tet`. -/
def layerMarks (p : Nat) (g : RefGrid D) (keepingNLayers : Int) (ofFaceid : Option RefDict)
    (mem : Nat → GhostMemory Int) : RankProg D (Nat → Int) :=
  (Prog.lift (firstMarks g keepingNLayers ofFaceid)).bind fun mark =>
    (ghostInt p g.node mark 1 (mem 0)).bind fun mark =>
      relaxLayers p g keepingNLayers.toNat (fun i => mem (i + 1)) mark

/-- A cell all of whose listed nodes are marked is kept. -/
def KeepsCell (mark : Nat → Int) (nodes : Nat → Int) (tested : List Nat) : Prop :=
  ∀ i ∈ tested, mark (nodes i).toNat ≠ refEmpty

instance (mark nodes : Nat → Int) (tested : List Nat) : Decidable (KeepsCell mark nodes tested) :=
  inferInstanceAs (Decidable (∀ i ∈ tested, mark (nodes i).toNat ≠ refEmpty))

/-- A loop that replaces the cells of one store that are not kept by cells of
another. -/
def shardUnkept (refNode : RefNode D) (tested : List Nat) (rows : (Nat → Int) → List (List Int))
    (mark : Nat → Int) (from' into : RefCell) : Except Status (RefCell × RefCell) :=
  from'.validCells.foldlM (fun acc cell =>
    let orig := from'.c2n cell
    if KeepsCell mark orig tested then .ok acc
    else do
      let removed ← acc.1.remove cell
      let added ← addShards refNode acc.2 (rows orig)
      .ok (removed, added)) (from', into)

/-- The node is in no cell of the listed types. -/
def HangsFrom (g : RefGrid D) (types : List CellType) (node : Nat) : Prop :=
  ∀ t ∈ types, (g.cell t).adj.firstItem node = refEmpty

instance (g : RefGrid D) (types : List CellType) (node : Nat) :
    Decidable (HangsFrom g types node) :=
  inferInstanceAs (Decidable (∀ t ∈ types, (g.cell t).adj.firstItem node = refEmpty))

/-- The last loop: nodes without a cell of the listed types are removed. -/
def removeHanging (g : RefGrid D) (types : List CellType) : Except Status (RefGrid D) := do
  let node ← g.node.validNodes.foldlM (fun (refNode : RefNode D) node =>
    if HangsFrom g types node then refNode.removeWithoutGlobal node else .ok refNode) g.node
  .ok { g with node := node }

/-- The loops of `ref_shard_prism_into_tet` after the marks. -/
def shardMarked (g : RefGrid D) (mark : Nat → Int) : Except Status (RefGrid D) := do
  let (pri, tet) ← shardUnkept g.node [0, 3] (priAsTet g.node) mark (g.cell .pri) (g.cell .tet)
  let (pyr, tet) ← shardUnkept g.node [0, 1, 3, 4] (pyrAsTet g.node) mark (g.cell .pyr) tet
  let (qua, tri) ← shardUnkept g.node [0, 1, 2, 3] (quaAsTri g.node) mark (g.cell .qua)
    (g.cell .tri)
  removeHanging
    (((((g.setCell .pri pri).setCell .pyr pyr).setCell .tet tet).setCell .qua qua).setCell .tri tri)
    [.tet, .pyr, .pri, .hex]

/-- `ref_shard_prism_into_tet`. -/
def prismIntoTet (p : Nat) (g : RefGrid D) (keepingNLayers : Int) (ofFaceid : Option RefDict)
    (mem : Nat → GhostMemory Int) : RankProg D (RefGrid D) :=
  (layerMarks p g keepingNLayers ofFaceid mem).bind fun mark => Prog.lift (shardMarked g mark)

/-! ## Everything -/

/-- A loop that adds the pieces of all cells of one store to another. -/
def shardAll (refNode : RefNode D) (rows : (Nat → Int) → List (List Int)) (from' into : RefCell) :
    Except Status RefCell :=
  from'.validCells.foldlM (fun into cell => addShards refNode into (rows (from'.c2n cell))) into

/-- `ref_shard_in_place`, over memory `mem` for the stores that are created. -/
def shardInPlace (g : RefGrid D) (mem : CellType → RefCell) : Except Status (RefGrid D) := do
  let tri ← shardAll g.node (quaAsTri g.node) (g.cell .qua) (g.cell .tri)
  let g := (g.setCell .tri tri).setCell .qua (RefCell.create (mem .qua) .qua)
  let tet ← shardAll g.node (pyrAsTet g.node) (g.cell .pyr) (g.cell .tet)
  let g := (g.setCell .tet tet).setCell .pyr (RefCell.create (mem .pyr) .pyr)
  let tet ← shardAll g.node (priAsTet g.node) (g.cell .pri) (g.cell .tet)
  let g := (g.setCell .tet tet).setCell .pri (RefCell.create (mem .pri) .pri)
  let tet ← shardAll g.node (hexAsTet g.node) (g.cell .hex) (g.cell .tet)
  let g := (g.setCell .tet tet).setCell .hex (RefCell.create (mem .hex) .hex)
  removeHanging g [.tri, .tet]

end RefineMesh
