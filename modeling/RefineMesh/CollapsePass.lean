import Mathlib.Tactic
import RefineMesh.CavityReplace
import RefineMesh.Edge
import RefineMesh.Sort

/-!
# The collapse pass

`ref_collapse_pass` visits the nodes with a short edge, the shortest first, and
tries to remove each by a collapse into a neighbor.  The neighborhood of a
collapse is frozen for the rest of the pass: its sort keys are raised over the
limit at which the visit skips a node.  What the geometry answers on the way is
a parameter.
-/

namespace RefineMesh

variable {D R : Type}

/-- What the geometry answers.  `frozenRatio` is `2.0 * collapse_ratio`;
`cavityChange` is whether the least quality of the new tets is over
`collapse_quality_absolute`. -/
structure CollapseTests (D R : Type) where
  collapseRatio : R
  frozenRatio : R
  nodeRatio : RefGrid D → Int → Int → Except Status R
  chordHeight : RefGrid D → Int → Int → Except Status Bool
  ratio : RefGrid D → Int → Int → Except Status Bool
  normdev : RefGrid D → Int → Int → Except Status Bool
  sameNormal : RefGrid D → Int → Int → Except Status Bool
  sameTangent : RefGrid D → Int → Int → Except Status Bool
  twodOrientation : RefGrid D → Int → Int → Except Status Bool
  triQuality : RefGrid D → Int → Int → Except Status Bool
  tetQuality : RefGrid D → Int → Int → Except Status Bool
  cavity : RefGrid D → RefCavity.Tests
  cavityRatio : RefGrid D → RefCavity → Except Status Bool
  cavityChange : RefGrid D → RefCavity → Except Status Bool

/-! ## The cavity of a collapse -/

namespace RefCavity

/-- One of the first two loops of `ref_cavity_form_edge_collapse`: the tets of
`center`, which is `node0` or `node1`.  The second result is whether the
function goes on. -/
def collapseTets (g : RefGrid D) (node0 node1 center : Int) :
    List Nat → RefCavity → Except Status (RefCavity × Bool)
  | [], c => .ok (c, true)
  | cell :: rest, c =>
      if cell ∈ c.tetList then collapseTets g node0 node1 center rest c
      else
        let c := { c with tetList := c.tetList ++ [cell] }
        let nodes := (g.cell .tet).nodeList cell
        if ¬ allLocal g (g.cell .tet) cell then
          .ok ({ c with state := .partitionConstrained }, false)
        else if node0 ∈ nodes ∧ node1 ∈ nodes then collapseTets g node0 node1 center rest c
        else do
          let c ← CellType.tet.f2n.foldlM (fun (c : RefCavity) face =>
            let faceNodes := (g.cell .tet).faceNodes cell face
            if (List.range 3).any fun node => center = faceNodes node then .ok c
            else c.insertFace faceNodes) c
          collapseTets g node0 node1 center rest c

/-- One of the last two loops of `ref_cavity_form_edge_collapse`: the
triangles of `center`. -/
def collapseTris (g : RefGrid D) (node0 node1 center : Int) :
    List Nat → RefCavity → Except Status (RefCavity × Bool)
  | [], c => .ok (c, true)
  | cell :: rest, c =>
      if cell ∈ c.triList then collapseTris g node0 node1 center rest c
      else
        let c := { c with triList := c.triList ++ [cell] }
        let nodes := (g.cell .tri).nodeList cell
        if ¬ allLocal g (g.cell .tri) cell then
          .ok ({ c with state := .partitionConstrained }, false)
        else if node0 ∈ nodes ∧ node1 ∈ nodes then collapseTris g node0 node1 center rest c
        else do
          let c ← CellType.tri.e2n.foldlM (fun (c : RefCavity) edge =>
            let n0 := (g.cell .tri).c2n cell edge.1
            let n1 := (g.cell .tri).c2n cell edge.2
            if center ≠ n0 ∧ center ≠ n1 then
              c.insertSeg g (nodeRow n0 n1 ((g.cell .tri).c2n cell 3))
            else .ok c) c
          collapseTris g node0 node1 center rest c

/-- `ref_cavity_form_edge_collapse`. -/
def formEdgeCollapse (g : RefGrid D) (node0 node1 : Int) : Except Status RefCavity :=
  let c := formEmpty node0
  if ¬ owned g node0 ∨ ¬ owned g node1 then .ok { c with state := .partitionConstrained }
  else if 0 < (g.cell .pyr).n ∨ 0 < (g.cell .pri).n then
    .ok { c with state := .manifoldConstrained }
  else do
    let c := { c with collapseNode0 := node0, collapseNode1 := node1 }
    let c ← collapseTets g node0 node1 node0 ((g.cell .tet).having node0) c
    if ¬ c.2 then .ok c.1
    else do
      let c ← collapseTets g node0 node1 node1 ((g.cell .tet).having node1) c.1
      if ¬ c.2 then .ok c.1
      else do
        let c ← collapseTris g node0 node1 node0 ((g.cell .tri).having node0) c.1
        if ¬ c.2 then .ok c.1
        else do
          let c ← collapseTris g node0 node1 node1 ((g.cell .tri).having node1) c.1
          if ¬ c.2 then .ok c.1
          else do
            let c ← c.1.verifyFaceManifold
            c.verifySegManifold

end RefCavity

open RefCavity

/-- `ref_collapse_edge_local_cell`. -/
def collapseEdgeLocalCell (g : RefGrid D) (node0 node1 : Int) : Bool :=
  [CellType.tet, .tri].all fun t => [node1, node0].all fun node =>
    ((g.cell t).having node).all fun cell => allLocal g (g.cell t) cell

/-! ## Removing one node -/

/-- How a node was removed: by `ref_collapse_edge`, or by `ref_cavity_replace`
of a cavity. -/
inductive Removal
  | collapsed
  | replaced (c : RefCavity)

/-- Tests one after the other, up to the first that does not allow. -/
def allAllowed : List (Except Status Bool) → Except Status Bool
  | [] => .ok true
  | test :: rest => do
      let allowed ← test
      if allowed then allAllowed rest else .ok false

section Pass

variable (tests : CollapseTests D R) (twod surf : Bool) (fuel : Nat)

/-- The tests of `ref_collapse_to_remove_node1` up to `tri qual`. -/
def collapseAllowed (g : RefGrid D) (node0 node1 : Int) : Except Status Bool :=
  let haveGeometrySupport : Bool := g.geom.adj.firstItem node0 ≠ refEmpty
  allAllowed [.ok (collapseEdgeMixed g node0 node1), collapseEdgeGeometry g node0 node1,
    collapseEdgeManifold node0 node1 g, tests.chordHeight g node0 node1,
    tests.ratio g node0 node1, tests.normdev g node0 node1, tests.sameNormal g node0 node1,
    if ¬ haveGeometrySupport then tests.sameTangent g node0 node1 else .ok true,
    if ¬ haveGeometrySupport ∧ twod then tests.twodOrientation g node0 node1 else .ok true,
    tests.triQuality g node0 node1]

/-- `valid_cavity`. -/
def validCavity (g : RefGrid D) (c : RefCavity) : Except Status Bool := do
  let allowedCavityRatio ← tests.cavityRatio g c
  let change ← tests.cavityChange g c
  .ok (allowedCavityRatio && change)

/-- The branch of `ref_collapse_to_remove_node1` that collapses through a
cavity; `none` inside is that the loop goes on. -/
def collapseThroughCavity (g : RefGrid D) (node0 node1 : Int) :
    Option (Except Status (Option (RefGrid D × Removal))) :=
  match formEdgeCollapse g node0 node1 with
  | .error _ => some (.ok none)
  | .ok c =>
      if c.state = .inconsistent then some (.ok none)
      else
        andThen (c.enlargeVisible (tests.cavity g) g fuel) fun c =>
        if c.state = .visible then
          andThen (some (validCavity tests g c)) fun valid =>
          if valid then
            andThen (c.replace (twod || surf) g fuel) fun g =>
            some (.ok (some (g, .replaced c)))
          else some (.ok none)
        else some (.ok none)

/-- One round of the loop of `ref_collapse_to_remove_node1`. -/
def tryNode0 (g : RefGrid D) (node1 node0 : Int) :
    Option (Except Status (Option (RefGrid D × Removal))) :=
  andThen (some (collapseAllowed tests twod g node0 node1)) fun allowed =>
  if ¬ allowed then some (.ok none)
  else
    andThen (some (tests.tetQuality g node0 node1)) fun allowed =>
    if ¬ collapseEdgeLocalCell g node0 node1 then some (.ok none)
    else if ¬ allowed then collapseThroughCavity tests twod surf fuel g node0 node1
    else
      andThen (collapseEdge node0 node1 fuel g) fun g =>
      some (.ok (some (g, .collapsed)))

/-- The loop of `ref_collapse_to_remove_node1`; the second result is
`actual_node0` with how the node was removed. -/
def tryNodes (g : RefGrid D) (node1 : Int) :
    List Int → Option (Except Status (RefGrid D × Option (Int × Removal)))
  | [] => some (.ok (g, none))
  | node0 :: rest =>
      andThen (tryNode0 tests twod surf fuel g node1 node0) fun tried =>
      match tried with
      | some (g, removal) => some (.ok (g, some (node0, removal)))
      | none => tryNodes g node1 rest

/-- The cells of `ref_collapse_to_remove_node1`. -/
def hoodCells (g : RefGrid D) : RefCell := if surf || twod then g.cell .tri else g.cell .tet

variable [LinearOrder R]

/-- The neighbors of a node, the nearest first. -/
def sortedHood (g : RefGrid D) (node1 : Int) : Except Status (List Int) := do
  let hood ← ((hoodCells twod surf g).nodeListAround node1 maxNodeList).mapError Prod.fst
  let ratios ← hood.mapM fun node => tests.nodeRatio g node node1
  let ratio := fun i => ratios.getD i tests.collapseRatio
  let order := sortHeap hood.length ratio fun _ => 0
  .ok ((List.range hood.length).map fun i => hood.getD (order i) refEmpty)

/-- `ref_collapse_to_remove_node1`. -/
def collapseToRemoveNode1 (g : RefGrid D) (node1 : Int) :
    Option (Except Status (RefGrid D × Option (Int × Removal))) :=
  if ¬ validNode g node1 then some (.error .failure)
  else
    andThen (some (sortedHood tests twod surf g node1)) fun candidates =>
    tryNodes tests twod surf fuel g node1 candidates

/-! ## The pass -/

/-- The arrays of `ref_collapse_pass`. -/
structure PassArrays (R : Type) where
  ntarget : Nat
  target : Nat → Int
  node2target : Int → Int
  ratio : Nat → R

/-- The least edge ratio of each node. -/
def shortestEdges (g : RefGrid D) (edges : RefEdge) : Except Status (Nat → R) :=
  (List.range edges.n).foldlM (fun (ratio : Nat → R) edge => do
    let node0 := edges.e2n edge 0
    let node1 := edges.e2n edge 1
    let edgeRatio ← tests.nodeRatio g node0 node1
    let ratio := Function.update ratio node0.toNat (min (ratio node0.toNat) edgeRatio)
    .ok (Function.update ratio node1.toNat (min (ratio node1.toNat) edgeRatio)))
    fun _ => tests.frozenRatio

/-- One node in the loop that collects the targets; the ratios are packed in
place. -/
def collectTarget (a : PassArrays R) (node : Nat) : PassArrays R :=
  if a.ratio node < tests.collapseRatio then
    { ntarget := a.ntarget + 1
      target := Function.update a.target a.ntarget node
      node2target := Function.update a.node2target node a.ntarget
      ratio := Function.update a.ratio a.ntarget (a.ratio node) }
  else a

/-- The targets of `ref_collapse_pass`. -/
def collectTargets (max : Nat) (ratio : Nat → R) : PassArrays R :=
  (List.range max).foldl (collectTarget tests)
    { ntarget := 0, target := fun _ => 0, node2target := fun _ => refEmpty, ratio := ratio }

/-- The ratio of the nodes of one cell is raised. -/
def freezeCell (nodePer : Nat) (nodes : Nat → Int) (a : PassArrays R) : PassArrays R :=
  (List.range nodePer).foldl (fun a node =>
    if a.node2target (nodes node) ≠ refEmpty then
      { a with
        ratio := Function.update a.ratio (a.node2target (nodes node)).toNat tests.frozenRatio }
    else a) a

/-- The loop of `ref_collapse_pass` over the cells of `node0`. -/
def freeze (s : RefCell) (node0 : Int) (a : PassArrays R) : Except Status (PassArrays R) :=
  (s.having node0).foldlM (fun a cell => do
    let nodes ← s.nodes cell
    .ok (freezeCell tests s.nodePer nodes a)) a

/-- The cells of `ref_collapse_pass`. -/
def passCells (g : RefGrid D) : RefCell := if surf then g.cell .tri else g.cell .tet

/-- The node that is left of a collapse; `REF_EMPTY` when there was none. -/
def keptNode : Option (Int × Removal) → Int
  | some (node0, _) => node0
  | none => refEmpty

/-- One round of the loop of `ref_collapse_pass`. -/
def passStep (i : Nat) (s : RefGrid D × PassArrays R) :
    Option (Except Status ((RefGrid D × PassArrays R) × Option (Int × Removal))) :=
  let node1 := s.2.target i
  if tests.collapseRatio < s.2.ratio i then some (.ok (s, none))
  else if ¬ validNode s.1 node1 then some (.ok (s, none))
  else
    andThen (collapseToRemoveNode1 tests twod surf fuel s.1 node1) fun tried =>
    if ¬ validNode tried.1 node1 then
      andThen (some (freeze tests (passCells surf tried.1) (keptNode tried.2) s.2)) fun a =>
      some (.ok ((tried.1, a), tried.2))
    else some (.ok ((tried.1, s.2), tried.2))

/-- The loop of `ref_collapse_pass` over the targets in their order. -/
def passLoop : List Nat → RefGrid D × PassArrays R →
    Option (Except Status (RefGrid D × PassArrays R))
  | [], s => some (.ok s)
  | i :: rest, s => andThen (passStep tests twod surf fuel i s) fun stepped => passLoop rest stepped.1

/-- The arrays and the order with which `ref_collapse_pass` enters its loop. -/
def passStart (mem : RefEdge) (g : RefGrid D) : Except Status (PassArrays R × List Nat) := do
  let edges ← RefEdge.create mem g
  let ratio ← shortestEdges tests g edges
  let a := collectTargets tests g.node.max ratio
  let order := sortHeap a.ntarget a.ratio fun _ => 0
  .ok (a, (List.range a.ntarget).map order)

/-- `ref_collapse_pass`. -/
def collapsePass (mem : RefEdge) (g : RefGrid D) : Option (Except Status (RefGrid D)) :=
  andThen (some (passStart tests mem g)) fun start =>
  andThen (passLoop tests twod surf fuel start.2 (g, start.1)) fun s => some (.ok s.1)

end Pass

end RefineMesh
