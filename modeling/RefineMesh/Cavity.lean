import Mathlib.Tactic
import RefineMesh.CellQuery
import RefineMesh.Grid

/-!
# The cavity

`REF_CAVITY_STRUCT` collects tets and triangles that are to be replaced and
keeps the faces and segments around them.  Faces and segments are rows of two
slot arrays; two rows with opposite orientation destroy each other, so that
what is left is the boundary of what was collected.  The cavity grows over the
faces that its node does not see and over the segments that do not conform.
-/

namespace RefineMesh

variable {D : Type}

/-- `REF_CAVITY_STATE`. -/
inductive CavityState
  | unknown
  | visible
  | boundaryConstrained
  | partitionConstrained
  | manifoldConstrained
  | inconsistent
  | noop
  deriving DecidableEq, Repr

/-- One of the arrays `s2n` and `f2n` with its count, its size and its blank
list; `entry slot node` is `ref_cavity_f2n(ref_cavity, node, slot)`. -/
structure CavityRows where
  n : Nat
  max : Nat
  blank : Int
  entry : Nat → Nat → Int

namespace CavityRows

/-- `ref_cavity_valid_face` and `ref_cavity_valid_seg` of a slot index. -/
def Live (s : CavityRows) (slot : Nat) : Prop := slot < s.max ∧ s.entry slot 0 ≠ refEmpty

instance (s : CavityRows) : DecidablePred s.Live :=
  fun slot => inferInstanceAs (Decidable (slot < s.max ∧ s.entry slot 0 ≠ refEmpty))

/-- The part of `ref_cavity_create` for one array. -/
def create : CavityRows where
  n := 0
  max := 10
  blank := 0
  entry := RefCell.linkRows 0 10 fun _ _ => 0

/-- The slots in the order of `each_ref_cavity_valid_face`. -/
def valid (s : CavityRows) : List Nat := (List.range s.max).filter fun slot => s.Live slot

/-- The growth of `ref_cavity_insert_face`.  The length of the array is computed
in `REF_INT`. -/
def grow (s : CavityRows) : Except Status CavityRows :=
  if s.blank ≠ refEmpty then .ok s
  else
    let orig := s.max
    let chunk := Nat.max 100 (3 * orig / 2)
    let max := orig + chunk
    if refIntMax < 3 * max then .error .undefined
    else .ok { s with
      max := max
      entry := RefCell.linkRows orig max s.entry
      blank := orig }

/-- A new row in the first blank slot. -/
def add (s : CavityRows) (nodes : Nat → Int) : Except Status CavityRows := do
  let s ← s.grow
  let slot := s.blank.toNat
  let row := fun node => if node < 3 then nodes node else s.entry slot node
  .ok { s with
    blank := s.entry slot 1
    entry := Function.update s.entry slot row
    n := s.n + 1 }

/-- A row is destroyed; its slot leads the blank list. -/
def erase (s : CavityRows) (slot : Nat) : CavityRows :=
  let row := fun node =>
    if node = 0 then refEmpty else if node = 1 then s.blank else s.entry slot node
  { s with
    n := s.n - 1
    entry := Function.update s.entry slot row
    blank := slot }

/-- The three nodes of a face, or the two nodes and the id of a segment. -/
def row (s : CavityRows) (slot : Nat) : Int × Int × Int :=
  (s.entry slot 0, s.entry slot 1, s.entry slot 2)

end CavityRows

/-- `REF_CAVITY_STRUCT`, without its grid. -/
structure RefCavity where
  state : CavityState
  node : Int
  surfNode : Int
  segs : CavityRows
  faces : CavityRows
  triList : List Nat
  tetList : List Nat
  splitNode0 : Int
  splitNode1 : Int
  collapseNode0 : Int
  collapseNode1 : Int
  segRmAddsTet : Bool

namespace RefCavity

/-- `ref_cavity_create` and `ref_cavity_form_empty`. -/
def formEmpty (node : Int) : RefCavity where
  state := .unknown
  node := node
  surfNode := refEmpty
  segs := .create
  faces := .create
  triList := []
  tetList := []
  splitNode0 := refEmpty
  splitNode1 := refEmpty
  collapseNode0 := refEmpty
  collapseNode1 := refEmpty
  segRmAddsTet := false

variable (c : RefCavity)

/-- `ref_cavity_seg_node`. -/
def segNode : Int := if c.surfNode ≠ refEmpty then c.surfNode else c.node

/-- `ref_cavity_f2n`. -/
def f2n (face node : Nat) : Int := c.faces.entry face node

/-- `ref_cavity_s2n`. -/
def s2n (seg node : Nat) : Int := c.segs.entry seg node

/-- A row of node indices. -/
def nodeRow (n0 n1 n2 : Int) : Nat → Int := fun node =>
  if node = 0 then n0 else if node = 1 then n1 else n2

/-! ## Faces -/

/-- The first test of `ref_cavity_find_face`: the nodes up to a rotation. -/
def sameFace (nodes : Nat → Int) (face : Nat) : Bool :=
  (nodes 0 = c.f2n face 0 ∧ nodes 1 = c.f2n face 1 ∧ nodes 2 = c.f2n face 2) ∨
    (nodes 1 = c.f2n face 0 ∧ nodes 2 = c.f2n face 1 ∧ nodes 0 = c.f2n face 2) ∨
      (nodes 2 = c.f2n face 0 ∧ nodes 0 = c.f2n face 1 ∧ nodes 1 = c.f2n face 2)

/-- The second test of `ref_cavity_find_face`. -/
def reversedFace (nodes : Nat → Int) (face : Nat) : Bool :=
  (nodes 2 = c.f2n face 0 ∧ nodes 1 = c.f2n face 1 ∧ nodes 0 = c.f2n face 2) ∨
    (nodes 1 = c.f2n face 0 ∧ nodes 0 = c.f2n face 1 ∧ nodes 2 = c.f2n face 2) ∨
      (nodes 0 = c.f2n face 0 ∧ nodes 2 = c.f2n face 1 ∧ nodes 1 = c.f2n face 2)

/-- `ref_cavity_find_face`: the face and `reversed`; `none` stands for
`REF_NOT_FOUND`. -/
def findFace (nodes : Nat → Int) : Option (Nat × Bool) :=
  (c.faces.valid.find? fun face => c.sameFace nodes face ∨ c.reversedFace nodes face).map
    fun face => (face, ¬ c.sameFace nodes face)

/-- `ref_cavity_insert_face`. -/
def insertFace (nodes : Nat → Int) : Except Status RefCavity :=
  match c.findFace nodes with
  | some (face, true) => .ok { c with faces := c.faces.erase face }
  | some (_, false) => .error .invalid
  | none => do
      let faces ← c.faces.add nodes
      .ok { c with faces := faces }

/-- The test of `ref_cavity_find_face_with_side`. -/
def hasSideOn (node0 node1 : Int) (face : Nat) : Bool :=
  (node0 = c.f2n face 0 ∧ node1 = c.f2n face 1) ∨
    (node0 = c.f2n face 1 ∧ node1 = c.f2n face 2) ∨
      (node0 = c.f2n face 2 ∧ node1 = c.f2n face 0)

/-- `ref_cavity_find_face_with_side`: two faces make the cavity inconsistent. -/
def findFaceWithSide (node0 node1 : Int) : RefCavity × Option Nat :=
  match c.faces.valid.filter fun face => c.hasSideOn node0 node1 face with
  | [] => (c, none)
  | [face] => (c, some face)
  | _ => ({ c with state := .inconsistent }, none)

/-- One side in the loop of `ref_cavity_verify_face_manifold`; the second result
is whether the loop goes on. -/
def verifySide (node0 node1 : Int) : Except Status (RefCavity × Bool) :=
  let found := c.findFaceWithSide node0 node1
  if found.1.state = .inconsistent then .ok (found.1, false)
  else if found.2 = none then .error .failure
  else .ok (found.1, true)

/-- The loop of `ref_cavity_verify_face_manifold`. -/
def verifyFaces : List Nat → RefCavity → Except Status RefCavity
  | [], c => .ok c
  | face :: rest, c => do
      let c ← c.verifySide (c.f2n face 1) (c.f2n face 0)
      if ¬ c.2 then .ok c.1
      else do
        let c ← c.1.verifySide (c.1.f2n face 2) (c.1.f2n face 1)
        if ¬ c.2 then .ok c.1
        else do
          let c ← c.1.verifySide (c.1.f2n face 0) (c.1.f2n face 2)
          if ¬ c.2 then .ok c.1 else verifyFaces rest c.1

/-- `ref_cavity_verify_face_manifold`. -/
def verifyFaceManifold : Except Status RefCavity :=
  if c.state = .inconsistent then .ok c else verifyFaces c.faces.valid c

/-! ## Segments -/

/-- `ref_cavity_find_seg`: the segment and `reversed`; `none` stands for
`REF_NOT_FOUND`. -/
def findSeg (nodes : Nat → Int) : Option (Nat × Bool) :=
  (c.segs.valid.find? fun seg => (nodes 0 = c.s2n seg 0 ∧ nodes 1 = c.s2n seg 1) ∨
      (nodes 1 = c.s2n seg 0 ∧ nodes 0 = c.s2n seg 1)).map
    fun seg => (seg, ¬ (nodes 0 = c.s2n seg 0 ∧ nodes 1 = c.s2n seg 1))

/-- `ref_cavity_remove_seg_face`. -/
def removeSegFace (segNodes : Nat → Int) : Except Status RefCavity :=
  if c.tetList = [] ∨ c.state ≠ .unknown then .ok c
  else
    match c.findFace (nodeRow (segNodes 0) (segNodes 1) c.segNode) with
    | none => .error .notFound
    | some (_, false) => .error .failure
    | some (face, true) => .ok { c with faces := c.faces.erase face }

/-- `ref_cavity_add_seg_face`. -/
def addSegFace (segNodes : Nat → Int) : Except Status RefCavity :=
  if c.tetList = [] ∨ c.state ≠ .unknown then .ok c
  else if segNodes 0 = c.segNode ∨ segNodes 1 = c.segNode then .ok c
  else c.insertFace (nodeRow (segNodes 0) (segNodes 1) c.segNode)

/-- `ref_node_owned`. -/
def owned (g : RefGrid D) (node : Int) : Bool := g.node.rank = g.node.part node.toNat

/-- `ref_cell_all_local` of a valid cell. -/
def allLocal (g : RefGrid D) (s : RefCell) (cell : Nat) : Bool :=
  (s.nodeList cell).all fun node => owned g node

/-- The faces of one tet in `ref_cavity_remove_seg_add_tets`: those on the two
triangles `tris` are left out. -/
def insertFacesBut (g : RefGrid D) (tris : List Nat) (tet : Nat) :
    Except Status RefCavity :=
  CellType.tet.f2n.foldlM (fun (c : RefCavity) face =>
    let nodes := (g.cell .tet).faceNodes tet face
    match (g.cell .tri).cellWith nodes with
    | .ok tri => if tri ∈ tris then .ok c else c.insertFace nodes
    | .error .notFound => c.insertFace nodes
    | .error e => .error e) c

/-- The loop of `ref_cavity_remove_seg_add_tets`. -/
def addSegTets (g : RefGrid D) (tris : List Nat) : List Nat → RefCavity → Except Status RefCavity
  | [], c => .ok c
  | tet :: rest, c =>
      if tet ∈ c.tetList then addSegTets g tris rest c
      else
        let c := { c with tetList := c.tetList ++ [tet] }
        if ¬ allLocal g (g.cell .tet) tet then .ok { c with state := .partitionConstrained }
        else do
          let c ← c.insertFacesBut g tris tet
          addSegTets g tris rest c

/-- `ref_cavity_remove_seg_add_tets`. -/
def removeSegAddTets (g : RefGrid D) (segNodes : Nat → Int) : Except Status RefCavity :=
  if (¬ c.segRmAddsTet ∧ c.tetList = []) ∨ c.state ≠ .unknown then .ok c
  else do
    let tris ← (g.cell .tri).listWith2 (segNodes 0) (segNodes 1) 2
    if tris.length ≠ 2 then .error .failure
    else addSegTets g tris ((g.cell .tet).having2 (segNodes 0) (segNodes 1)) c

/-- `ref_cavity_insert_seg`. -/
def insertSeg (g : RefGrid D) (nodes : Nat → Int) : Except Status RefCavity :=
  match c.findSeg nodes with
  | some (seg, true) =>
      if nodes 2 ≠ c.s2n seg 2 then .ok { c with state := .boundaryConstrained }
      else do
        let c := { c with segs := c.segs.erase seg }
        let c ← c.removeSegFace nodes
        c.removeSegAddTets g nodes
  | some (_, false) => .error .invalid
  | none => do
      let segs ← c.segs.add nodes
      let c := { c with segs := segs }
      c.addSegFace nodes

/-- The loop of `ref_cavity_verify_seg_manifold`. -/
def verifySegs : List Nat → RefCavity → Except Status RefCavity
  | [], c => .ok c
  | seg0 :: rest, c =>
      match c.segs.valid.filter fun seg1 => c.s2n seg0 1 = c.s2n seg1 0 with
      | [] => .error .failure
      | [_] => verifySegs rest c
      | _ => .ok { c with state := .inconsistent }

/-- `ref_cavity_verify_seg_manifold`. -/
def verifySegManifold : Except Status RefCavity :=
  if c.state = .inconsistent then .ok c else verifySegs c.segs.valid c

/-! ## Cells -/

/-- The loop of `ref_cavity_add_tri` over the sides. -/
def addTriSides (g : RefGrid D) (tri : Nat) :
    List (Nat × Nat) → RefCavity → Except Status RefCavity
  | [], c => .ok c
  | edge :: rest, c => do
      let c ← c.insertSeg g (nodeRow ((g.cell .tri).c2n tri edge.1) ((g.cell .tri).c2n tri edge.2)
        ((g.cell .tri).c2n tri (g.cell .tri).nodePer))
      if c.state ≠ .unknown then .ok c else addTriSides g tri rest c

/-- `ref_cavity_add_tri`. -/
def addTri (g : RefGrid D) (tri : Nat) : Except Status RefCavity :=
  if ¬ (g.cell .tri).Live tri then .error .failure
  else if tri ∈ c.triList then .ok c
  else if ¬ allLocal g (g.cell .tri) tri then .ok { c with state := .partitionConstrained }
  else addTriSides g tri CellType.tri.e2n { c with triList := c.triList ++ [tri] }

/-- The loop of `ref_cavity_add_tet` over the faces. -/
def addTetFaces (g : RefGrid D) (tet : Nat) :
    List (Nat × Nat × Nat × Nat) → RefCavity → Except Status RefCavity
  | [], c => .ok c
  | face :: rest, c =>
      let nodes := (g.cell .tet).faceNodes tet face
      if ¬ (List.range 3).all fun node => owned g (nodes node) then
        .ok { c with state := .partitionConstrained }
      else do
        let c ← c.insertFace nodes
        if c.state ≠ .unknown then .ok c else addTetFaces g tet rest c

/-- `ref_cavity_add_tet`. -/
def addTet (g : RefGrid D) (tet : Nat) : Except Status RefCavity :=
  if ¬ (g.cell .tet).Live tet then .error .failure
  else if tet ∈ c.tetList then .ok c
  else addTetFaces g tet CellType.tet.f2n { c with tetList := c.tetList ++ [tet] }

/-- The second test of `ref_cavity_enlarge_face`. -/
def onlyTets (g : RefGrid D) (node : Int) : Bool :=
  (g.cell .pyr).adj.firstItem node = refEmpty ∧ (g.cell .pri).adj.firstItem node = refEmpty ∧
    (g.cell .hex).adj.firstItem node = refEmpty ∧ (g.cell .qua).adj.firstItem node = refEmpty

/-- The last lines of `ref_cavity_enlarge_face`: the cell across. -/
def addTetAcross (g : RefGrid D) (tet0 tet1 : Nat) : Except Status RefCavity := do
  let haveCell0 : Bool := tet0 ∈ c.tetList
  let haveCell1 : Bool := tet1 ∈ c.tetList
  let c ← if haveCell0 then c.addTet g tet1 else .ok c
  if haveCell1 then c.addTet g tet0 else .ok c

/-- The `face_nodes` of `ref_cavity_enlarge_face`, the first node repeated. -/
def faceNodes (face : Nat) : Nat → Int := fun node =>
  if node = 0 then c.f2n face 0 else if node = 1 then c.f2n face 1
  else if node = 2 then c.f2n face 2 else c.f2n face 0

/-- `ref_cavity_enlarge_face`. -/
def enlargeFace (g : RefGrid D) (face : Nat) : Except Status RefCavity :=
  if ¬ c.faces.Live face then .error .failure
  else if ¬ (List.range 3).all fun node => owned g (c.f2n face node) then
    .ok { c with state := .partitionConstrained }
  else if ¬ (List.range 3).all fun node => onlyTets g (c.f2n face node) then
    .ok { c with state := .manifoldConstrained }
  else do
    let tets ← (g.cell .tet).withFace (c.faceNodes face)
    if tets.1 = refEmpty then .ok { c with state := .boundaryConstrained }
    else if tets.2 = refEmpty then .ok { c with state := .boundaryConstrained }
    else c.addTetAcross g tets.1.toNat tets.2.toNat

/-- `ref_cavity_enlarge_seg`. -/
def enlargeSeg (g : RefGrid D) (seg : Nat) : Except Status RefCavity :=
  if ¬ c.segs.Live seg then .error .failure
  else do
    let tris ← (g.cell .tri).listWith2 (c.s2n seg 0) (c.s2n seg 1) 2
    match tris with
    | [tri0, tri1] =>
        if (tri0 ∈ c.triList ↔ tri1 ∈ c.triList) then .error .failure
        else if tri0 ∈ c.triList then c.addTri g tri1 else c.addTri g tri0
    | _ => .ok { c with state := .boundaryConstrained }

/-! ## Growing -/

/-- What the geometry answers: does the node see a face, does a segment conform. -/
structure Tests where
  visible : RefCavity → Nat → Except Status Bool
  conforming : RefCavity → Nat → Except Status Bool

/-- The first slot of a list that is to be enlarged. -/
def firstSlot (test : Nat → Except Status Bool) : List Nat → Except Status (Option Nat)
  | [] => .ok none
  | slot :: rest => do
      if ← test slot then .ok (some slot) else firstSlot test rest

/-- The next slot at which the loops enlarge, from `from'` on: the `for` goes
to its end, and when it has enlarged in this pass the `while` starts it once
more. -/
def nextSlot (test : Nat → Except Status Bool) (max from' : Nat) (keepGrowing : Bool) :
    Except Status (Option Nat) := do
  let found ← firstSlot test (List.range' from' (max - from'))
  match found with
  | some slot => .ok (some slot)
  | none => if keepGrowing then firstSlot test (List.range max) else .ok none

/-- The two loops of `ref_cavity_enlarge_visible` and of
`ref_cavity_enlarge_conforming`; the second result is whether they came to
their end.  `fuel` bounds the enlargements after which the state is
`REF_CAVITY_UNKNOWN`; without it the result is `none`. -/
def growLoop (test : RefCavity → Nat → Except Status Bool) (size : RefCavity → Nat)
    (enlarge : RefCavity → Nat → Except Status RefCavity) :
    Nat → Nat → Bool → RefCavity → Option (Except Status (RefCavity × Bool))
  | fuel, from', keepGrowing, c =>
      match nextSlot (test c) (size c) from' keepGrowing with
      | .error e => some (.error e)
      | .ok none => some (.ok (c, true))
      | .ok (some slot) =>
          match enlarge c slot with
          | .error e => some (.error e)
          | .ok c =>
              if c.state ≠ .unknown then some (.ok (c, false))
              else
                match fuel with
                | 0 => none
                | fuel+1 => growLoop test size enlarge fuel (slot + 1) true c

/-- The body of the loop of `ref_cavity_enlarge_visible` up to the enlargement:
a face away from the node that the node does not see. -/
def faceTest (tests : Tests) (face : Nat) : Except Status Bool :=
  if ¬ c.faces.Live face then .ok false
  else if c.node = c.f2n face 0 ∨ c.node = c.f2n face 1 ∨ c.node = c.f2n face 2 then .ok false
  else do
    let visible ← tests.visible c face
    .ok !visible

/-- The body of the loop of `ref_cavity_enlarge_conforming` up to the
enlargement. -/
def segTest (tests : Tests) (seg : Nat) : Except Status Bool :=
  if ¬ c.segs.Live seg then .ok false
  else if c.segNode = c.s2n seg 0 ∨ c.segNode = c.s2n seg 1 then .ok false
  else do
    let conforming ← tests.conforming c seg
    .ok !conforming

/-- A loop of `ref_cavity_manifold`: no cell outside the cavity has the nodes of
a new one. -/
def noDuplicate (s : RefCell) (list : List Nat) : List (Nat → Int) → Except Status Bool
  | [] => .ok true
  | nodes :: rest =>
      match s.cellWith nodes with
      | .ok cell => if cell ∈ list then noDuplicate s list rest else .ok false
      | .error .notFound => noDuplicate s list rest
      | .error e => .error e

/-- The triangles that the segments make with the node. -/
def newTris : List (Nat → Int) :=
  (c.segs.valid.filter fun seg => ¬ (c.segNode = c.s2n seg 0 ∨ c.segNode = c.s2n seg 1)).map
    fun seg node =>
      if node = 3 then c.s2n seg 2 else nodeRow (c.s2n seg 0) (c.s2n seg 1) c.segNode node

/-- The tets that the faces make with the node. -/
def newTets : List (Nat → Int) :=
  (c.faces.valid.filter fun face =>
      ¬ (c.node = c.f2n face 0 ∨ c.node = c.f2n face 1 ∨ c.node = c.f2n face 2)).map
    fun face node => if node = 3 then c.node else c.f2n face node

/-- `ref_cavity_manifold`. -/
def manifold (g : RefGrid D) : Except Status Bool := do
  let tris ← noDuplicate (g.cell .tri) c.triList c.newTris
  if ¬ tris then .ok false else noDuplicate (g.cell .tet) c.tetList c.newTets

/-- The lines after the loops: the cavity is visible when it is manifold. -/
def closeGrowth (g : RefGrid D) (verify : RefCavity → Except Status RefCavity) :
    Except Status RefCavity := do
  let manifold ← c.manifold g
  if ¬ manifold then .ok { c with state := .manifoldConstrained }
  else verify { c with state := .visible }

/-- `ref_cavity_enlarge_visible`. -/
def enlargeVisible (tests : Tests) (g : RefGrid D) (fuel : Nat) :
    Option (Except Status RefCavity) :=
  if ¬ owned g c.node then some (.error .failure)
  else if c.state ≠ .unknown then some (.ok c)
  else
    match c.verifyFaceManifold with
    | .error e => some (.error e)
    | .ok c =>
        match growLoop (fun c => c.faceTest tests) (fun c => c.faces.max)
            (fun c => c.enlargeFace g) fuel 0 false c with
        | none => none
        | some (.error e) => some (.error e)
        | some (.ok (c, false)) => some (.ok c)
        | some (.ok (c, true)) => some (c.closeGrowth g verifyFaceManifold)

/-- `ref_cavity_enlarge_conforming`. -/
def enlargeConforming (tests : Tests) (g : RefGrid D) (fuel : Nat) :
    Option (Except Status RefCavity) :=
  if ¬ owned g c.segNode then some (.error .failure)
  else if c.state ≠ .unknown then some (.ok c)
  else if c.segs.n = 0 ∧ c.faces.n = 0 ∧ c.triList = [] ∧ c.tetList = [] then
    some (.ok { c with state := .noop })
  else
    match c.verifySegManifold with
    | .error e => some (.error e)
    | .ok c =>
        match growLoop (fun c => c.segTest tests) (fun c => c.segs.max)
            (fun c => c.enlargeSeg g) fuel 0 false c with
        | none => none
        | some (.error e) => some (.error e)
        | some (.ok (c, false)) => some (.ok c)
        | some (.ok (c, true)) => some (c.closeGrowth g verifySegManifold)

end RefCavity

end RefineMesh
