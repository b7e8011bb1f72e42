import Mathlib.Tactic
import RefineMesh.Collapse
import RefineMesh.Split

/-!
# Removal of boundary tets

`ref_swap_remove_two_face_cell` and `ref_swap_remove_three_face_cell` take away
a tet with two or three faces on the boundary and put its other faces there
instead; `ref_swap_pass` does the former along the triangles.  The variables
`cell_face0`, `face0`, `faceid0` and their successors are one list of faces,
`REF_EMPTY` the end of that list.
-/

namespace RefineMesh

variable {D : Type}

/-- `cell_face`, `face` and `faceid` of a face of a tet that is a triangle. -/
structure FoundFace where
  cellFace : Nat
  face : Nat
  faceid : Int

/-- The nodes `ref_cell_f2n(ref_cell, node, cell_face, cell)`. -/
def f2nNodes (s : RefCell) (cell cellFace : Nat) : Nat → Int :=
  s.faceNodes cell (s.cellType.f2n.getD cellFace (0, 0, 0, 0))

/-- A face with `cell_nodes[0]` and `cell_nodes[1]` exchanged and an id behind
its nodes. -/
def reversedFace (nodes : Nat → Int) (faceid : Int) : Nat → Int := fun i =>
  if i = 0 then nodes 1 else if i = 1 then nodes 0 else if i = 3 then faceid else nodes i

section Search

variable (limit : Nat) (tet tri : RefCell) (cell : Nat)

/-- The body of the search loops: the last variable of `limit` is not
overwritten. -/
def foundStep (found : List FoundFace) (cellFace : Nat) : Except Status (List FoundFace) :=
  match tri.cellWith (f2nNodes tet cell cellFace) with
  | .ok face => do
      let nodes ← tri.nodes face
      if found.length < limit then
        .ok (found ++ [{ cellFace := cellFace, face := face, faceid := nodes 3 }])
      else .error .invalid
  | .error _ => .ok found

/-- The search for the faces of a tet that are triangles. -/
def foundFaces : Except Status (List FoundFace) :=
  (List.range 4).foldlM (foundStep limit tet tri cell) []

end Search

section Edit

variable (tet : RefCell) (cell : Nat)

/-- The `ref_cell_remove` of the found triangles. -/
def removeFaces (found : List FoundFace) (tri : RefCell) : Except (Status × RefCell) RefCell :=
  found.foldlM (fun tri face => guarded tri (tri.remove face.face)) tri

/-- One `ref_cell_add` of a face seen from the other side. -/
def addReversed (faceid : Int) (tri : RefCell) (cellFace : Nat) :
    Except (Status × RefCell) RefCell := do
  let added ← guarded tri (tri.add (reversedFace (f2nNodes tet cell cellFace) faceid))
  .ok added.1

/-- The triangles in `ref_swap_remove_two_face_cell`. -/
def peelTwoFaces (face0 face1 : FoundFace) (tri : RefCell) : Except (Status × RefCell) RefCell := do
  let tri ← removeFaces [face0, face1] tri
  (List.range 4).foldlM (fun tri cellFace =>
    if cellFace ≠ face0.cellFace ∧ cellFace ≠ face1.cellFace then
      addReversed tet cell face0.faceid tri cellFace
    else .ok tri) tri

/-- The face that is left in `ref_swap_remove_three_face_cell`. -/
def lastFace (face0 face1 face2 : FoundFace) : Nat :=
  0 + 1 + 2 + 3 - face0.cellFace - face1.cellFace - face2.cellFace

/-- The triangles in `ref_swap_remove_three_face_cell`. -/
def peelThreeFaces (face0 face1 face2 : FoundFace) (tri : RefCell) :
    Except (Status × RefCell) RefCell := do
  let tri ← removeFaces [face0, face1, face2] tri
  addReversed tet cell face0.faceid tri (lastFace face0 face1 face2)

end Edit

/-- A part of an operation that works on one store. -/
def onCell (t : CellType) (g : RefGrid D) (x : Except (Status × RefCell) RefCell) :
    Except (Status × RefGrid D) (RefGrid D) :=
  (x.mapError fun failed => (failed.1, g.setCell t failed.2)).map (g.setCell t)

/-- `ref_swap_remove_two_face_cell`; an error comes with the grid as it is
left. -/
def removeTwoFaceCell (g : RefGrid D) (cell : Nat) : Except (Status × RefGrid D) (RefGrid D) := do
  let found ← guarded g (foundFaces 2 (g.cell .tet) (g.cell .tri) cell)
  match found with
  | [face0, face1] =>
      if face0.faceid ≠ face1.faceid then .error (.invalid, g)
      else do
        let g ← onCell .tri g (peelTwoFaces (g.cell .tet) cell face0 face1 (g.cell .tri))
        onCell .tet g (guarded (g.cell .tet) ((g.cell .tet).remove cell))
  | _ => .error (.invalid, g)

/-- `ref_swap_remove_three_face_cell`. -/
def removeThreeFaceCell (g : RefGrid D) (cell : Nat) :
    Except (Status × RefGrid D) (RefGrid D) := do
  let found ← guarded g (foundFaces 3 (g.cell .tet) (g.cell .tri) cell)
  match found with
  | [face0, face1, face2] =>
      if face0.faceid ≠ face1.faceid ∨ face0.faceid ≠ face2.faceid then .error (.invalid, g)
      else do
        let faceNodes := reversedFace
          (f2nNodes (g.cell .tet) cell (lastFace face0 face1 face2)) face0.faceid
        let g ← onCell .tri g (peelThreeFaces (g.cell .tet) cell face0 face1 face2 (g.cell .tri))
        let cellNodes ← guarded g ((g.cell .tet).nodes cell)
        let removeThisNode := cellNodes 0 + cellNodes 1 + cellNodes 2 + cellNodes 3 -
          faceNodes 0 - faceNodes 1 - faceNodes 2
        let g ← onCell .tet g (guarded (g.cell .tet) ((g.cell .tet).remove cell))
        let node ← guarded g (removeNode g.node removeThisNode)
        .ok { g with node := node }
  | _ => .error (.invalid, g)

/-! ## The pass -/

/-- `faceid0`, `faceid1` and `more_than_two` of `ref_swap_pass`. -/
structure PassIds where
  faceid0 : Int
  faceid1 : Int
  moreThanTwo : Bool

/-- The body of the face loop of `ref_swap_pass`. -/
def passIdsStep (tet tri : RefCell) (cell : Nat) (ids : PassIds) (cellFace : Nat) :
    Except Status PassIds :=
  match tri.cellWith (f2nNodes tet cell cellFace) with
  | .ok found => do
      let foundNodes ← tri.nodes found
      if ids.faceid0 = refEmpty then .ok { ids with faceid0 := foundNodes 3 }
      else .ok { ids with
        faceid1 := foundNodes 3
        moreThanTwo := ids.moreThanTwo || ids.faceid1 ≠ refEmpty }
  | .error _ => .ok ids

/-- The body of the loop of `ref_swap_pass`. -/
def swapPassStep (g : RefGrid D) (triIndex : Nat) : Except (Status × RefGrid D) (RefGrid D) :=
  match (g.cell .tri).nodes triIndex with
  | .error _ => .ok g
  | .ok triNodes => do
      let faceNodes := fun i => if i < 3 then triNodes i else triNodes 0
      let (tet0, tet1) ← guarded g ((g.cell .tet).withFace faceNodes)
      if tet0 = refEmpty then .error (.failure, g)
      else if tet1 ≠ refEmpty then .error (.failure, g)
      else if ¬ ∀ i ∈ List.range 4, g.node.Owned ((g.cell .tet).c2n tet0.toNat i).toNat then .ok g
      else do
        let ids ← guarded g ((List.range 4).foldlM
          (passIdsStep (g.cell .tet) (g.cell .tri) tet0.toNat)
          { faceid0 := refEmpty, faceid1 := refEmpty, moreThanTwo := false })
        if ids.faceid0 = refEmpty ∨ ids.faceid1 = refEmpty ∨ ids.faceid0 ≠ ids.faceid1 ∨
            ids.moreThanTwo then .ok g
        else removeTwoFaceCell g tet0.toNat

/-- The loop of `ref_swap_pass` from `triIndex` on, cut off after `fuel`
rounds; its end is read from the store each time. -/
def swapPassLoop : Nat → Nat → RefGrid D → Option (Except (Status × RefGrid D) (RefGrid D))
  | 0, _, _ => none
  | fuel+1, triIndex, g =>
      if triIndex < (g.cell .tri).max then
        match swapPassStep g triIndex with
        | .ok g => swapPassLoop fuel (triIndex + 1) g
        | .error failed => some (.error failed)
      else some (.ok g)

/-- `ref_swap_pass`. -/
def swapPass (fuel : Nat) (g : RefGrid D) : Option (Except (Status × RefGrid D) (RefGrid D)) :=
  swapPassLoop fuel 0 g

end RefineMesh
