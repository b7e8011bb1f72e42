import Mathlib.Tactic
import RefineMesh.Face
import RefineMesh.Comprow

/-!
# The check of the cell faces

`ref_validation_cell_face` builds the face store of a grid and counts the hits
of each face: one for each cell behind it and one for each triangle or
quadrilateral on it.  Every face has to be hit twice.
-/

namespace RefineMesh

open ArrayLoop RefFace

variable {D : Type}

namespace RefValidation

/-- The nodes of a triangle; the fourth repeats the first. -/
def triNodes (s : RefCell) (cell : Nat) : Nat → Int :=
  Function.update (s.c2n cell) 3 (s.c2n cell 0)

/-- `ref_face_with` and `hits[face]++`. -/
def hit (s : RefFace) (hits : Nat → Nat) (nodes : Nat → Int) : Except Status (Nat → Nat) := do
  let face ← s.faceWith nodes
  if hits face = refIntMax then .error .undefined
  else .ok (Function.update hits face (hits face + 1))

/-- The loops of `ref_validation_cell_face` that count the hits. -/
def countHits (s : RefFace) (g : RefGrid D) : Except Status (Nat → Nat) := do
  let hits ← (gridFaces false g).foldlM (hit s) fun _ => 0
  let hits ← (g.cell .tri).validCells.foldlM
    (fun hits cell => hit s hits (triNodes (g.cell .tri) cell)) hits
  (g.cell .qua).validCells.foldlM (fun hits cell => hit s hits ((g.cell .qua).c2n cell)) hits

/-- The test of a face; several ranks see the hits of their own nodes only. -/
def report (para : Bool) (node : RefNode D) (s : RefFace) (hits : Nat → Nat) (face : Nat) : Bool :=
  if para then
    2 < hits face ||
      (List.range 4).any (fun i => node.Owned (s.f2n face i).toNat) && hits face < 2
  else hits face ≠ 2

/-- `ref_validation_cell_face`, over memory `mem` that the face store does not
clear.  A face that is reported makes it fail at the end. -/
def cellFace (mem : RefFace) (para : Bool) (g : RefGrid D) : Except Status Unit := do
  let s ← RefFace.create mem false g
  let hits ← countHits s g
  if (List.range s.n).any (report para g.node s hits) then .error .failure else .ok ()

end RefValidation

/-! ## Node sets -/

namespace RefFace

instance (nodes nodes' : Nat → Int) : Decidable (SameNodes nodes nodes') :=
  decidable_of_iff ((∀ i < 4, ∃ j < 4, nodes' j = nodes i) ∧ ∀ j < 4, ∃ i < 4, nodes i = nodes' j)
    ⟨fun h x => ⟨fun hx => by
        obtain ⟨i, hi, rfl⟩ := hx
        exact h.1 i hi, fun hx => by
        obtain ⟨j, hj, rfl⟩ := hx
        exact h.2 j hj⟩,
      fun h => ⟨fun i hi => (h _).mp ⟨i, hi, rfl⟩, fun j hj => (h _).mpr ⟨j, hj, rfl⟩⟩⟩

end RefFace

namespace RefCell

open CellType

variable {s : RefCell} {c : Nat} {face : Nat × Nat × Nat × Nat}

end RefCell

namespace RefValidation

/-! ## Counting the hits -/

/-- How often the nodes of a face are in a list, in any order. -/
def hitCount (l : List (Nat → Int)) (nodes : Nat → Int) : Nat :=
  l.countP fun other => RefFace.SameNodes nodes other

theorem hitCount_append (l l' : List (Nat → Int)) (nodes : Nat → Int) :
    hitCount (l ++ l') nodes = hitCount l nodes + hitCount l' nodes := List.countP_append

section Hits

variable {s : RefFace} {l : List (Nat → Int)}

/-- The hits of the faces after the nodes in `done`. -/
def Counted (s : RefFace) (done : List (Nat → Int)) (hits : Nat → Nat) : Prop :=
  ∀ f, f < s.n → hits f = hitCount done (s.f2n f)

/-- One hit. -/
theorem Counted.hit (h : s.FaceInv) {done : List (Nat → Int)} {hits : Nat → Nat}
    (hcount : Counted s done hits) {nodes : Nat → Int} (h3 : ThreeNodes nodes) {f : Nat}
    (hf : f < s.n) (hsame : RefFace.SameNodes nodes (s.f2n f)) :
    Counted s (done ++ [nodes]) (Function.update hits f (hits f + 1)) := by
  intro f' hf'
  rw [hitCount_append]
  by_cases heq : f' = f
  · rw [heq, Function.update_self, hcount f hf]
    simp [hitCount, hsame.symm]
  · have hnot : ¬ RefFace.SameNodes (s.f2n f') nodes := fun hsame' =>
      heq (h.unique hf hf' (hsame.symm.trans hsame'.symm) (hsame.three h3))
    rw [Function.update_of_ne heq, hcount f' hf']
    simp [hitCount, hnot]

end Hits

/-! ## The answer -/

section Answer

variable {g : RefGrid D}

/-- The 3D cells, triangles and quadrilaterals do not repeat nodes. -/
def SimpleCells (g : RefGrid D) : Prop := ∀ t ∈ types3d ++ [.tri, .qua], (g.cell t).Simple

theorem SimpleCells.volume (h : SimpleCells g) {t : CellType} (ht : t ∈ types3d) :
    (g.cell t).Simple := h t (List.mem_append_left _ ht)

theorem SimpleCells.tri (h : SimpleCells g) : (g.cell .tri).Simple := h .tri (by simp)

theorem SimpleCells.qua (h : SimpleCells g) : (g.cell .qua).Simple := h .qua (by simp)

end Answer

end RefValidation

open RefValidation

end RefineMesh
