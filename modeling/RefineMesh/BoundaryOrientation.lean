import Mathlib.Tactic
import RefineMesh.Grid
import RefineMesh.CellQuery
import RefineMesh.NodeGhostRuns

/-!
# Orientation of the boundary

`ref_grid_inward_boundary_orientation` turns the boundary triangles and
quadrilaterals that read a face of a volume cell backwards.  Both loops search
the cell stores for the face, compare the boundary with the faces of the cell
found, and write a turned row.
-/

namespace RefineMesh

open scoped List

variable {D : Type}

/-- The groups of `each_ref_grid_3d_ref_cell`. -/
def volumeGroups : List CellType := [.tet, .pyr, .pri, .hex, .te2, .py2, .pr2, .he2]

/-- What is different in the loops of `ref_grid_inward_boundary_orientation`:
the boundary type, the face to search for, the faces to pass over, the test for
a face that is read backwards and the turned row. -/
structure BoundaryLoop where
  type : CellType
  faceNodes : (Nat → Int) → Nat → Int
  skips : (Nat → Int) → Bool
  backward : (Nat → Int) → (Nat → Int) → Bool
  flipped : (Nat → Int) → Nat → Int

/-- The loop over the triangles. -/
def triLoop : BoundaryLoop where
  type := .tri
  faceNodes nodes node := if node = 3 then nodes 0 else nodes node
  skips f := f 0 ≠ f 3
  backward nodes f :=
    (nodes 0 = f 1 ∧ nodes 1 = f 0 ∧ nodes 2 = f 2) ∨
    (nodes 1 = f 1 ∧ nodes 2 = f 0 ∧ nodes 0 = f 2) ∨
    (nodes 2 = f 1 ∧ nodes 0 = f 0 ∧ nodes 1 = f 2)
  flipped nodes node :=
    if node = 0 then nodes 2 else if node = 1 then nodes 1 else if node = 2 then nodes 0
    else nodes node

/-- The loop over the quadrilaterals. -/
def quaLoop : BoundaryLoop where
  type := .qua
  faceNodes nodes := nodes
  skips f := f 0 = f 3
  backward nodes f :=
    (nodes 0 = f 3 ∧ nodes 1 = f 2 ∧ nodes 2 = f 1 ∧ nodes 3 = f 0) ∨
    (nodes 0 = f 2 ∧ nodes 1 = f 1 ∧ nodes 2 = f 0 ∧ nodes 3 = f 3) ∨
    (nodes 0 = f 1 ∧ nodes 1 = f 0 ∧ nodes 2 = f 3 ∧ nodes 3 = f 2) ∨
    (nodes 0 = f 0 ∧ nodes 1 = f 3 ∧ nodes 2 = f 2 ∧ nodes 3 = f 1)
  flipped nodes node :=
    if node = 0 then nodes 3 else if node = 1 then nodes 2 else if node = 2 then nodes 1
    else if node = 3 then nodes 0 else nodes node

namespace BoundaryLoop

/-- The loop over the faces of `cell0`. -/
def faceFlip (b : BoundaryLoop) (s : RefCell) (nodes : Nat → Int) (cell0 : Nat) (flip : Bool) :
    Except Status Bool :=
  s.cellType.f2n.foldlM (fun flip face =>
    let f := s.faceNodes cell0 face
    if b.skips f then .ok flip
    else if b.backward nodes f then (if flip then .error .failure else .ok true)
    else .ok flip) flip

/-- One group of cells. -/
def groupFlip (b : BoundaryLoop) (s : RefCell) (nodes : Nat → Int) (flip : Bool) :
    Except Status Bool := do
  let found ← s.withFace (b.faceNodes nodes)
  if found.1 = refEmpty then .ok flip
  else if found.2 ≠ refEmpty then .error .failure
  else b.faceFlip s nodes found.1.toNat flip

/-- The decision about one boundary cell. -/
def decideFlip (b : BoundaryLoop) (g : RefGrid D) (nodes : Nat → Int) : Except Status Bool :=
  volumeGroups.foldlM (fun flip group => b.groupFlip (g.cell group) nodes flip) false

/-- One boundary cell. -/
def orientCell (b : BoundaryLoop) (g : RefGrid D) (cell : Nat) : Except Status (RefGrid D) :=
  if ¬ (g.cell b.type).Live cell then .ok g
  else do
    let nodes := (g.cell b.type).c2n cell
    let flip ← b.decideFlip g nodes
    if flip then do
      let s ← (g.cell b.type).replaceWhole cell (b.flipped nodes)
      .ok (g.setCell b.type s)
    else .ok g

/-- One of the loops. -/
def orient (b : BoundaryLoop) (g : RefGrid D) : Except Status (RefGrid D) :=
  (List.range (g.cell b.type).max).foldlM b.orientCell g

end BoundaryLoop

/-- `ref_grid_inward_boundary_orientation`. -/
def inwardBoundaryOrientation (g : RefGrid D) : Except Status (RefGrid D) := do
  let g ← triLoop.orient g
  quaLoop.orient g

/-! ## Faces -/

/-- A face of a volume cell. -/
def VolumeFace (g : RefGrid D) (t : CellType) (cell : Nat) (face : Nat × Nat × Nat × Nat) : Prop :=
  t ∈ volumeGroups ∧ (g.cell t).Live cell ∧ face ∈ t.f2n

/-- The nodes around a face; the fourth repeats the first on a triangle. -/
def cycleOf (f : Nat → Int) : List Int :=
  if f 0 = f 3 then [f 0, f 1, f 2] else [f 0, f 1, f 2, f 3]

/-- The nodes around a face of a cell. -/
def faceCycle (s : RefCell) (cell : Nat) (face : Nat × Nat × Nat × Nat) : List Int :=
  cycleOf (s.faceNodes cell face)

/-- A face of a volume cell on a set of nodes. -/
def FaceOn (g : RefGrid D) (nodes : List Int) (t : CellType) (cell : Nat)
    (face : Nat × Nat × Nat × Nat) : Prop :=
  VolumeFace g t cell face ∧ ∀ x, x ∈ faceCycle (g.cell t) cell face ↔ x ∈ nodes

/-- The nodes are a face of one volume cell or of none. -/
def OneSided (g : RefGrid D) (nodes : List Int) : Prop :=
  ∀ t cell face t' cell' face', FaceOn g nodes t cell face → FaceOn g nodes t' cell' face' →
    t = t' ∧ cell = cell'

/-- No volume cell repeats a node. -/
def SimpleVolumes (g : RefGrid D) : Prop := ∀ t ∈ volumeGroups, (g.cell t).Simple

/-- The corners of a face as a set. -/
def faceCorners (face : Nat × Nat × Nat × Nat) : Finset Nat :=
  {face.1, face.2.1, face.2.2.1, face.2.2.2}

namespace CellType

theorem f2n_corners (t : CellType) : ∀ face ∈ t.f2n, (∀ k ∈ faceCorners face, k < t.nodePer) ∧
    [face.1, face.2.1, face.2.2.1].Nodup ∧
    (face.2.2.2 = face.1 ∨ [face.1, face.2.1, face.2.2.1, face.2.2.2].Nodup) := by
  cases t <;> decide

theorem f2n_injective (t : CellType) : ∀ face ∈ t.f2n, ∀ face' ∈ t.f2n,
    faceCorners face = faceCorners face' → face = face' := by
  cases t <;> decide

end CellType

theorem mem_cycleOf {f : Nat → Int} {x : Int} : x ∈ cycleOf f ↔ ∃ i, i < 4 ∧ f i = x := by
  unfold cycleOf
  constructor
  · intro hx
    split at hx
    · simp only [List.mem_cons, List.not_mem_nil, or_false] at hx
      rcases hx with rfl | rfl | rfl
      · exact ⟨0, by omega, rfl⟩
      · exact ⟨1, by omega, rfl⟩
      · exact ⟨2, by omega, rfl⟩
    · simp only [List.mem_cons, List.not_mem_nil, or_false] at hx
      rcases hx with rfl | rfl | rfl | rfl
      · exact ⟨0, by omega, rfl⟩
      · exact ⟨1, by omega, rfl⟩
      · exact ⟨2, by omega, rfl⟩
      · exact ⟨3, by omega, rfl⟩
  · intro hx
    obtain ⟨i, hi, rfl⟩ := hx
    interval_cases i <;> split <;> simp_all

theorem mem_faceCycle {s : RefCell} {cell : Nat} {face : Nat × Nat × Nat × Nat} {x : Int} :
    x ∈ faceCycle s cell face ↔ ∃ k ∈ faceCorners face, s.c2n cell k = x := by
  rw [faceCycle, mem_cycleOf]
  constructor
  · intro h
    obtain ⟨i, hi, rfl⟩ := h
    interval_cases i
    · exact ⟨face.1, by simp [faceCorners], rfl⟩
    · exact ⟨face.2.1, by simp [faceCorners], rfl⟩
    · exact ⟨face.2.2.1, by simp [faceCorners], rfl⟩
    · exact ⟨face.2.2.2, by simp [faceCorners], rfl⟩
  · intro h
    obtain ⟨k, hk, rfl⟩ := h
    simp only [faceCorners, Finset.mem_insert, Finset.mem_singleton] at hk
    rcases hk with rfl | rfl | rfl | rfl
    · exact ⟨0, by omega, rfl⟩
    · exact ⟨1, by omega, rfl⟩
    · exact ⟨2, by omega, rfl⟩
    · exact ⟨3, by omega, rfl⟩

/-- Two places of a cell that repeats no node. -/
theorem RefCell.Simple.c2n_inj {s : RefCell} (h : s.Simple) {c : Nat} (hlive : s.Live c)
    {k l : Nat} (hk : k < s.nodePer) (hl : l < s.nodePer) (heq : s.c2n c k = s.c2n c l) : k = l :=
  List.inj_on_of_nodup_map (h c hlive) (List.mem_range.mpr hk) (List.mem_range.mpr hl) heq

section Volume

variable {g : RefGrid D}

/-- A face of a cell that repeats no node has three or four different nodes. -/
theorem nodup_faceCycle (hinv : g.CellsInv) (hsimple : SimpleVolumes g) {t : CellType}
    {cell : Nat} {face : Nat × Nat × Nat × Nat} (h : VolumeFace g t cell face) : (faceCycle (g.cell t) cell face).Nodup := by
  obtain ⟨ht, hlive, hface⟩ := h
  obtain ⟨hbound, hthree, hlast⟩ := t.f2n_corners face hface
  have hper : (g.cell t).nodePer = t.nodePer := by
    rw [RefCell.nodePer, hinv.type]
  have hinj {k l : Nat} (hk : k ∈ faceCorners face) (hl : l ∈ faceCorners face) (hne : k ≠ l) :
      (g.cell t).c2n cell k ≠ (g.cell t).c2n cell l := by
    intro heq
    apply hne
    apply (hsimple t ht).c2n_inj hlive _ _ heq
    · rw [hper]
      exact hbound k hk
    · rw [hper]
      exact hbound l hl
  have h0 : face.1 ∈ faceCorners face := by simp [faceCorners]
  have h1 : face.2.1 ∈ faceCorners face := by simp [faceCorners]
  have h2 : face.2.2.1 ∈ faceCorners face := by simp [faceCorners]
  have h3 : face.2.2.2 ∈ faceCorners face := by simp [faceCorners]
  change (cycleOf ((g.cell t).faceNodes cell face)).Nodup
  simp only [List.nodup_cons, List.mem_cons, List.not_mem_nil, or_false, not_or,
    not_false_iff] at hthree hlast
  unfold cycleOf
  split
  · simp [RefCell.faceNodes, hinj h0 h1 hthree.1.1, hinj h0 h2 hthree.1.2, hinj h1 h2 hthree.2.1]
  · rename_i hopen
    have hne : face.2.2.2 ≠ face.1 := by
      intro heq
      apply hopen
      simp [RefCell.faceNodes, heq]
    have hfour := hlast.resolve_left hne
    simp [RefCell.faceNodes, hinj h0 h1 hfour.1.1, hinj h0 h2 hfour.1.2.1,
      hinj h0 h3 hfour.1.2.2, hinj h1 h2 hfour.2.1.1, hinj h1 h3 hfour.2.1.2,
      hinj h2 h3 hfour.2.2.1]

/-- A face on a set of nodes has one place. -/
theorem OneSided.face_eq {nodes : List Int} (hone : OneSided g nodes) (hinv : g.CellsInv)
    (hsimple : SimpleVolumes g) {t t' : CellType} {cell cell' : Nat}
    {face face' : Nat × Nat × Nat × Nat} (h : FaceOn g nodes t cell face)
    (h' : FaceOn g nodes t' cell' face') : t = t' ∧ cell = cell' ∧ face = face' := by
  obtain ⟨rfl, rfl⟩ := hone t cell face t' cell' face' h h'
  obtain ⟨⟨ht, hlive, hface⟩, hset⟩ := h
  obtain ⟨⟨_, _, hface'⟩, hset'⟩ := h'
  refine ⟨rfl, rfl, t.f2n_injective face hface face' hface' ?_⟩
  have hper : (g.cell t).nodePer = t.nodePer := by
    rw [RefCell.nodePer, hinv.type]
  have hsub {face face' : Nat × Nat × Nat × Nat} (hface : face ∈ t.f2n) (hface' : face' ∈ t.f2n)
      (hle : ∀ x, x ∈ faceCycle (g.cell t) cell face → x ∈ faceCycle (g.cell t) cell face') :
      faceCorners face ⊆ faceCorners face' := by
    intro k hk
    obtain ⟨l, hl, heq⟩ := mem_faceCycle.mp (hle _ (mem_faceCycle.mpr ⟨k, hk, rfl⟩))
    have hkl : l = k := by
      apply (hsimple t ht).c2n_inj hlive _ _ heq
      · rw [hper]
        exact (t.f2n_corners face' hface').1 l hl
      · rw [hper]
        exact (t.f2n_corners face hface).1 k hk
    exact hkl ▸ hl
  exact Finset.Subset.antisymm
    (hsub hface hface' fun x hx => (hset' x).mpr ((hset x).mp hx))
    (hsub hface' hface fun x hx => (hset x).mpr ((hset' x).mp hx))

/-- The search for a face that one cell or none has. -/
theorem facesOn_cases (hinv : g.CellsInv) (hsimple : SimpleVolumes g) {nodes : List Int}
    (hone : OneSided g nodes) {faceNodes : Nat → Int}
    (hnodes : ∀ x, (∃ i, i < 4 ∧ faceNodes i = x) ↔ x ∈ nodes) {t : CellType}
    (ht : t ∈ volumeGroups) :
    ((g.cell t).facesOn faceNodes = [] ∧ ∀ cell face, ¬ FaceOn g nodes t cell face) ∨
      ∃ cell face, (g.cell t).facesOn faceNodes = [cell] ∧ FaceOn g nodes t cell face := by
  set s := g.cell t with hs
  have htype : s.cellType = t := hinv.type t
  let slots := ((s.having (faceNodes 0)).flatMap fun cell =>
    s.cellType.f2n.map fun face => (cell, face)).filter (s.onNodes faceNodes)
  have hslots (slot : Nat × (Nat × Nat × Nat × Nat)) :
      slot ∈ slots ↔ FaceOn g nodes t slot.1 slot.2 := by
    have hset : s.onNodes faceNodes slot = true ↔
        ∀ x, x ∈ faceCycle s slot.1 slot.2 ↔ x ∈ nodes := by
      rw [RefCell.onNodes, decide_eq_true_iff, sameUnique_iff _ _ (by omega) (by omega)]
      apply forall_congr'
      intro x
      rw [hnodes, faceCycle, mem_cycleOf]
      exact iff_comm
    rw [List.mem_filter, hset, List.mem_flatMap]
    constructor
    · intro h
      obtain ⟨⟨cell, hcell, hmap⟩, hsame⟩ := h
      obtain ⟨face, hface, rfl⟩ := List.mem_map.mp hmap
      rw [htype] at hface
      exact ⟨⟨ht, ((hinv.inv t).mem_having.mp hcell).1, hface⟩, hsame⟩
    · intro h
      obtain ⟨⟨-, hlive, hface⟩, hsame⟩ := h
      refine ⟨⟨slot.1, (hinv.inv t).mem_having.mpr ⟨hlive, ?_⟩, ?_⟩, hsame⟩
      · -- the first node of the search is a node of the face
        have hfirst := (hsame (faceNodes 0)).mpr ((hnodes _).mp ⟨0, by omega, rfl⟩)
        obtain ⟨k, hk, heq⟩ := mem_faceCycle.mp hfirst
        rw [← heq]
        apply s.c2n_mem_nodeList
        rw [RefCell.nodePer, htype]
        exact (t.f2n_corners slot.2 hface).1 k hk
      · rw [htype]
        exact List.mem_map.mpr ⟨slot.2, hface, rfl⟩
  have hnodup : slots.Nodup := by
    apply List.Nodup.filter
    have hproduct := ((hinv.inv t).nodup_having (hsimple t ht) (faceNodes 0)).product
      s.cellType.nodup_f2n
    exact hproduct
  have hfaces : s.facesOn faceNodes = slots.map Prod.fst := s.facesOn_eq_filter faceNodes
  cases hlist : slots with
  | nil =>
      refine Or.inl ⟨by rw [hfaces, hlist]; rfl, fun cell face h => ?_⟩
      have hmem := (hslots (cell, face)).mpr h
      rw [hlist] at hmem
      cases hmem
  | cons slot rest =>
      have hslot : FaceOn g nodes t slot.1 slot.2 :=
        (hslots slot).mp (by rw [hlist]; exact List.mem_cons_self)
      have hrest : rest = [] := by
        rw [List.eq_nil_iff_forall_not_mem]
        intro slot' hmem
        have hslot' : FaceOn g nodes t slot'.1 slot'.2 :=
          (hslots slot').mp (by rw [hlist]; exact List.mem_cons_of_mem _ hmem)
        obtain ⟨-, hcell, hface⟩ := hone.face_eq hinv hsimple hslot hslot'
        rw [hlist, List.nodup_cons] at hnodup
        exact hnodup.1 (Prod.ext hcell hface ▸ hmem)
      exact Or.inr ⟨slot.1, slot.2, by rw [hfaces, hlist, hrest]; rfl, hslot⟩

end Volume

/-! ## One boundary cell -/

namespace BoundaryLoop

/-- The corners of a boundary cell. -/
def corners (b : BoundaryLoop) (nodes : Nat → Int) : List Int :=
  (List.range b.type.nodePer).map nodes

/-- What the tests of a loop say about cyclic orders. -/
structure Reads (b : BoundaryLoop) : Prop where
  boundary : b.type ∉ volumeGroups
  id : b.type.sizePer = b.type.nodePer + 1
  search : ∀ nodes x, (∃ i, i < 4 ∧ b.faceNodes nodes i = x) ↔ x ∈ b.corners nodes
  backward : ∀ nodes f, (b.skips f = false ∧ b.backward nodes f = true) ↔
    b.corners nodes ~r (cycleOf f).reverse
  flipped : ∀ nodes, b.corners (b.flipped nodes) = (b.corners nodes).reverse
  keeps : ∀ nodes i, b.type.nodePer ≤ i → b.flipped nodes i = nodes i

theorem isRotated_three {a b c x y z : Int} : [a, b, c] ~r [x, y, z] ↔
    (a = x ∧ b = y ∧ c = z) ∨ (b = x ∧ c = y ∧ a = z) ∨ (c = x ∧ a = y ∧ b = z) := by
  rw [List.isRotated_iff_mod]
  constructor
  · intro h
    obtain ⟨n, hn, hrot⟩ := h
    simp only [List.length_cons, List.length_nil] at hn
    interval_cases n <;> simp at hrot <;> grind
  · intro h
    rcases h with ⟨rfl, rfl, rfl⟩ | ⟨rfl, rfl, rfl⟩ | ⟨rfl, rfl, rfl⟩
    · exact ⟨0, by simp, by simp⟩
    · exact ⟨1, by simp, by simp⟩
    · exact ⟨2, by simp, by simp⟩

theorem isRotated_four {a b c d x y z w : Int} : [a, b, c, d] ~r [x, y, z, w] ↔
    (a = x ∧ b = y ∧ c = z ∧ d = w) ∨ (b = x ∧ c = y ∧ d = z ∧ a = w) ∨
      (c = x ∧ d = y ∧ a = z ∧ b = w) ∨ (d = x ∧ a = y ∧ b = z ∧ c = w) := by
  rw [List.isRotated_iff_mod]
  constructor
  · intro h
    obtain ⟨n, hn, hrot⟩ := h
    simp only [List.length_cons, List.length_nil] at hn
    interval_cases n <;> simp at hrot <;> grind
  · intro h
    rcases h with ⟨rfl, rfl, rfl, rfl⟩ | ⟨rfl, rfl, rfl, rfl⟩ | ⟨rfl, rfl, rfl, rfl⟩ |
      ⟨rfl, rfl, rfl, rfl⟩
    · exact ⟨0, by simp, by simp⟩
    · exact ⟨1, by simp, by simp⟩
    · exact ⟨2, by simp, by simp⟩
    · exact ⟨3, by simp, by simp⟩

theorem corners_triLoop (nodes : Nat → Int) :
    triLoop.corners nodes = [nodes 0, nodes 1, nodes 2] := rfl

theorem corners_quaLoop (nodes : Nat → Int) :
    quaLoop.corners nodes = [nodes 0, nodes 1, nodes 2, nodes 3] := rfl

theorem reads_triLoop : triLoop.Reads where
  boundary := by decide
  id := rfl
  search nodes x := by
    rw [corners_triLoop]
    simp only [List.mem_cons, List.not_mem_nil, or_false]
    constructor
    · intro h
      obtain ⟨i, hi, rfl⟩ := h
      interval_cases i <;> simp [triLoop]
    · intro h
      rcases h with rfl | rfl | rfl
      · exact ⟨0, by omega, rfl⟩
      · exact ⟨1, by omega, rfl⟩
      · exact ⟨2, by omega, rfl⟩
  backward nodes f := by
    rw [corners_triLoop]
    by_cases hf : f 0 = f 3
    · have hcycle : cycleOf f = [f 0, f 1, f 2] := if_pos hf
      rw [hcycle]
      simp only [List.reverse_cons, List.reverse_nil, List.nil_append, List.cons_append]
      rw [isRotated_three]
      simp only [triLoop, hf, ne_eq, not_true, decide_false, true_and, decide_eq_true_eq]
      grind
    · have hcycle : cycleOf f = [f 0, f 1, f 2, f 3] := if_neg hf
      rw [hcycle]
      constructor
      · intro h
        simp [triLoop, hf] at h
      · intro h
        have hlength := h.perm.length_eq
        simp at hlength
  flipped nodes := rfl
  keeps nodes i hi := by
    have hi' : 3 ≤ i := hi
    simp only [triLoop]
    rw [if_neg (by omega), if_neg (by omega), if_neg (by omega)]

theorem reads_quaLoop : quaLoop.Reads where
  boundary := by decide
  id := rfl
  search nodes x := by
    rw [corners_quaLoop]
    simp only [List.mem_cons, List.not_mem_nil, or_false]
    constructor
    · intro h
      obtain ⟨i, hi, rfl⟩ := h
      interval_cases i <;> simp [quaLoop]
    · intro h
      rcases h with rfl | rfl | rfl | rfl
      · exact ⟨0, by omega, rfl⟩
      · exact ⟨1, by omega, rfl⟩
      · exact ⟨2, by omega, rfl⟩
      · exact ⟨3, by omega, rfl⟩
  backward nodes f := by
    rw [corners_quaLoop]
    by_cases hf : f 0 = f 3
    · have hcycle : cycleOf f = [f 0, f 1, f 2] := if_pos hf
      rw [hcycle]
      constructor
      · intro h
        simp [quaLoop, hf] at h
      · intro h
        have hlength := h.perm.length_eq
        simp at hlength
    · have hcycle : cycleOf f = [f 0, f 1, f 2, f 3] := if_neg hf
      rw [hcycle]
      simp only [List.reverse_cons, List.reverse_nil, List.nil_append, List.cons_append]
      rw [isRotated_four]
      simp only [quaLoop, hf, decide_false, true_and, decide_eq_true_eq]
      grind
  flipped nodes := rfl
  keeps nodes i hi := by
    have hi' : 4 ≤ i := hi
    simp only [quaLoop]
    rw [if_neg (by omega), if_neg (by omega), if_neg (by omega), if_neg (by omega)]

/-- A face that the corners of a boundary cell read backwards. -/
def ReadsBackward (b : BoundaryLoop) (g : RefGrid D) (nodes : Nat → Int) (t : CellType)
    (cell : Nat) (face : Nat × Nat × Nat × Nat) : Prop :=
  VolumeFace g t cell face ∧ b.corners nodes ~r (faceCycle (g.cell t) cell face).reverse

theorem ReadsBackward.faceOn {b : BoundaryLoop} {g : RefGrid D} {nodes : Nat → Int}
    {t : CellType} {cell : Nat} {face : Nat × Nat × Nat × Nat}
    (h : b.ReadsBackward g nodes t cell face) : FaceOn g (b.corners nodes) t cell face := by
  refine ⟨h.1, fun x => ?_⟩
  rw [h.2.mem_iff, List.mem_reverse]

variable {b : BoundaryLoop} {g : RefGrid D}

/-- The loop over the faces of a cell. -/
theorem faceFlip_spec (hb : b.Reads) (hinv : g.CellsInv) (hsimple : SimpleVolumes g)
    {nodes : Nat → Int} (hone : OneSided g (b.corners nodes)) {t : CellType} {cell0 : Nat}
    {flip : Bool} (ht : t ∈ volumeGroups) (hlive : (g.cell t).Live cell0)
    (hfree : flip = true → ∀ face, ¬ b.ReadsBackward g nodes t cell0 face) :
    ∃ flip', b.faceFlip (g.cell t) nodes cell0 flip = .ok flip' ∧
      (flip' = true ↔ flip = true ∨ ∃ face, b.ReadsBackward g nodes t cell0 face) := by
  have hback (face : Nat × Nat × Nat × Nat) (hface : face ∈ t.f2n) :
      b.ReadsBackward g nodes t cell0 face ↔
        b.skips ((g.cell t).faceNodes cell0 face) = false ∧
          b.backward nodes ((g.cell t).faceNodes cell0 face) = true := by
    rw [hb.backward]
    exact ⟨fun h => h.2, fun h => ⟨⟨ht, hlive, hface⟩, h⟩⟩
  have hloop := ArrayLoop.foldlM_exists
    (f := fun flip face =>
      let f := (g.cell t).faceNodes cell0 face
      if b.skips f then .ok flip
      else if b.backward nodes f then (if flip then .error Status.failure else .ok true)
      else .ok flip)
    (fun done rest flip' => done ++ rest = t.f2n ∧
      (flip' = true ↔ flip = true ∨ ∃ face ∈ done, b.ReadsBackward g nodes t cell0 face))
    (by
      intro done face rest flip' hP
      obtain ⟨hsplit, hflip'⟩ := hP
      have hface : face ∈ t.f2n := by
        rw [← hsplit]
        simp
      have hsplit' : (done ++ [face]) ++ rest = t.f2n := by
        rw [List.append_assoc]
        exact hsplit
      have hlast : (∃ face' ∈ done ++ [face], b.ReadsBackward g nodes t cell0 face') ↔
          (∃ face' ∈ done, b.ReadsBackward g nodes t cell0 face') ∨
            b.ReadsBackward g nodes t cell0 face := by
        simp [or_and_right, exists_or]
      by_cases hnow : b.ReadsBackward g nodes t cell0 face
      · obtain ⟨hskip, htest⟩ := (hback face hface).mp hnow
        -- another face read backwards would be this one
        have hunset : flip' = false := by
          rw [Bool.eq_false_iff]
          intro hset
          rcases hflip'.mp hset with hset | hset
          · exact hfree hset face hnow
          · obtain ⟨face', hmem, hback'⟩ := hset
            obtain ⟨-, -, rfl⟩ := hone.face_eq hinv hsimple hback'.faceOn hnow.faceOn
            have hnodup := t.nodup_f2n
            rw [← hsplit, List.nodup_append] at hnodup
            exact hnodup.2.2 face' hmem face' List.mem_cons_self rfl
        refine ⟨true, ?_, hsplit', ?_⟩
        · simp only [hskip, htest, hunset, Bool.false_eq_true, if_false, if_true]
        · rw [hlast]
          simp [hnow]
      · refine ⟨flip', ?_, hsplit', ?_⟩
        · rw [hback face hface, not_and, Bool.not_eq_true] at hnow
          by_cases hskip : b.skips ((g.cell t).faceNodes cell0 face) = true
          · simp only [hskip, if_true]
          · rw [Bool.not_eq_true] at hskip
            simp only [hskip, hnow hskip, Bool.false_eq_true, if_false]
        · rw [hlast, hflip', or_iff_left hnow])
    (l := t.f2n) (b := flip) ⟨List.nil_append _, by simp⟩
  obtain ⟨flip', hrun, -, hiff⟩ := hloop
  refine ⟨flip', ?_, hiff.trans (or_congr Iff.rfl ?_)⟩
  · rw [faceFlip, hinv.type t]
    exact hrun
  · constructor
    · intro h
      obtain ⟨face, -, hface⟩ := h
      exact ⟨face, hface⟩
    · intro h
      obtain ⟨face, hface⟩ := h
      exact ⟨face, hface.1.2.2, hface⟩

/-- **`flip` is set at most once**, exactly if a face is read backwards. -/
theorem decideFlip_spec (hb : b.Reads) (hinv : g.CellsInv) (hsimple : SimpleVolumes g)
    {nodes : Nat → Int} (hone : OneSided g (b.corners nodes)) :
    ∃ flip, b.decideFlip g nodes = .ok flip ∧
      (flip = true ↔ ∃ t cell face, b.ReadsBackward g nodes t cell face) := by
  have hloop := ArrayLoop.foldlM_exists
    (f := fun flip group => b.groupFlip (g.cell group) nodes flip)
    (fun done rest flip => done ++ rest = volumeGroups ∧
      (flip = true ↔ ∃ t ∈ done, ∃ cell face, b.ReadsBackward g nodes t cell face))
    (by
      intro done t rest flip hP
      obtain ⟨hsplit, hflip⟩ := hP
      have ht : t ∈ volumeGroups := by
        rw [← hsplit]
        simp
      have hnew : t ∉ done := by
        have hnodup : volumeGroups.Nodup := by decide
        rw [← hsplit, List.nodup_append] at hnodup
        intro hmem
        exact hnodup.2.2 t hmem t List.mem_cons_self rfl
      have hsplit' : (done ++ [t]) ++ rest = volumeGroups := by
        rw [List.append_assoc]
        exact hsplit
      have hlast (P : CellType → Prop) : (∃ t' ∈ done ++ [t], P t') ↔ (∃ t' ∈ done, P t') ∨ P t := by
        simp [or_and_right, exists_or]
      rcases facesOn_cases hinv hsimple hone (hb.search nodes) ht with hnone | hsome
      · obtain ⟨hempty, hno⟩ := hnone
        have hshort : ((g.cell t).facesOn (b.faceNodes nodes)).length ≤ 2 := by
          rw [hempty]
          simp
        obtain ⟨found, hrun, hfound⟩ := RefCell.withFace_exists hshort
        rw [hempty] at hfound
        obtain rfl : found = (refEmpty, refEmpty) := hfound
        refine ⟨flip, ?_, hsplit', ?_⟩
        · rw [groupFlip, hrun]
          rfl
        · rw [hlast, hflip]
          refine ⟨Or.inl, fun h => h.resolve_right fun h => ?_⟩
          obtain ⟨cell, face, hback⟩ := h
          exact hno cell face hback.faceOn
      · obtain ⟨cell0, face0, hfaces, hon⟩ := hsome
        have hshort : ((g.cell t).facesOn (b.faceNodes nodes)).length ≤ 2 := by
          rw [hfaces]
          simp
        obtain ⟨found, hrun, hfound⟩ := RefCell.withFace_exists hshort
        rw [hfaces] at hfound
        obtain rfl : found = ((cell0 : Int), refEmpty) := hfound
        have hfree : flip = true → ∀ face, ¬ b.ReadsBackward g nodes t cell0 face := by
          intro hset face hback
          obtain ⟨t', hmem, cell', face', hback'⟩ := hflip.mp hset
          obtain ⟨rfl, -, -⟩ := hone.face_eq hinv hsimple hback'.faceOn hback.faceOn
          exact hnew hmem
        obtain ⟨flip', hfaces', hiff⟩ := faceFlip_spec hb hinv hsimple hone ht hon.1.2.1 hfree
        refine ⟨flip', ?_, hsplit', ?_⟩
        · rw [groupFlip, hrun]
          simp only [bind, Except.bind]
          rw [if_neg (natCast_ne_refEmpty cell0), if_neg (by simp), Int.toNat_natCast]
          exact hfaces'
        · rw [hlast, hiff, hflip]
          apply or_congr Iff.rfl
          constructor
          · intro h
            obtain ⟨face, hface⟩ := h
            exact ⟨cell0, face, hface⟩
          · intro h
            obtain ⟨cell, face, hface⟩ := h
            obtain ⟨-, rfl, -⟩ := hone.face_eq hinv hsimple hface.faceOn hon
            exact ⟨face, hface⟩)
    (l := volumeGroups) (b := false) ⟨List.nil_append _, by simp⟩
  obtain ⟨flip, hrun, -, hiff⟩ := hloop
  refine ⟨flip, hrun, hiff.trans ?_⟩
  constructor
  · intro h
    obtain ⟨t, -, cell, face, hback⟩ := h
    exact ⟨t, cell, face, hback⟩
  · intro h
    obtain ⟨t, cell, face, hback⟩ := h
    exact ⟨t, hback.1.1, cell, face, hback⟩

/-! ## One loop -/

theorem ReadsBackward.congr {g' : RefGrid D} (hcells : ∀ t ∈ volumeGroups, g'.cell t = g.cell t)
    {nodes : Nat → Int} {t : CellType} {cell : Nat} {face : Nat × Nat × Nat × Nat} :
    b.ReadsBackward g' nodes t cell face ↔ b.ReadsBackward g nodes t cell face := by
  unfold ReadsBackward VolumeFace
  constructor
  · intro h
    rw [hcells t h.1.1] at h
    exact h
  · intro h
    rw [hcells t h.1.1]
    exact h

theorem oneSided_congr {g' : RefGrid D} (hcells : ∀ t ∈ volumeGroups, g'.cell t = g.cell t)
    {nodes : List Int} (h : OneSided g nodes) : OneSided g' nodes := by
  have hface {t : CellType} {cell : Nat} {face : Nat × Nat × Nat × Nat}
      (h : FaceOn g' nodes t cell face) : FaceOn g nodes t cell face := by
    unfold FaceOn VolumeFace at h ⊢
    rw [hcells t h.1.1] at h
    exact h
  intro t cell face t' cell' face' h1 h2
  exact h t cell face t' cell' face' (hface h1) (hface h2)

theorem oneSided_of_set {nodes nodes' : List Int} (h : OneSided g nodes)
    (hset : ∀ x, x ∈ nodes' ↔ x ∈ nodes) : OneSided g nodes' := by
  have hface {t : CellType} {cell : Nat} {face : Nat × Nat × Nat × Nat}
      (h : FaceOn g nodes' t cell face) : FaceOn g nodes t cell face :=
    ⟨h.1, fun x => (h.2 x).trans (hset x)⟩
  intro t cell face t' cell' face' h1 h2
  exact h t cell face t' cell' face' (hface h1) (hface h2)

/-- What one of the loops does to the row of a boundary cell. -/
structure Turned (b : BoundaryLoop) (g : RefGrid D) (row row' : Nat → Int) : Prop where
  /-- A row that reads a face backwards is turned, with its id. -/
  turned : (∃ t cell face, b.ReadsBackward g row t cell face) →
    ∀ i, i < b.type.sizePer → row' i = b.flipped row i
  /-- Every other row stays. -/
  kept : (¬ ∃ t cell face, b.ReadsBackward g row t cell face) → row' = row

theorem nodeList_eq_corners {s : RefCell} (htype : s.cellType = b.type) (c : Nat) :
    s.nodeList c = b.corners (s.c2n c) := by
  rw [RefCell.nodeList, RefCell.nodePer, htype]
  rfl

/-- The part of a loop that is done. -/
structure OrientedUpTo (b : BoundaryLoop) (g : RefGrid D) (s : RefCell) (done : List Nat) :
    Prop where
  inv : s.CellInv
  type : s.cellType = b.type
  live : ∀ c, s.Live c ↔ (g.cell b.type).Live c
  n : s.n = (g.cell b.type).n
  max : s.max = (g.cell b.type).max
  turned : ∀ c ∈ done, (g.cell b.type).Live c → b.Turned g ((g.cell b.type).c2n c) (s.c2n c)
  rest : ∀ c, c ∉ done → s.c2n c = (g.cell b.type).c2n c

theorem setCell_volume (hb : b.Reads) (s : RefCell) :
    ∀ t ∈ volumeGroups, (g.setCell b.type s).cell t = g.cell t := by
  intro t ht
  apply g.setCell_cell_of_ne
  intro heq
  exact hb.boundary (heq ▸ ht)

/-- One round of the loop over the boundary cells. -/
theorem OrientedUpTo.step (hb : b.Reads) (hinv : g.CellsInv) (hsimple : SimpleVolumes g)
    (hone : ∀ c, (g.cell b.type).Live c → OneSided g ((g.cell b.type).nodeList c))
    {s : RefCell} {done : List Nat} {c : Nat} (h : b.OrientedUpTo g s done) (hnew : c ∉ done) :
    ∃ s', b.orientCell (g.setCell b.type s) c = .ok (g.setCell b.type s') ∧
      b.OrientedUpTo g s' (done ++ [c]) := by
  have hvolume := setCell_volume (g := g) hb s
  have hsub (x : Nat) (hx : x ∉ done ++ [c]) : x ∉ done ∧ x ≠ c := by
    simpa using hx
  unfold orientCell
  rw [g.setCell_cell_self]
  by_cases hlive : s.Live c
  swap
  · rw [if_pos hlive]
    refine ⟨s, rfl, h.inv, h.type, h.live, h.n, h.max, ?_, fun x hx => h.rest x (hsub x hx).1⟩
    intro x hx hxlive
    rcases List.mem_append.mp hx with hx | hx
    · exact h.turned x hx hxlive
    · obtain rfl := List.mem_singleton.mp hx
      exact absurd ((h.live x).mpr hxlive) hlive
  rw [if_neg (not_not.mpr hlive)]
  have hrow := h.rest c hnew
  have hlive0 := (h.live c).mp hlive
  have hinv' : (g.setCell b.type s).CellsInv := hinv.setCell h.type h.inv
  have hsimple' : SimpleVolumes (g.setCell b.type s) := by
    intro t ht
    rw [hvolume t ht]
    exact hsimple t ht
  have hone' : OneSided (g.setCell b.type s) (b.corners (s.c2n c)) := by
    rw [hrow, ← nodeList_eq_corners (hinv.type b.type)]
    exact oneSided_congr hvolume (hone c hlive0)
  obtain ⟨flip, hrun, hflip⟩ := decideFlip_spec hb hinv' hsimple' hone'
  simp only [ReadsBackward.congr hvolume] at hflip
  simp only [hrun, bind, Except.bind]
  by_cases hset : flip = true
  · rw [if_pos hset]
    have hreach : ∀ i, i < s.nodePer → 0 ≤ b.flipped (s.c2n c) i ∧
        (b.flipped (s.c2n c) i).toNat < s.adj.nnode := by
      intro i hi
      have hmem : b.flipped (s.c2n c) i ∈ s.nodeList c := by
        rw [nodeList_eq_corners h.type, ← List.mem_reverse, ← hb.flipped]
        rw [RefCell.nodePer, h.type] at hi
        exact List.mem_map.mpr ⟨i, List.mem_range.mpr hi, rfl⟩
      exact h.inv.lt_nnode hlive hmem
    obtain ⟨s', hreplace⟩ := RefCell.replaceWhole_ok h.inv hlive hreach
    obtain ⟨-, hcell, hlv, hnew', hother, htype, hn, hmax⟩ :=
      RefCell.replaceWhole_spec h.inv hreplace
    refine ⟨s', ?_, hcell, htype.trans h.type, fun x => (hlv x).trans (h.live x), hn.trans h.n,
      hmax.trans h.max, ?_, ?_⟩
    · rw [hreplace]
      simp only [RefGrid.setCell, Function.update_idem]
    · intro x hx hxlive
      by_cases hxc : x = c
      · subst hxc
        refine ⟨fun _ i hi => ?_, fun hno => absurd (hflip.mp hset) (hrow ▸ hno)⟩
        rw [hnew' i (by rw [RefCell.sizePer, h.type]; exact hi), hrow]
      · rw [hother x hxc]
        have hx' : x ∈ done := by
          simpa [hxc] using hx
        exact h.turned x hx' hxlive
    · intro x hx
      rw [hother x (hsub x hx).2]
      exact h.rest x (hsub x hx).1
  · rw [if_neg hset]
    refine ⟨s, rfl, h.inv, h.type, h.live, h.n, h.max, ?_, fun x hx => h.rest x (hsub x hx).1⟩
    intro x hx hxlive
    by_cases hxc : x = c
    · subst hxc
      refine ⟨fun hback => absurd (hflip.mpr (hrow ▸ hback)) hset, fun _ => hrow⟩
    · have hx' : x ∈ done := by
        simpa [hxc] using hx
      exact h.turned x hx' hxlive

/-- **One of the loops** succeeds and turns the rows that read a face backwards. -/
theorem orient_spec (hb : b.Reads) (hinv : g.CellsInv) (hsimple : SimpleVolumes g)
    (hone : ∀ c, (g.cell b.type).Live c → OneSided g ((g.cell b.type).nodeList c)) :
    ∃ s, b.orient g = .ok (g.setCell b.type s) ∧
      b.OrientedUpTo g s (List.range (g.cell b.type).max) := by
  have hsame : g.setCell b.type (g.cell b.type) = g := by
    simp only [RefGrid.setCell, Function.update_eq_self]
  have hstart : b.OrientedUpTo g (g.cell b.type) [] := by
    refine ⟨hinv.inv b.type, hinv.type b.type, fun _ => Iff.rfl, rfl, rfl, ?_, fun _ _ => rfl⟩
    intro c hc
    cases hc
  have hloop := ArrayLoop.foldlM_exists (f := b.orientCell)
    (fun done rest g' => done ++ rest = List.range (g.cell b.type).max ∧
      ∃ s, g' = g.setCell b.type s ∧ b.OrientedUpTo g s done)
    (by
      intro done c rest g' hP
      obtain ⟨hsplit, s, rfl, h⟩ := hP
      have hnew : c ∉ done := by
        have hnodup := List.nodup_range (n := (g.cell b.type).max)
        rw [← hsplit, List.nodup_append] at hnodup
        intro hmem
        exact hnodup.2.2 c hmem c List.mem_cons_self rfl
      obtain ⟨s', hrun, h'⟩ := h.step hb hinv hsimple hone hnew
      exact ⟨_, hrun, by simpa using hsplit, s', rfl, h'⟩)
    (l := List.range (g.cell b.type).max) (b := g)
    ⟨List.nil_append _, g.cell b.type, hsame.symm, hstart⟩
  obtain ⟨g', hrun, -, s, rfl, h⟩ := hloop
  exact ⟨s, hrun, h⟩

/-- A loop that finds no face read backwards changes nothing. -/
theorem orient_fixed (hb : b.Reads) (hinv : g.CellsInv) (hsimple : SimpleVolumes g)
    (hone : ∀ c, (g.cell b.type).Live c → OneSided g ((g.cell b.type).nodeList c))
    (hno : ∀ c, (g.cell b.type).Live c → ¬ ∃ t cell face,
      b.ReadsBackward g ((g.cell b.type).c2n c) t cell face) : b.orient g = .ok g := by
  unfold orient
  have hstep : ∀ c ∈ List.range (g.cell b.type).max, b.orientCell g c = .ok g := by
    intro c _
    unfold orientCell
    by_cases hlive : (g.cell b.type).Live c
    · rw [if_neg (not_not.mpr hlive)]
      have hone' := hone c hlive
      rw [nodeList_eq_corners (hinv.type b.type)] at hone'
      obtain ⟨flip, hrun, hflip⟩ := decideFlip_spec hb hinv hsimple hone'
      have hunset : flip = false := by
        rw [Bool.eq_false_iff]
        exact fun hset => hno c hlive (hflip.mp hset)
      simp only [hrun, hunset, bind, Except.bind, Bool.false_eq_true, if_false]
    · rw [if_pos hlive]
  generalize List.range (g.cell b.type).max = cells at hstep
  induction cells with
  | nil => rfl
  | cons c cells ih =>
      rw [List.foldlM_cons, hstep c List.mem_cons_self]
      exact ih fun x hx => hstep x (List.mem_cons_of_mem c hx)

end BoundaryLoop

/-! ## The boundary -/

theorem not_isRotated_reverse {f : Nat → Int} (hnodup : (cycleOf f).Nodup) :
    ¬ cycleOf f ~r (cycleOf f).reverse := by
  unfold cycleOf at hnodup ⊢
  split
  · rename_i hf
    rw [if_pos hf] at hnodup
    simp only [List.nodup_cons, List.mem_cons, List.not_mem_nil, or_false, not_or] at hnodup
    simp only [List.reverse_cons, List.reverse_nil, List.nil_append, List.cons_append]
    rw [BoundaryLoop.isRotated_three]
    grind
  · rename_i hf
    rw [if_neg hf] at hnodup
    simp only [List.nodup_cons, List.mem_cons, List.not_mem_nil, or_false, not_or] at hnodup
    simp only [List.reverse_cons, List.reverse_nil, List.nil_append, List.cons_append]
    rw [BoundaryLoop.isRotated_four]
    grind

/-- The boundary cells of a store `s'` follow the faces of the volume cells;
`s` is the store before. -/
structure BoundaryOriented (g : RefGrid D) (s s' : RefCell) : Prop where
  inv : s'.CellInv
  type : s'.cellType = s.cellType
  live : ∀ c, s'.Live c ↔ s.Live c
  n : s'.n = s.n
  max : s'.max = s.max
  /-- A boundary cell keeps its id. -/
  id : ∀ c, s.Live c → s'.c2n c s.nodePer = s.c2n c s.nodePer
  /-- It keeps its nodes. -/
  set : ∀ c, s.Live c → s'.nodeList c = s.nodeList c ∨ s'.nodeList c = (s.nodeList c).reverse
  /-- One that went around a face in either direction has the order of the face. -/
  aligned : ∀ c, s.Live c → ∀ t cell face, VolumeFace g t cell face →
    (s.nodeList c ~r faceCycle (g.cell t) cell face ∨
      s.nodeList c ~r (faceCycle (g.cell t) cell face).reverse) →
    s'.nodeList c ~r faceCycle (g.cell t) cell face
  /-- One that did not read a face backwards is unchanged. -/
  kept : ∀ c, s.Live c → (∀ t cell face, VolumeFace g t cell face →
    ¬ s.nodeList c ~r (faceCycle (g.cell t) cell face).reverse) → s'.c2n c = s.c2n c
  /-- None reads a face backwards any more. -/
  forward : ∀ c, s.Live c → ∀ t cell face, VolumeFace g t cell face →
    ¬ s'.nodeList c ~r (faceCycle (g.cell t) cell face).reverse

namespace BoundaryLoop

variable {b : BoundaryLoop} {g : RefGrid D}

/-- Two faces that a boundary cell follows and reads backwards would be one. -/
theorem not_backward_of_follows (hinv : g.CellsInv) (hsimple : SimpleVolumes g)
    {nodes : Nat → Int} (hone : OneSided g (b.corners nodes)) {t t' : CellType}
    {cell cell' : Nat} {face face' : Nat × Nat × Nat × Nat} (hface : VolumeFace g t cell face)
    (hfollow : b.corners nodes ~r faceCycle (g.cell t) cell face) :
    ¬ b.ReadsBackward g nodes t' cell' face' := by
  intro hback
  have hon : FaceOn g (b.corners nodes) t cell face :=
    ⟨hface, fun x => hfollow.mem_iff.symm⟩
  obtain ⟨rfl, rfl, rfl⟩ := hone.face_eq hinv hsimple hon hback.faceOn
  exact not_isRotated_reverse (nodup_faceCycle hinv hsimple hface) (hfollow.symm.trans hback.2)

/-- What a finished loop leaves. -/
theorem OrientedUpTo.oriented (hb : b.Reads) (hinv : g.CellsInv) (hsimple : SimpleVolumes g)
    (hone : ∀ c, (g.cell b.type).Live c → OneSided g ((g.cell b.type).nodeList c)) {s : RefCell}
    (h : b.OrientedUpTo g s (List.range (g.cell b.type).max)) :
    BoundaryOriented g (g.cell b.type) s := by
  have hdone (c : Nat) (hc : (g.cell b.type).Live c) :
      b.Turned g ((g.cell b.type).c2n c) (s.c2n c) :=
    h.turned c (List.mem_range.mpr hc.1) hc
  have hlist (c : Nat) : (g.cell b.type).nodeList c = b.corners ((g.cell b.type).c2n c) :=
    nodeList_eq_corners (hinv.type b.type) c
  have hlist' (c : Nat) : s.nodeList c = b.corners (s.c2n c) := nodeList_eq_corners h.type c
  have hper : (g.cell b.type).nodePer = b.type.nodePer := by
    rw [RefCell.nodePer, hinv.type]
  have hone' (c : Nat) (hc : (g.cell b.type).Live c) :
      OneSided g (b.corners ((g.cell b.type).c2n c)) := hlist c ▸ hone c hc
  have hturned (c : Nat) (hc : (g.cell b.type).Live c)
      (hback : ∃ t cell face, b.ReadsBackward g ((g.cell b.type).c2n c) t cell face) :
      s.nodeList c = ((g.cell b.type).nodeList c).reverse := by
    have hrow := (hdone c hc).turned hback
    rw [hlist', hlist, ← hb.flipped]
    apply List.map_congr_left
    intro i hi
    rw [List.mem_range] at hi
    exact hrow i (by rw [hb.id]; omega)
  have haligned (c : Nat) (hc : (g.cell b.type).Live c) (t : CellType) (cell : Nat)
      (face : Nat × Nat × Nat × Nat) (hface : VolumeFace g t cell face)
      (hround : (g.cell b.type).nodeList c ~r faceCycle (g.cell t) cell face ∨
        (g.cell b.type).nodeList c ~r (faceCycle (g.cell t) cell face).reverse) :
      s.nodeList c ~r faceCycle (g.cell t) cell face := by
    rcases hround with hfollow | hback
    · have hno : ¬ ∃ t cell face, b.ReadsBackward g ((g.cell b.type).c2n c) t cell face := by
        intro hback
        obtain ⟨t', cell', face', hback⟩ := hback
        exact not_backward_of_follows hinv hsimple (hone' c hc) hface (hlist c ▸ hfollow) hback
      rw [hlist', (hdone c hc).kept hno, ← hlist]
      exact hfollow
    · rw [hturned c hc ⟨t, cell, face, hface, hlist c ▸ hback⟩]
      have hreverse := hback.reverse
      rwa [List.reverse_reverse] at hreverse
  refine ⟨h.inv, h.type.trans (hinv.type b.type).symm, h.live, h.n, h.max, ?_, ?_, haligned, ?_, ?_⟩
  · intro c hc
    by_cases hback : ∃ t cell face, b.ReadsBackward g ((g.cell b.type).c2n c) t cell face
    · rw [hper, (hdone c hc).turned hback _ (by rw [hb.id]; omega), hb.keeps _ _ le_rfl]
    · rw [(hdone c hc).kept hback]
  · intro c hc
    by_cases hback : ∃ t cell face, b.ReadsBackward g ((g.cell b.type).c2n c) t cell face
    · exact Or.inr (hturned c hc hback)
    · exact Or.inl (by rw [hlist', (hdone c hc).kept hback, ← hlist])
  · intro c hc hno
    apply (hdone c hc).kept
    intro hback
    obtain ⟨t, cell, face, hface, hrotated⟩ := hback
    exact hno t cell face hface (hlist c ▸ hrotated)
  · intro c hc t cell face hface hrotated
    by_cases hback : ∃ t cell face, b.ReadsBackward g ((g.cell b.type).c2n c) t cell face
    · -- the turned row follows a face, and reads no other one
      obtain ⟨t', cell', face', hface', hback'⟩ := hback
      have hfollow := haligned c hc t' cell' face' hface' (Or.inr (hlist c ▸ hback'))
      have hset : OneSided g (b.corners (s.c2n c)) := by
        rw [← hlist']
        apply oneSided_of_set (hone c hc)
        intro x
        rw [hturned c hc ⟨t', cell', face', hface', hback'⟩, List.mem_reverse]
      exact not_backward_of_follows hinv hsimple hset hface' (hlist' c ▸ hfollow)
        ⟨hface, hlist' c ▸ hrotated⟩
    · rw [hlist', (hdone c hc).kept hback] at hrotated
      exact hback ⟨t, cell, face, hface, hrotated⟩

end BoundaryLoop

theorem BoundaryOriented.congr {g g' : RefGrid D} {s s' : RefCell}
    (hcells : ∀ t ∈ volumeGroups, g'.cell t = g.cell t) (h : BoundaryOriented g' s s') :
    BoundaryOriented g s s' := by
  have hface {t : CellType} {cell : Nat} {face : Nat × Nat × Nat × Nat}
      (hface : VolumeFace g t cell face) :
      VolumeFace g' t cell face ∧ faceCycle (g'.cell t) cell face = faceCycle (g.cell t) cell face := by
    unfold VolumeFace
    rw [hcells t hface.1]
    exact ⟨hface, rfl⟩
  refine ⟨h.inv, h.type, h.live, h.n, h.max, h.id, h.set, ?_, ?_, ?_⟩
  · intro c hc t cell face hvolume hround
    obtain ⟨hvolume', hcycle⟩ := hface hvolume
    rw [← hcycle] at hround ⊢
    exact h.aligned c hc t cell face hvolume' hround
  · intro c hc hno
    apply h.kept c hc
    intro t cell face hvolume'
    rw [hcells t hvolume'.1]
    apply hno t cell face
    unfold VolumeFace at hvolume' ⊢
    rw [hcells t hvolume'.1] at hvolume'
    exact hvolume'
  · intro c hc t cell face hvolume
    obtain ⟨hvolume', hcycle⟩ := hface hvolume
    rw [← hcycle]
    exact h.forward c hc t cell face hvolume'

/-- Two triangles on the same three nodes. -/
theorem isRotated_or_reverse {a b c x y z : Int} (hnodup : [x, y, z].Nodup)
    (hset : ∀ w, w ∈ [x, y, z] ↔ w ∈ [a, b, c]) :
    [a, b, c] ~r [x, y, z] ∨ [a, b, c] ~r [x, y, z].reverse := by
  have hx := (hset x).mp (by simp)
  have hy := (hset y).mp (by simp)
  have hz := (hset z).mp (by simp)
  simp only [List.mem_cons, List.not_mem_nil, or_false] at hx hy hz
  simp only [List.nodup_cons, List.mem_cons, List.not_mem_nil, or_false, not_or] at hnodup
  simp only [List.reverse_cons, List.reverse_nil, List.nil_append, List.cons_append]
  rw [BoundaryLoop.isRotated_three, BoundaryLoop.isRotated_three]
  rcases hx with rfl | rfl | rfl <;> rcases hy with rfl | rfl | rfl <;>
    rcases hz with rfl | rfl | rfl <;> simp_all

/-- A triangle on the nodes of a face goes around it in one of the directions. -/
theorem tri_round {g : RefGrid D} (hinv : g.CellsInv) (hsimple : SimpleVolumes g) {c : Nat}
    {t : CellType} {cell : Nat} {face : Nat × Nat × Nat × Nat}
    (hon : FaceOn g ((g.cell .tri).nodeList c) t cell face) :
    (g.cell .tri).nodeList c ~r faceCycle (g.cell t) cell face ∨
      (g.cell .tri).nodeList c ~r (faceCycle (g.cell t) cell face).reverse := by
  have hnodup := nodup_faceCycle hinv hsimple hon.1
  have hset := hon.2
  have hlist := BoundaryLoop.nodeList_eq_corners (b := triLoop) (hinv.type .tri) c
  rw [hlist, BoundaryLoop.corners_triLoop] at hset ⊢
  unfold faceCycle cycleOf at hnodup hset ⊢
  split
  · rename_i hf
    rw [if_pos hf] at hnodup
    simp only [if_pos hf] at hset
    exact isRotated_or_reverse hnodup hset
  · -- four nodes are not among three
    rename_i hf
    rw [if_neg hf] at hnodup
    simp only [if_neg hf] at hset
    have hsub : [(g.cell t).faceNodes cell face 0, (g.cell t).faceNodes cell face 1,
        (g.cell t).faceNodes cell face 2, (g.cell t).faceNodes cell face 3] ⊆
        [(g.cell .tri).c2n c 0, (g.cell .tri).c2n c 1, (g.cell .tri).c2n c 2] :=
      fun x hx => (hset x).mp hx
    have hlength := (List.subperm_of_subset hnodup hsub).length_le
    simp at hlength

/-- **`ref_grid_inward_boundary_orientation`** succeeds on a mesh whose
triangles and quadrilaterals are the face of at most one volume cell.  Every
triangle that is a face, and every quadrilateral that goes around one, then has
the order of the face; a second call changes nothing. -/
theorem inwardBoundaryOrientation_spec {g : RefGrid D} (hinv : g.CellsInv)
    (hsimple : SimpleVolumes g)
    (htri : ∀ c, (g.cell .tri).Live c → OneSided g ((g.cell .tri).nodeList c))
    (hqua : ∀ c, (g.cell .qua).Live c → OneSided g ((g.cell .qua).nodeList c)) :
    ∃ g', inwardBoundaryOrientation g = .ok g' ∧
      BoundaryOriented g (g.cell .tri) (g'.cell .tri) ∧
      BoundaryOriented g (g.cell .qua) (g'.cell .qua) ∧
      (∀ c, (g.cell .tri).Live c → ∀ t cell face,
        FaceOn g ((g.cell .tri).nodeList c) t cell face →
          (g'.cell .tri).nodeList c ~r faceCycle (g.cell t) cell face) ∧
      (∀ t, t ≠ .tri → t ≠ .qua → g'.cell t = g.cell t) ∧ g'.node = g.node ∧ g'.geom = g.geom ∧
      inwardBoundaryOrientation g' = .ok g' := by
  obtain ⟨s1, hrun1, hup1⟩ := BoundaryLoop.orient_spec BoundaryLoop.reads_triLoop hinv hsimple htri
  have hori1 := hup1.oriented BoundaryLoop.reads_triLoop hinv hsimple htri
  set g1 := g.setCell .tri s1 with hg1
  have hvolume1 : ∀ t ∈ volumeGroups, g1.cell t = g.cell t :=
    BoundaryLoop.setCell_volume BoundaryLoop.reads_triLoop s1
  have hqua1 : g1.cell .qua = g.cell .qua := g.setCell_cell_of_ne s1 (by decide)
  have hinv1 : g1.CellsInv := hinv.setCell hup1.type hup1.inv
  have hsimple1 : SimpleVolumes g1 := fun t ht => hvolume1 t ht ▸ hsimple t ht
  have hone1 : ∀ c, (g1.cell .qua).Live c → OneSided g1 ((g1.cell .qua).nodeList c) := by
    intro c hc
    rw [hqua1] at hc ⊢
    exact BoundaryLoop.oneSided_congr hvolume1 (hqua c hc)
  obtain ⟨s2, hrun2, hup2⟩ :=
    BoundaryLoop.orient_spec BoundaryLoop.reads_quaLoop hinv1 hsimple1 hone1
  have hori2 := hup2.oriented BoundaryLoop.reads_quaLoop hinv1 hsimple1 hone1
  set g2 := g1.setCell .qua s2 with hg2
  have hvolume2 : ∀ t ∈ volumeGroups, g2.cell t = g.cell t := by
    intro t ht
    rw [← hvolume1 t ht]
    exact BoundaryLoop.setCell_volume BoundaryLoop.reads_quaLoop s2 t ht
  have htri2 : g2.cell .tri = s1 := by
    rw [hg2, g1.setCell_cell_of_ne s2 (by decide), hg1, g.setCell_cell_self]
  have hqua2 : g2.cell .qua = s2 := g1.setCell_cell_self .qua s2
  have hinv2 : g2.CellsInv := hinv1.setCell hup2.type hup2.inv
  have hsimple2 : SimpleVolumes g2 := fun t ht => hvolume2 t ht ▸ hsimple t ht
  have horiTri : BoundaryOriented g (g.cell .tri) (g2.cell .tri) := htri2 ▸ hori1
  have horiQua : BoundaryOriented g (g.cell .qua) (g2.cell .qua) := by
    rw [hqua2, ← hqua1]
    exact hori2.congr hvolume1
  -- a second call finds the nodes it found before, and no face read backwards
  have hagain {b : BoundaryLoop} (hb : b.Reads)
      (hone : ∀ c, (g.cell b.type).Live c → OneSided g ((g.cell b.type).nodeList c))
      (hori : BoundaryOriented g (g.cell b.type) (g2.cell b.type)) : b.orient g2 = .ok g2 := by
    apply BoundaryLoop.orient_fixed hb hinv2 hsimple2
    · intro c hc
      rw [hori.live] at hc
      apply BoundaryLoop.oneSided_congr hvolume2
      apply BoundaryLoop.oneSided_of_set (hone c hc)
      intro x
      rcases hori.set c hc with h | h <;> rw [h]
      rw [List.mem_reverse]
    · intro c hc hback
      rw [hori.live] at hc
      obtain ⟨t, cell, face, hback⟩ := hback
      rw [BoundaryLoop.ReadsBackward.congr hvolume2] at hback
      apply hori.forward c hc t cell face hback.1
      rw [BoundaryLoop.nodeList_eq_corners (hinv2.type b.type)]
      exact hback.2
  refine ⟨g2, ?_, horiTri, horiQua, ?_, ?_, rfl, rfl, ?_⟩
  · rw [inwardBoundaryOrientation, show triLoop.orient g = .ok g1 from hrun1]
    exact hrun2
  · intro c hc t cell face hon
    exact horiTri.aligned c hc t cell face hon.1 (tri_round hinv hsimple hon)
  · intro t ht hq
    rw [hg2, g1.setCell_cell_of_ne s2 hq, hg1, g.setCell_cell_of_ne s1 ht]
  · rw [inwardBoundaryOrientation, hagain BoundaryLoop.reads_triLoop htri horiTri]
    exact hagain BoundaryLoop.reads_quaLoop hqua horiQua

/-! ## Small meshes -/

/-- In a mesh with one volume cell every boundary is one sided. -/
theorem oneSided_of_single {g : RefGrid D} {u : CellType}
    (h : ∀ t ∈ volumeGroups, (g.cell t).validCells = if t = u then [0] else [])
    (nodes : List Int) : OneSided g nodes := by
  have hplace {t : CellType} {cell : Nat} {face : Nat × Nat × Nat × Nat}
      (hface : VolumeFace g t cell face) : t = u ∧ cell = 0 := by
    have hmem := RefCell.mem_validCells.mpr hface.2.1
    rw [h t hface.1] at hmem
    by_cases ht : t = u
    · rw [if_pos ht, List.mem_singleton] at hmem
      exact ⟨ht, hmem⟩
    · rw [if_neg ht] at hmem
      cases hmem
  intro t cell face t' cell' face' h1 h2
  obtain ⟨rfl, rfl⟩ := hplace h1.1
  obtain ⟨rfl, rfl⟩ := hplace h2.1
  exact ⟨rfl, rfl⟩

/-- The rows of a hex and a quadrilateral. -/
def hexRows (hex qua : List Int) : CellType → List (List Int)
  | .hex => [hex]
  | .qua => [qua]
  | _ => []

/-- A hex with a quadrilateral that crosses over on one of its faces. -/
def crossedGrid : RefGrid Int :=
  RefGrid.ofRows (sharedStore 8 0) noGeom (hexRows [0, 1, 2, 3, 4, 5, 6, 7] [0, 1, 3, 2, 5])

/-- A hex that repeats a node, with a quadrilateral on one of its faces. -/
def foldedGrid : RefGrid Int :=
  RefGrid.ofRows (sharedStore 8 0) noGeom (hexRows [0, 1, 2, 3, 4, 5, 0, 7] [0, 1, 2, 3, 5])

/-- A crossed quadrilateral stays, and a cell with a repeated node is found
twice.  In both meshes the quadrilateral is a face of the one volume cell. -/
theorem inwardBoundaryOrientation_crossed_folded :
    ((∀ nodes, OneSided crossedGrid nodes) ∧
      FaceOn crossedGrid ((crossedGrid.cell .qua).nodeList 0) .hex 0 (0, 1, 2, 3) ∧
      ∃ g', inwardBoundaryOrientation crossedGrid = .ok g' ∧
        ¬ (g'.cell .qua).nodeList 0 ~r faceCycle (crossedGrid.cell .hex) 0 (0, 1, 2, 3)) ∧
    ((∀ nodes, OneSided foldedGrid nodes) ∧
      FaceOn foldedGrid ((foldedGrid.cell .qua).nodeList 0) .hex 0 (0, 1, 2, 3) ∧
      ∀ g', inwardBoundaryOrientation foldedGrid ≠ .ok g') := by
  have hone : ∀ nodes, OneSided crossedGrid nodes :=
    oneSided_of_single (u := .hex) (by decide +kernel)
  have hcycle : faceCycle (crossedGrid.cell .hex) 0 (0, 1, 2, 3) = [0, 1, 2, 3] := by
    decide +kernel
  have hqua : (crossedGrid.cell .qua).nodeList 0 = [0, 1, 3, 2] := by decide +kernel
  have hcycle' : faceCycle (foldedGrid.cell .hex) 0 (0, 1, 2, 3) = [0, 1, 2, 3] := by
    decide +kernel
  have hqua' : (foldedGrid.cell .qua).nodeList 0 = [0, 1, 2, 3] := by decide +kernel
  refine ⟨⟨hone, ⟨⟨by decide, by decide +kernel, by decide⟩, ?_⟩, ?_⟩,
    oneSided_of_single (u := .hex) (by decide +kernel),
    ⟨⟨by decide, by decide +kernel, by decide⟩, ?_⟩, ?_⟩
  · intro x
    rw [hcycle, hqua]
    simp only [List.mem_cons, List.not_mem_nil, or_false]
    omega
  · have hfit : ∀ t, RefCell.RowsFit t (hexRows [0, 1, 2, 3, 4, 5, 6, 7] [0, 1, 3, 2, 5] t) := by
      intro t
      cases t <;> decide
    have hsimple : SimpleVolumes crossedGrid := by
      intro t ht
      apply RefGrid.ofRows_simple (hfit t)
      revert t
      decide
    obtain ⟨g', hrun, -, hori, -⟩ := inwardBoundaryOrientation_spec (RefGrid.ofRows_inv hfit)
      hsimple (fun c _ => hone _) fun c _ => hone _
    refine ⟨g', hrun, ?_⟩
    rcases hori.set 0 (by decide +kernel) with h | h
    · rw [h, hcycle]
      change ¬ (crossedGrid.cell .qua).nodeList 0 ~r _
      rw [hqua]
      decide
    · rw [h, hcycle]
      change ¬ ((crossedGrid.cell .qua).nodeList 0).reverse ~r _
      rw [hqua]
      decide
  · intro x
    rw [hcycle', hqua']
  · intro g' hrun
    have hfails : (inwardBoundaryOrientation foldedGrid).isOk = false := by decide +kernel
    rw [hrun] at hfails
    cases hfails

/-- A prism with a triangle and a quadrilateral that read its faces backwards. -/
def outwardRows : CellType → List (List Int)
  | .pri => [[0, 1, 2, 3, 4, 5]]
  | .tri => [[2, 1, 0, 10]]
  | .qua => [[0, 1, 4, 3, 20]]
  | _ => []

def outwardGrid : RefGrid Int := RefGrid.ofRows (sharedStore 6 0) noGeom outwardRows

/-- The prism with its boundary turned. -/
theorem inwardBoundaryOrientation_prism :
    ∃ g', inwardBoundaryOrientation outwardGrid = .ok g' ∧
      (g'.cell .tri).nodeList 0 ~r faceCycle (outwardGrid.cell .pri) 0 (0, 1, 2, 0) ∧
      (g'.cell .qua).nodeList 0 ~r faceCycle (outwardGrid.cell .pri) 0 (0, 3, 4, 1) := by
  have hfit : ∀ t, RefCell.RowsFit t (outwardRows t) := by
    intro t
    cases t <;> decide
  have hsimple : SimpleVolumes outwardGrid := by
    intro t ht
    apply RefGrid.ofRows_simple (hfit t)
    revert t
    decide
  have hone : ∀ nodes, OneSided outwardGrid nodes :=
    oneSided_of_single (u := .pri) (by decide +kernel)
  have hlive : (outwardGrid.cell .pri).Live 0 := by decide +kernel
  obtain ⟨g', hrun, htri, hqua, -⟩ := inwardBoundaryOrientation_spec (RefGrid.ofRows_inv hfit)
    hsimple (fun c _ => hone _) fun c _ => hone _
  refine ⟨g', hrun, ?_, ?_⟩
  · apply htri.aligned 0 (by decide +kernel) .pri 0 (0, 1, 2, 0)
    · exact ⟨by decide, hlive, by decide⟩
    · exact Or.inr (by decide +kernel)
  · apply hqua.aligned 0 (by decide +kernel) .pri 0 (0, 3, 4, 1)
    · exact ⟨by decide, hlive, by decide⟩
    · exact Or.inr (by decide +kernel)

end RefineMesh
