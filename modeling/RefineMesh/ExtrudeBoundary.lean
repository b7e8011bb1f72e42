import Mathlib.Tactic
import RefineMesh.ExtrudeRuns

/-!
# The boundary of an extruded grid

A face of a prism or hex between two planes is recognized by the planes of its
nodes and by the 2D nodes below them.  Every boundary triangle and
quadrilateral is such a face of one cell; the quadrilaterals on the symmetry
planes are the only ones that read it backwards.
-/

namespace RefineMesh

open Spmd
open scoped List

variable {D : Type}

/-- The cell between two planes. -/
def extrudedType : CellType → CellType
  | .tri => .pri
  | .qua => .hex
  | t => t

/-- The corners of a face in order. -/
def cornerCycle (face : Nat × Nat × Nat × Nat) : List Nat :=
  if face.1 = face.2.2.2 then [face.1, face.2.1, face.2.2.1]
  else [face.1, face.2.1, face.2.2.1, face.2.2.2]

/-- The corners of the lower cell. -/
def lowerCycle (m : Nat) : List (Nat × Nat) := (List.range m).map fun i => (i, 0)

/-- The corners of the upper cell, read the other way. -/
def upperCycle (m : Nat) : List (Nat × Nat) := ((List.range m).map fun i => (i, 1)).reverse

/-- The corners between the planes on a side. -/
def sideCycle (side : Nat × Nat) : List (Nat × Nat) :=
  [(side.1, 0), (side.1, 1), (side.2, 1), (side.2, 0)]

/-- The faces of a prism and a hex by 2D corner and plane. -/
theorem extruded_faces : ∀ b ∈ [CellType.tri, CellType.qua], ∀ face ∈ (extrudedType b).f2n,
    (cornerCycle face).map (fun i => (i % b.nodePer, i / b.nodePer)) ~r lowerCycle b.nodePer ∨
      (cornerCycle face).map (fun i => (i % b.nodePer, i / b.nodePer)) ~r upperCycle b.nodePer ∨
      ∃ side ∈ b.e2n,
        (cornerCycle face).map (fun i => (i % b.nodePer, i / b.nodePer)) ~r sideCycle side := by
  decide

theorem lower_face : ∀ b ∈ [CellType.tri, CellType.qua], ∃ face ∈ (extrudedType b).f2n,
    (cornerCycle face).map (fun i => (i % b.nodePer, i / b.nodePer)) ~r lowerCycle b.nodePer := by
  decide

theorem upper_face : ∀ b ∈ [CellType.tri, CellType.qua], ∃ face ∈ (extrudedType b).f2n,
    (cornerCycle face).map (fun i => (i % b.nodePer, i / b.nodePer)) ~r upperCycle b.nodePer := by
  decide

theorem side_face : ∀ b ∈ [CellType.tri, CellType.qua], ∀ side ∈ b.e2n,
    ∃ face ∈ (extrudedType b).f2n,
      (cornerCycle face).map (fun i => (i % b.nodePer, i / b.nodePer)) ~r sideCycle side := by
  decide

/-! ## Planes and 2D nodes -/

/-- The planes of some nodes. -/
def planesOf (n : Int) (nodes : List Int) : Finset Int := nodes.toFinset.image (· / n)

/-- The 2D nodes below some nodes. -/
def footprint (n : Int) (nodes : List Int) : Finset Int := nodes.toFinset.image (· % n)

theorem planesOf_congr {n : Int} {l l' : List Int} (h : ∀ x, x ∈ l ↔ x ∈ l') :
    planesOf n l = planesOf n l' := by
  have : l.toFinset = l'.toFinset := by
    ext x
    simp [h]
  rw [planesOf, planesOf, this]

theorem footprint_congr {n : Int} {l l' : List Int} (h : ∀ x, x ∈ l ↔ x ∈ l') :
    footprint n l = footprint n l' := by
  have : l.toFinset = l'.toFinset := by
    ext x
    simp [h]
  rw [footprint, footprint, this]

/-- Where a shifted node is. -/
theorem shifted_place {n x : Int} (h0 : 0 ≤ x) (hn : x < n) (k : Int) :
    (x + k * n) / n = k ∧ (x + k * n) % n = x := by
  constructor
  · rw [Int.add_mul_ediv_right _ _ (by omega), Int.ediv_eq_zero_of_lt h0 hn, zero_add]
  · rw [Int.add_mul_emod_self_right, Int.emod_eq_of_lt h0 hn]

theorem planesOf_shiftRow {n k : Int} {w : List Int} (hw : ∀ x ∈ w, 0 ≤ x ∧ x < n)
    (hne : w ≠ []) : planesOf n (shiftRow (k * n) w) = {k} := by
  ext u
  simp only [planesOf, shiftRow, Finset.mem_image, List.mem_toFinset, List.mem_map,
    Finset.mem_singleton]
  constructor
  · intro h
    obtain ⟨_, ⟨x, hx, rfl⟩, rfl⟩ := h
    exact (shifted_place (hw x hx).1 (hw x hx).2 k).1
  · intro h
    obtain ⟨x, hx⟩ := List.exists_mem_of_ne_nil w hne
    exact ⟨_, ⟨x, hx, rfl⟩, h ▸ (shifted_place (hw x hx).1 (hw x hx).2 k).1⟩

theorem footprint_shiftRow {n k : Int} {w : List Int} (hw : ∀ x ∈ w, 0 ≤ x ∧ x < n) :
    footprint n (shiftRow (k * n) w) = w.toFinset := by
  ext u
  simp only [footprint, shiftRow, Finset.mem_image, List.mem_toFinset, List.mem_map]
  constructor
  · intro h
    obtain ⟨_, ⟨x, hx, rfl⟩, rfl⟩ := h
    rw [(shifted_place (hw x hx).1 (hw x hx).2 k).2]
    exact hx
  · intro h
    exact ⟨_, ⟨u, h, rfl⟩, (shifted_place (hw u h).1 (hw u h).2 k).2⟩

theorem planesOf_append (n : Int) (l l' : List Int) :
    planesOf n (l ++ l') = planesOf n l ∪ planesOf n l' := by
  simp [planesOf, Finset.image_union]

theorem footprint_append (n : Int) (l l' : List Int) :
    footprint n (l ++ l') = footprint n l ∪ footprint n l' := by
  simp [footprint, Finset.image_union]

theorem planesOf_layerRow {n : Int} {w : List Int} (hw : ∀ x ∈ w, 0 ≤ x ∧ x < n) (hne : w ≠ [])
    (k : Nat) : planesOf n (layerRow n w k) = {(k : Int), (k : Int) + 1} := by
  rw [layerRow, planesOf_append, planesOf_shiftRow hw hne, planesOf_shiftRow hw hne]
  rfl

theorem footprint_layerRow {n : Int} {w : List Int} (hw : ∀ x ∈ w, 0 ≤ x ∧ x < n) (k : Nat) :
    footprint n (layerRow n w k) = w.toFinset := by
  rw [layerRow, footprint_append, footprint_shiftRow hw, footprint_shiftRow hw, Finset.union_self]

/-- Two planes next to each other are known by the lower one. -/
theorem planes_inj {j k : Int} (h : ({j, j + 1} : Finset Int) = {k, k + 1}) : j = k := by
  have h1 : j ∈ ({k, k + 1} : Finset Int) := by
    rw [← h]
    simp
  have h2 : k ∈ ({j, j + 1} : Finset Int) := by
    rw [h]
    simp
  simp only [Finset.mem_insert, Finset.mem_singleton] at h1 h2
  omega

theorem planes_ne (j k : Int) : ({j, j + 1} : Finset Int) ≠ {k} := by
  intro h
  have h1 : j ∈ ({k} : Finset Int) := by
    rw [← h]
    simp
  have h2 : j + 1 ∈ ({k} : Finset Int) := by
    rw [← h]
    simp
  rw [Finset.mem_singleton] at h1 h2
  omega

/-! ## The cells of the extruded grid -/

/-- A 2D grid without gaps in its nodes. -/
structure TwodGrid (g : RefGrid D) : Prop where
  inv : g.CellsInv
  /-- The nodes are in the first slots. -/
  corners : ∀ b ∈ [CellType.tri, CellType.qua], ∀ c, (g.cell b).Live c →
    ∀ x ∈ (g.cell b).nodeList c, 0 ≤ x ∧ x < g.node.n
  simple : ∀ b ∈ [CellType.tri, CellType.qua], (g.cell b).Simple
  distinct : ∀ b ∈ [CellType.tri, CellType.qua], (g.cell b).DistinctSets

section Cells

variable {twod g : RefGrid D} {nPlanes : Nat} {faceid1 faceid2 : Int}

theorem nodeList_tri {s : RefCell} (h : s.cellType = .tri) (c : Nat) :
    s.nodeList c = [s.c2n c 0, s.c2n c 1, s.c2n c 2] := by
  rw [RefCell.nodeList, RefCell.nodePer, h]
  rfl

theorem nodeList_qua {s : RefCell} (h : s.cellType = .qua) (c : Nat) :
    s.nodeList c = [s.c2n c 0, s.c2n c 1, s.c2n c 2, s.c2n c 3] := by
  rw [RefCell.nodeList, RefCell.nodePer, h]
  rfl

theorem flatMap_no_rows {α β : Type} (l : List α) : (l.flatMap fun _ => ([] : List β)) = [] :=
  List.flatMap_eq_nil_iff.mpr fun _ _ => rfl

/-- The prisms and hexes. -/
theorem Extruded.volume (h : Extruded twod nPlanes faceid1 faceid2 g) (hinv : twod.CellsInv)
    {b : CellType} (hb : b ∈ [CellType.tri, CellType.qua]) :
    (g.cell (extrudedType b)).cells = ((twod.cell b).validCells.flatMap fun c =>
      (List.range (nPlanes - 1)).map (layerRow twod.node.n ((twod.cell b).nodeList c)) :
        Multiset (List Int)) := by
  rw [h.cells]
  congr 1
  simp only [List.mem_cons, List.not_mem_nil, or_false] at hb
  rcases hb with rfl | rfl
  · simp [extrudedType, rowsOf_flatMap, rowsOf_map, rowsOf_cons, edgItems, triItems, quaItems,
      flatMap_no_rows, nodeList_tri (hinv.type .tri)]
  · simp [extrudedType, rowsOf_flatMap, rowsOf_map, rowsOf_cons, edgItems, triItems, quaItems,
      flatMap_no_rows, nodeList_qua (hinv.type .qua)]

/-- The other volume groups are empty. -/
theorem Extruded.no_other (h : Extruded twod nPlanes faceid1 faceid2 g) {t : CellType}
    (ht : t ∈ volumeGroups) (hpri : t ≠ .pri) (hhex : t ≠ .hex) : (g.cell t).cells = 0 := by
  rw [h.cells]
  have hqua : CellType.qua ≠ t := by
    rintro rfl
    revert ht
    decide
  have htri : CellType.tri ≠ t := by
    rintro rfl
    revert ht
    decide
  simp [rowsOf_flatMap, rowsOf_map, rowsOf_cons, edgItems, triItems, quaItems, hqua, htri,
    flatMap_no_rows, hpri.symm, hhex.symm]

/-- The boundary triangles. -/
theorem Extruded.tri (h : Extruded twod nPlanes faceid1 faceid2 g) :
    (g.cell .tri).cells = ((twod.cell .tri).validCells.flatMap fun c =>
      let nodes := (twod.cell .tri).c2n c
      [[nodes 0, nodes 1, nodes 2, faceid1],
        shiftRow ((nPlanes - 1) * twod.node.n) [nodes 0, nodes 2, nodes 1] ++ [faceid2]] :
        Multiset (List Int)) := by
  rw [h.cells]
  congr 1
  simp [rowsOf_flatMap, rowsOf_map, rowsOf_cons, edgItems, triItems, quaItems,
    flatMap_no_rows]

/-- The boundary quadrilaterals. -/
theorem Extruded.qua (h : Extruded twod nPlanes faceid1 faceid2 g) :
    (g.cell .qua).cells = (((twod.cell .edg).validCells.flatMap fun c =>
      (List.range (nPlanes - 1)).map (sideRow twod.node.n (edgSide twod c))) ++
      (twod.cell .qua).validCells.flatMap fun c =>
        let nodes := (twod.cell .qua).c2n c
        [[nodes 3, nodes 2, nodes 1, nodes 0, faceid1],
          shiftRow ((nPlanes - 1) * twod.node.n) [nodes 0, nodes 1, nodes 2, nodes 3] ++
            [faceid2]] : Multiset (List Int)) := by
  rw [h.cells]
  congr 1
  simp [rowsOf_flatMap, rowsOf_map, rowsOf_cons, edgItems, triItems, quaItems,
    flatMap_no_rows]

variable {b : CellType}

theorem extrudedType_per (hb : b ∈ [CellType.tri, CellType.qua]) :
    (extrudedType b).nodePer = b.nodePer + b.nodePer ∧
      (extrudedType b).sizePer = (extrudedType b).nodePer ∧ extrudedType b ∈ volumeGroups := by
  revert b
  decide

theorem extrudedType_cases {t : CellType} (ht : t ∈ volumeGroups)
    (hcells : t = .pri ∨ t = .hex) : ∃ b ∈ [CellType.tri, CellType.qua], t = extrudedType b := by
  rcases hcells with rfl | rfl
  · exact ⟨.tri, by decide, rfl⟩
  · exact ⟨.qua, by decide, rfl⟩

theorem length_layerRow (n : Int) (w : List Int) (k : Nat) :
    (layerRow n w k).length = w.length + w.length := by
  simp [layerRow, shiftRow]

/-- A cell between the planes. -/
theorem Extruded.row_of_live (h : Extruded twod nPlanes faceid1 faceid2 g) (htwod : TwodGrid twod)
    (hb : b ∈ [CellType.tri, CellType.qua]) {c : Nat}
    (hlive : (g.cell (extrudedType b)).Live c) :
    ∃ d k, (twod.cell b).Live d ∧ k < nPlanes - 1 ∧
      (g.cell (extrudedType b)).nodeList c =
        layerRow twod.node.n ((twod.cell b).nodeList d) k := by
  obtain ⟨-, hsize, -⟩ := extrudedType_per hb
  have hmem := RefCell.mem_cells.mpr ⟨c, hlive, rfl⟩
  rw [h.volume htwod.inv hb, Multiset.mem_coe, List.mem_flatMap] at hmem
  obtain ⟨d, hd, hmem⟩ := hmem
  obtain ⟨k, hk, hrow⟩ := List.mem_map.mp hmem
  refine ⟨d, k, RefCell.mem_validCells.mp hd, List.mem_range.mp hk, ?_⟩
  rw [hrow, RefCell.nodeList, RefCell.cellRow, RefCell.nodePer, RefCell.sizePer, h.inv.type, hsize]

theorem Extruded.exists_live (h : Extruded twod nPlanes faceid1 faceid2 g) (htwod : TwodGrid twod)
    (hb : b ∈ [CellType.tri, CellType.qua]) {d k : Nat} (hd : (twod.cell b).Live d)
    (hk : k < nPlanes - 1) :
    ∃ c, (g.cell (extrudedType b)).Live c ∧ (g.cell (extrudedType b)).nodeList c =
      layerRow twod.node.n ((twod.cell b).nodeList d) k := by
  obtain ⟨-, hsize, -⟩ := extrudedType_per hb
  have hmem : layerRow twod.node.n ((twod.cell b).nodeList d) k ∈
      (g.cell (extrudedType b)).cells := by
    rw [h.volume htwod.inv hb, Multiset.mem_coe, List.mem_flatMap]
    exact ⟨d, RefCell.mem_validCells.mpr hd, List.mem_map.mpr ⟨k, List.mem_range.mpr hk, rfl⟩⟩
  obtain ⟨c, hlive, hrow⟩ := RefCell.mem_cells.mp hmem
  refine ⟨c, hlive, ?_⟩
  rw [← hrow, RefCell.nodeList, RefCell.cellRow, RefCell.nodePer, RefCell.sizePer, h.inv.type, hsize]

theorem RefCell.nodeList_ne_nil (s : RefCell) (d : Nat) : s.nodeList d ≠ [] := by
  have hpos := s.nodePer_pos
  intro hnil
  have hlength := s.length_nodeList d
  rw [hnil] at hlength
  simp at hlength
  omega

/-- The plane and the cell below can be read off. -/
theorem TwodGrid.layerRow_inj (htwod : TwodGrid twod) (hb : b ∈ [CellType.tri, CellType.qua])
    {d d' k k' : Nat} (hd : (twod.cell b).Live d)
    (hd' : (twod.cell b).Live d')
    (hset : ∀ x, x ∈ layerRow twod.node.n ((twod.cell b).nodeList d) k ↔
      x ∈ layerRow twod.node.n ((twod.cell b).nodeList d') k') : d = d' ∧ k = k' := by
  have hplanes := planesOf_congr (n := twod.node.n) hset
  have hfoot := footprint_congr (n := twod.node.n) hset
  have hw := htwod.corners b hb d hd
  have hw' := htwod.corners b hb d' hd'
  rw [planesOf_layerRow hw (RefCell.nodeList_ne_nil _ d),
    planesOf_layerRow hw' (RefCell.nodeList_ne_nil _ d')] at hplanes
  rw [footprint_layerRow hw, footprint_layerRow hw'] at hfoot
  constructor
  · apply htwod.distinct b hb d d' hd hd'
    intro x
    rw [← List.mem_toFinset, hfoot, List.mem_toFinset]
  · exact Nat.cast_inj.mp (planes_inj hplanes)

theorem TwodGrid.nodup_layerRow (htwod : TwodGrid twod)
    (hb : b ∈ [CellType.tri, CellType.qua]) {d : Nat} (hd : (twod.cell b).Live d) (k : Nat) :
    (layerRow twod.node.n ((twod.cell b).nodeList d) k).Nodup := by
  have hw := htwod.corners b hb d hd
  have hnodup := htwod.simple b hb d hd
  rw [layerRow, List.nodup_append]
  refine ⟨hnodup.map fun x y hxy => by simpa using hxy,
    hnodup.map fun x y hxy => by simpa using hxy, ?_⟩
  intro u hu v hv heq
  obtain ⟨x, hx, rfl⟩ := List.mem_map.mp hu
  obtain ⟨y, hy, rfl⟩ := List.mem_map.mp hv
  have h1 := (shifted_place (hw x hx).1 (hw x hx).2 k).1
  have h2 := (shifted_place (hw y hy).1 (hw y hy).2 (k + 1)).1
  rw [heq, h2] at h1
  omega

/-- No two cells between the planes have the same nodes. -/
theorem Extruded.distinct (h : Extruded twod nPlanes faceid1 faceid2 g) (htwod : TwodGrid twod)
    (hb : b ∈ [CellType.tri, CellType.qua]) : (g.cell (extrudedType b)).DistinctSets := by
  obtain ⟨hper, hsize, -⟩ := extrudedType_per hb
  apply RefCell.distinctSets_of_nodup
  have hlength (d k : Nat) : (layerRow twod.node.n ((twod.cell b).nodeList d) k).take
      (g.cell (extrudedType b)).nodePer = layerRow twod.node.n ((twod.cell b).nodeList d) k := by
    apply List.take_of_length_le
    rw [length_layerRow, RefCell.length_nodeList, RefCell.nodePer, RefCell.nodePer, h.inv.type,
      htwod.inv.type, hper]
  rw [h.volume htwod.inv hb, Multiset.map_coe, Multiset.coe_nodup]
  have hproduct : ((twod.cell b).validCells.flatMap fun c =>
      (List.range (nPlanes - 1)).map (layerRow twod.node.n ((twod.cell b).nodeList c))) =
        ((twod.cell b).validCells.product (List.range (nPlanes - 1))).map fun x =>
          layerRow twod.node.n ((twod.cell b).nodeList x.1) x.2 := by
    rw [List.product, List.map_flatMap]
    simp [Function.comp_def]
  rw [hproduct, List.map_map]
  apply List.Nodup.map_on _ ((twod.cell b).nodup_validCells.product List.nodup_range)
  intro x hx y hy heq
  rw [List.mem_product] at hx hy
  simp only [Function.comp_apply, hlength] at heq
  have hset : ∀ u, u ∈ layerRow twod.node.n ((twod.cell b).nodeList x.1) x.2 ↔
      u ∈ layerRow twod.node.n ((twod.cell b).nodeList y.1) y.2 := by
    intro u
    rw [← List.mem_toFinset, heq, List.mem_toFinset]
  obtain ⟨h1, h2⟩ := htwod.layerRow_inj hb (RefCell.mem_validCells.mp hx.1)
    (RefCell.mem_validCells.mp hy.1) hset
  exact Prod.ext h1 h2

theorem Extruded.simple_volume (h : Extruded twod nPlanes faceid1 faceid2 g)
    (htwod : TwodGrid twod) (hb : b ∈ [CellType.tri, CellType.qua]) :
    (g.cell (extrudedType b)).Simple := by
  intro c hc
  obtain ⟨d, k, hd, -, hrow⟩ := h.row_of_live htwod hb hc
  rw [hrow]
  exact htwod.nodup_layerRow hb hd k

/-- The nodes on a side between two planes. -/
def sideNodes (n x y k : Int) : List Int :=
  [x + k * n, x + (k + 1) * n, y + (k + 1) * n, y + k * n]

/-- The node at a corner of a cell between two planes. -/
def cornerNode (n : Int) (nodes : Nat → Int) (k : Nat) (corner : Nat × Nat) : Int :=
  nodes corner.1 + (k + corner.2) * n

theorem lowerCycle_map (n : Int) (nodes : Nat → Int) (m k : Nat) :
    (lowerCycle m).map (cornerNode n nodes k) = shiftRow (k * n) ((List.range m).map nodes) := by
  simp [lowerCycle, shiftRow, cornerNode, Function.comp_def]

theorem upperCycle_map (n : Int) (nodes : Nat → Int) (m k : Nat) :
    (upperCycle m).map (cornerNode n nodes k) =
      (shiftRow ((k + 1) * n) ((List.range m).map nodes)).reverse := by
  simp [upperCycle, shiftRow, cornerNode, Function.comp_def]

theorem sideCycle_map (n : Int) (nodes : Nat → Int) (side : Nat × Nat) (k : Nat) :
    (sideCycle side).map (cornerNode n nodes k) =
      sideNodes n (nodes side.1) (nodes side.2) k := by
  simp [sideCycle, sideNodes, cornerNode]

/-- The nodes of a cell between two planes by corner and plane. -/
theorem layerRow_eq_map (n : Int) (nodes : Nat → Int) {m : Nat} (hm : 0 < m) (k : Nat) :
    layerRow n ((List.range m).map nodes) k =
      (List.range (m + m)).map fun i => cornerNode n nodes k (i % m, i / m) := by
  rw [List.range_add, List.map_append, layerRow, shiftRow, shiftRow, List.map_map, List.map_map,
    List.map_map]
  congr 1
  · apply List.map_congr_left
    intro i hi
    rw [List.mem_range] at hi
    simp [cornerNode, Nat.mod_eq_of_lt hi, Nat.div_eq_of_lt hi]
  · apply List.map_congr_left
    intro i hi
    rw [List.mem_range] at hi
    have hdiv : (m + i) / m = 1 := by
      rw [Nat.add_div_left _ hm, Nat.div_eq_of_lt hi]
    have hmod : (m + i) % m = i := by
      rw [Nat.add_mod_left, Nat.mod_eq_of_lt hi]
    simp only [cornerNode, Function.comp_apply, hmod, hdiv, Nat.cast_one]

/-- The nodes around a face of a cell that repeats no node. -/
theorem faceCycle_eq_map {s : RefCell} (hsimple : s.Simple) {c : Nat} (hlive : s.Live c)
    {face : Nat × Nat × Nat × Nat} (hface : face ∈ s.cellType.f2n) :
    faceCycle s c face = (cornerCycle face).map (s.c2n c) := by
  obtain ⟨hbound, -, -⟩ := s.cellType.f2n_corners face hface
  have hfirst : (s.faceNodes c face 0 = s.faceNodes c face 3) ↔ face.1 = face.2.2.2 := by
    constructor
    · intro heq
      exact hsimple.c2n_inj hlive (hbound _ (by simp [faceCorners]))
        (hbound _ (by simp [faceCorners])) heq
    · intro heq
      simp [RefCell.faceNodes, heq]
  unfold faceCycle cycleOf cornerCycle
  by_cases hclosed : face.1 = face.2.2.2
  · rw [if_pos (hfirst.mpr hclosed), if_pos hclosed]
    rfl
  · rw [if_neg (mt hfirst.mp hclosed), if_neg hclosed]
    rfl

/-- A face of a cell between two planes by corner and plane. -/
theorem Extruded.faceCycle_eq (h : Extruded twod nPlanes faceid1 faceid2 g)
    (htwod : TwodGrid twod) (hb : b ∈ [CellType.tri, CellType.qua]) {c d k : Nat}
    (hlive : (g.cell (extrudedType b)).Live c)
    (hrow : (g.cell (extrudedType b)).nodeList c =
      layerRow twod.node.n ((twod.cell b).nodeList d) k)
    {face : Nat × Nat × Nat × Nat} (hface : face ∈ (extrudedType b).f2n) :
    faceCycle (g.cell (extrudedType b)) c face =
      ((cornerCycle face).map fun i => (i % b.nodePer, i / b.nodePer)).map
        (cornerNode twod.node.n ((twod.cell b).c2n d) k) := by
  obtain ⟨hper, -, -⟩ := extrudedType_per hb
  have hface' : face ∈ (g.cell (extrudedType b)).cellType.f2n := by
    rw [h.inv.type]
    exact hface
  rw [faceCycle_eq_map (h.simple_volume htwod hb) hlive hface', List.map_map]
  apply List.map_congr_left
  intro i hi
  have hbound : i < b.nodePer + b.nodePer := by
    rw [← hper]
    apply ((extrudedType b).f2n_corners face hface).1
    unfold cornerCycle at hi
    simp only [faceCorners, Finset.mem_insert, Finset.mem_singleton]
    split at hi
    · simp at hi
      tauto
    · simpa using hi
  have hpos := b.two_le_nodePer
  rw [RefCell.nodeList, RefCell.nodeList, RefCell.nodePer, RefCell.nodePer, h.inv.type,
    htwod.inv.type, hper, layerRow_eq_map _ _ (by omega)] at hrow
  exact List.map_inj_left.mp hrow i (List.mem_range.mpr hbound)

/-! ## Faces on given nodes -/

/-- The faces of the cells between the planes. -/
theorem Extruded.face_cases (h : Extruded twod nPlanes faceid1 faceid2 g) (htwod : TwodGrid twod)
    {nodes : List Int} {t : CellType} {cell : Nat} {face : Nat × Nat × Nat × Nat}
    (hface : FaceOn g nodes t cell face) :
    ∃ b ∈ [CellType.tri, CellType.qua], ∃ d k, t = extrudedType b ∧ (twod.cell b).Live d ∧
      k < nPlanes - 1 ∧
      (g.cell t).nodeList cell = layerRow twod.node.n ((twod.cell b).nodeList d) k ∧
      (faceCycle (g.cell t) cell face ~r
          shiftRow (k * twod.node.n) ((twod.cell b).nodeList d) ∨
        faceCycle (g.cell t) cell face ~r
          (shiftRow ((k + 1) * twod.node.n) ((twod.cell b).nodeList d)).reverse ∨
        ∃ side ∈ b.e2n, faceCycle (g.cell t) cell face ~r
          sideNodes twod.node.n ((twod.cell b).c2n d side.1) ((twod.cell b).c2n d side.2) k) := by
  obtain ⟨⟨ht, hlive, hmem⟩, -⟩ := hface
  have htype : t = .pri ∨ t = .hex := by
    by_contra hother
    rw [not_or] at hother
    have hrow := RefCell.mem_cells.mpr ⟨cell, hlive, rfl⟩
    rw [h.no_other ht hother.1 hother.2] at hrow
    simp at hrow
  obtain ⟨b, hb, rfl⟩ := extrudedType_cases ht htype
  obtain ⟨d, k, hd, hk, hrow⟩ := h.row_of_live htwod hb hlive
  refine ⟨b, hb, d, k, rfl, hd, hk, hrow, ?_⟩
  have hlist : (twod.cell b).nodeList d = (List.range b.nodePer).map ((twod.cell b).c2n d) := by
    rw [RefCell.nodeList, RefCell.nodePer, htwod.inv.type]
  rw [h.faceCycle_eq htwod hb hlive hrow hmem, hlist, ← lowerCycle_map, ← upperCycle_map]
  rcases extruded_faces b hb face hmem with hlow | hhigh | ⟨side, hside, hbetween⟩
  · exact .inl (hlow.map _)
  · exact .inr (.inl (hhigh.map _))
  · refine .inr (.inr ⟨side, hside, ?_⟩)
    rw [← sideCycle_map]
    exact hbetween.map _

/-- The face of a cell between the planes with the given corners. -/
theorem Extruded.exists_face (h : Extruded twod nPlanes faceid1 faceid2 g) (htwod : TwodGrid twod)
    (hb : b ∈ [CellType.tri, CellType.qua]) {d k : Nat} (hd : (twod.cell b).Live d)
    (hk : k < nPlanes - 1) {cycle : List (Nat × Nat)}
    (hcycle : ∃ face ∈ (extrudedType b).f2n,
      (cornerCycle face).map (fun i => (i % b.nodePer, i / b.nodePer)) ~r cycle)
    {nodes : List Int} (hnodes : ∀ x, x ∈ nodes ↔
      x ∈ cycle.map (cornerNode twod.node.n ((twod.cell b).c2n d) k)) :
    ∃ cell face, FaceOn g nodes (extrudedType b) cell face ∧
      faceCycle (g.cell (extrudedType b)) cell face ~r
        cycle.map (cornerNode twod.node.n ((twod.cell b).c2n d) k) := by
  obtain ⟨-, -, ht⟩ := extrudedType_per hb
  obtain ⟨cell, hlive, hrow⟩ := h.exists_live htwod hb hd hk
  obtain ⟨face, hface, hrotated⟩ := hcycle
  have hround : faceCycle (g.cell (extrudedType b)) cell face ~r
      cycle.map (cornerNode twod.node.n ((twod.cell b).c2n d) k) := by
    rw [h.faceCycle_eq htwod hb hlive hrow hface]
    exact hrotated.map _
  refine ⟨cell, face, ⟨⟨ht, hlive, hface⟩, fun x => ?_⟩, hround⟩
  rw [hnodes, hround.mem_iff]

/-- Cells between the same planes over one cell are one cell. -/
theorem Extruded.cell_eq (h : Extruded twod nPlanes faceid1 faceid2 g) (htwod : TwodGrid twod)
    (hb : b ∈ [CellType.tri, CellType.qua]) {cell cell' : Nat}
    (hlive : (g.cell (extrudedType b)).Live cell) (hlive' : (g.cell (extrudedType b)).Live cell')
    (heq : (g.cell (extrudedType b)).nodeList cell = (g.cell (extrudedType b)).nodeList cell') :
    cell = cell' :=
  h.distinct htwod hb cell cell' hlive hlive' fun x => by rw [heq]

theorem planesOf_sideNodes {n x y : Int} (hx : 0 ≤ x ∧ x < n) (hy : 0 ≤ y ∧ y < n) (k : Int) :
    planesOf n (sideNodes n x y k) = {k, k + 1} ∧ footprint n (sideNodes n x y k) = {x, y} := by
  have hx0 := shifted_place hx.1 hx.2 k
  have hx1 := shifted_place hx.1 hx.2 (k + 1)
  have hy0 := shifted_place hy.1 hy.2 k
  have hy1 := shifted_place hy.1 hy.2 (k + 1)
  constructor
  · ext u
    simp only [planesOf, sideNodes, List.toFinset_cons, List.toFinset_nil, Finset.image_insert,
      Finset.image_empty, Finset.mem_insert, Finset.notMem_empty, hx0.1, hx1.1, hy0.1, hy1.1,
      Finset.mem_singleton]
    tauto
  · ext u
    simp only [footprint, sideNodes, List.toFinset_cons, List.toFinset_nil, Finset.image_insert,
      Finset.image_empty, Finset.mem_insert, Finset.notMem_empty, hx0.2, hx1.2, hy0.2, hy1.2,
      Finset.mem_singleton]
    tauto

theorem nodePer_inj : ∀ b ∈ [CellType.tri, CellType.qua], ∀ b' ∈ [CellType.tri, CellType.qua],
    b.nodePer = b'.nodePer → b = b' := by
  decide

theorem side_corners : ∀ b ∈ [CellType.tri, CellType.qua], ∀ side ∈ b.e2n,
    side.1 < b.nodePer ∧ side.2 < b.nodePer := by
  decide

theorem TwodGrid.corner (htwod : TwodGrid twod) (hb : b ∈ [CellType.tri, CellType.qua]) {d i : Nat}
    (hd : (twod.cell b).Live d) (hi : i < b.nodePer) :
    (twod.cell b).c2n d i ∈ (twod.cell b).nodeList d ∧
      0 ≤ (twod.cell b).c2n d i ∧ (twod.cell b).c2n d i < twod.node.n := by
  have hmem : (twod.cell b).c2n d i ∈ (twod.cell b).nodeList d := by
    apply RefCell.c2n_mem_nodeList
    rw [RefCell.nodePer, htwod.inv.type]
    exact hi
  exact ⟨hmem, htwod.corners b hb d hd _ hmem⟩

/-- Where a side between two planes is. -/
theorem TwodGrid.side_place (htwod : TwodGrid twod) (hb : b ∈ [CellType.tri, CellType.qua])
    {d : Nat} (hd : (twod.cell b).Live d) {side : Nat × Nat} (hside : side ∈ b.e2n) (k : Int) :
    planesOf twod.node.n
        (sideNodes twod.node.n ((twod.cell b).c2n d side.1) ((twod.cell b).c2n d side.2) k) =
      {k, k + 1} ∧
      footprint twod.node.n
        (sideNodes twod.node.n ((twod.cell b).c2n d side.1) ((twod.cell b).c2n d side.2) k) =
        {(twod.cell b).c2n d side.1, (twod.cell b).c2n d side.2} := by
  obtain ⟨hfirst, hsecond⟩ := side_corners b hb side hside
  exact planesOf_sideNodes (htwod.corner hb hd hfirst).2 (htwod.corner hb hd hsecond).2 k

/-- A 2D cell is known by its nodes. -/
theorem TwodGrid.cell_eq (htwod : TwodGrid twod) {b b' : CellType}
    (hb : b ∈ [CellType.tri, CellType.qua]) (hb' : b' ∈ [CellType.tri, CellType.qua]) {d d' : Nat}
    (hd : (twod.cell b).Live d) (hd' : (twod.cell b').Live d')
    (hset : ((twod.cell b).nodeList d).toFinset = ((twod.cell b').nodeList d').toFinset) :
    b = b' ∧ d = d' := by
  have hcard := congrArg Finset.card hset
  rw [List.toFinset_card_of_nodup (htwod.simple b hb d hd),
    List.toFinset_card_of_nodup (htwod.simple b' hb' d' hd'), RefCell.length_nodeList,
    RefCell.length_nodeList, RefCell.nodePer, RefCell.nodePer, htwod.inv.type,
    htwod.inv.type] at hcard
  obtain rfl := nodePer_inj b hb b' hb' hcard
  refine ⟨rfl, htwod.distinct b hb d d' hd hd' fun x => ?_⟩
  rw [← List.mem_toFinset, hset, List.mem_toFinset]

/-- The faces on the copy of a 2D cell in a plane. -/
theorem Extruded.on_plane (h : Extruded twod nPlanes faceid1 faceid2 g) (htwod : TwodGrid twod)
    (hb : b ∈ [CellType.tri, CellType.qua]) {d j : Nat} (hd : (twod.cell b).Live d)
    {nodes : List Int}
    (hnodes : ∀ x, x ∈ nodes ↔ x ∈ shiftRow (j * twod.node.n) ((twod.cell b).nodeList d))
    {t : CellType} {cell : Nat} {face : Nat × Nat × Nat × Nat} (hface : FaceOn g nodes t cell face) :
    t = extrudedType b ∧ ∃ k, k < nPlanes - 1 ∧
      (g.cell t).nodeList cell = layerRow twod.node.n ((twod.cell b).nodeList d) k ∧
      (j = k ∧ faceCycle (g.cell t) cell face ~r
          shiftRow (j * twod.node.n) ((twod.cell b).nodeList d) ∨
        j = k + 1 ∧ faceCycle (g.cell t) cell face ~r
          (shiftRow (j * twod.node.n) ((twod.cell b).nodeList d)).reverse) := by
  have hw := htwod.corners b hb d hd
  have hne := (twod.cell b).nodeList_ne_nil d
  obtain ⟨b', hb', d', k, rfl, hd', hk, hrow, hcases⟩ := h.face_cases htwod hface
  have hw' := htwod.corners b' hb' d' hd'
  have hne' := (twod.cell b').nodeList_ne_nil d'
  -- the nodes of the face have the plane and the 2D nodes of the copy
  have hsame {l : List Int} (hmem : ∀ x, x ∈ faceCycle (g.cell (extrudedType b')) cell face ↔
      x ∈ l) : ∀ x, x ∈ l ↔ x ∈ shiftRow (j * twod.node.n) ((twod.cell b).nodeList d) :=
    fun x => (hmem x).symm.trans ((hface.2 x).trans (hnodes x))
  have hread {l : List Int} (hl : ∀ x, x ∈ l ↔
      x ∈ shiftRow (j * twod.node.n) ((twod.cell b).nodeList d)) :
      planesOf twod.node.n l = {(j : Int)} ∧
        footprint twod.node.n l = ((twod.cell b).nodeList d).toFinset :=
    ⟨(planesOf_congr hl).trans (planesOf_shiftRow hw hne),
      (footprint_congr hl).trans (footprint_shiftRow hw)⟩
  rcases hcases with hlow | hhigh | ⟨side, hside, hbetween⟩
  · obtain ⟨hplane, hfoot⟩ := hread (hsame fun x => hlow.mem_iff)
    rw [planesOf_shiftRow hw' hne', Finset.singleton_inj, Nat.cast_inj] at hplane
    rw [footprint_shiftRow hw'] at hfoot
    obtain ⟨rfl, rfl⟩ := htwod.cell_eq hb' hb hd' hd hfoot
    subst hplane
    exact ⟨rfl, k, hk, hrow, .inl ⟨rfl, hlow⟩⟩
  · obtain ⟨hplane, hfoot⟩ := hread (hsame fun x => hhigh.mem_iff.trans List.mem_reverse)
    rw [planesOf_shiftRow hw' hne', Finset.singleton_inj] at hplane
    rw [footprint_shiftRow hw'] at hfoot
    obtain ⟨rfl, rfl⟩ := htwod.cell_eq hb' hb hd' hd hfoot
    refine ⟨rfl, k, hk, hrow, .inr ⟨by omega, ?_⟩⟩
    rw [← hplane]
    exact hhigh
  · obtain ⟨hplane, -⟩ := hread (hsame fun x => hbetween.mem_iff)
    rw [(htwod.side_place hb' hd' hside k).1] at hplane
    exact (planes_ne _ _ hplane).elim

/-- The faces on a side between two planes. -/
theorem Extruded.on_side (h : Extruded twod nPlanes faceid1 faceid2 g) (htwod : TwodGrid twod)
    (hb : b ∈ [CellType.tri, CellType.qua]) {d : Nat} (hd : (twod.cell b).Live d)
    {side : Nat × Nat} (hside : side ∈ b.e2n)
    (honly : ∀ b' ∈ [CellType.tri, CellType.qua], ∀ d', (twod.cell b').Live d' →
      (twod.cell b).c2n d side.1 ∈ (twod.cell b').nodeList d' →
      (twod.cell b).c2n d side.2 ∈ (twod.cell b').nodeList d' → b' = b ∧ d' = d)
    {nodes : List Int} {j : Nat} (hnodes : ∀ x, x ∈ nodes ↔ x ∈ sideNodes twod.node.n
      ((twod.cell b).c2n d side.1) ((twod.cell b).c2n d side.2) j)
    {t : CellType} {cell : Nat} {face : Nat × Nat × Nat × Nat} (hface : FaceOn g nodes t cell face) :
    t = extrudedType b ∧
      (g.cell t).nodeList cell = layerRow twod.node.n ((twod.cell b).nodeList d) j := by
  obtain ⟨hplanes, hfoot⟩ := htwod.side_place hb hd hside j
  obtain ⟨b', hb', d', k, rfl, hd', hk, hrow, hcases⟩ := h.face_cases htwod hface
  have hw' := htwod.corners b' hb' d' hd'
  have hne' := (twod.cell b').nodeList_ne_nil d'
  have hsame {l : List Int} (hmem : ∀ x, x ∈ faceCycle (g.cell (extrudedType b')) cell face ↔
      x ∈ l) : ∀ x, x ∈ l ↔ x ∈ sideNodes twod.node.n ((twod.cell b).c2n d side.1)
        ((twod.cell b).c2n d side.2) j :=
    fun x => (hmem x).symm.trans ((hface.2 x).trans (hnodes x))
  rcases hcases with hlow | hhigh | ⟨side', hside', hbetween⟩
  · have hl := planesOf_congr (n := twod.node.n) (hsame fun x => hlow.mem_iff)
    rw [planesOf_shiftRow hw' hne', hplanes] at hl
    exact (planes_ne _ _ hl.symm).elim
  · have hl := planesOf_congr (n := twod.node.n)
      (hsame fun x => hhigh.mem_iff.trans List.mem_reverse)
    rw [planesOf_shiftRow hw' hne', hplanes] at hl
    exact (planes_ne _ _ hl.symm).elim
  · obtain ⟨hplanes', hfoot'⟩ := htwod.side_place hb' hd' hside' k
    have hl := planesOf_congr (n := twod.node.n) (hsame fun x => hbetween.mem_iff)
    have hf := footprint_congr (n := twod.node.n) (hsame fun x => hbetween.mem_iff)
    rw [hplanes', hplanes] at hl
    rw [hfoot', hfoot] at hf
    obtain ⟨hfirst, hsecond⟩ := side_corners b' hb' side' hside'
    have hsub : ∀ x ∈ ({(twod.cell b).c2n d side.1, (twod.cell b).c2n d side.2} : Finset Int),
        x ∈ (twod.cell b').nodeList d' := by
      intro x hx
      rw [← hf, Finset.mem_insert, Finset.mem_singleton] at hx
      rcases hx with rfl | rfl
      · exact (htwod.corner hb' hd' hfirst).1
      · exact (htwod.corner hb' hd' hsecond).1
    obtain ⟨rfl, rfl⟩ := honly b' hb' d' hd' (hsub _ (by simp)) (hsub _ (by simp))
    rw [Nat.cast_inj.mp (planes_inj hl)] at hrow
    exact ⟨rfl, hrow⟩

end Cells

end RefineMesh
