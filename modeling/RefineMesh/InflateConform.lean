import Mathlib.Tactic
import RefineMesh.BoundaryOrientation
import RefineMesh.InflateCells
import RefineMesh.Layer
import RefineMesh.Pack

/-!
# The inflated mesh conforms

The 3D cells of a grid with the cycles of their faces, and its triangles and
quadrilaterals, are a mesh.  On one rank `ref_inflate_face` puts a layer on the
listed triangles of this mesh, so that a conforming mesh is conforming again.
-/

namespace RefineMesh

open Spmd

variable {D : Type}

namespace RefInflate

/-! ## The mesh of a grid -/

/-- The 3D cells with the cycles of their faces. -/
def volumeCells (g : RefGrid D) : Multiset (List (List Int)) :=
  (types3d : Multiset CellType).bind fun t =>
    ((g.cell t).validCells.map fun c => t.f2n.map (faceCycle (g.cell t) c) :
      List (List (List Int)))

/-- The nodes of the triangles and of the quadrilaterals. -/
def boundaryCycles (g : RefGrid D) : Multiset (List Int) :=
  ((g.cell .tri).validCells.map (g.cell .tri).nodeList : List (List Int)) +
    ((g.cell .qua).validCells.map (g.cell .qua).nodeList : List (List Int))

/-- The mesh of a grid. -/
def meshOf (g : RefGrid D) : Layer.Mesh Int := ⟨volumeCells g, boundaryCycles g⟩

section Mesh

variable {g : RefGrid D}

theorem mem_volumeCells {cell : List (List Int)} : cell ∈ volumeCells g ↔
    ∃ t ∈ types3d, ∃ c, (g.cell t).Live c ∧ t.f2n.map (faceCycle (g.cell t) c) = cell := by
  simp [volumeCells, RefCell.mem_validCells]

end Mesh

/-! ## Rows of cells -/

/-- The cycles of the faces of a cell, from its row. -/
def rowFaces (t : CellType) (row : List Int) : List (List Int) :=
  t.f2n.map fun face => cycleOf fun node =>
    row.getD (if node = 0 then face.1 else if node = 1 then face.2.1
      else if node = 2 then face.2.2.1 else face.2.2.2) 0

theorem cycleOf_congr {f f' : Nat → Int} (h : ∀ i, i < 4 → f i = f' i) :
    cycleOf f = cycleOf f' := by
  unfold cycleOf
  rw [h 0 (by omega), h 1 (by omega), h 2 (by omega), h 3 (by omega)]

theorem rowFaces_cellRow {s : RefCell} {t : CellType} (htype : s.cellType = t) (c : Nat) :
    rowFaces t (s.cellRow c) = t.f2n.map (faceCycle s c) := by
  refine List.map_congr_left fun face hface => ?_
  have hcorners := (CellType.f2n_corners t face hface).1
  have hsize : s.sizePer = t.sizePer := by rw [RefCell.sizePer, htype]
  have hplace : ∀ k ∈ faceCorners face, (s.cellRow c).getD k 0 = s.c2n c k := by
    intro k hk
    have hlt : k < s.sizePer := by
      have h1 := hcorners k hk
      have h2 := t.nodePer_le_sizePer
      omega
    rw [RefCell.cellRow, List.getD_eq_getElem?_getD]
    simp [hlt]
  refine cycleOf_congr fun i hi => hplace _ ?_
  interval_cases i <;> simp [faceCorners]

/-- The faces of the prisms from the rows of their store. -/
theorem volumeCells_eq {g : RefGrid D} (h : g.CellsInv) : volumeCells g =
    (types3d : Multiset CellType).bind fun t => (g.cell t).cells.map (rowFaces t) := by
  refine Multiset.bind_congr fun t _ => ?_
  rw [RefCell.cells, Multiset.map_coe, List.map_map]
  congr 1
  exact List.map_congr_left fun c _ => (rowFaces_cellRow (h.type t) c).symm

theorem boundaryCycles_eq {g : RefGrid D} (h : g.CellsInv) : boundaryCycles g =
    ((g.cell .tri).validCells.map (g.cell .tri).nodeList : List (List Int)) +
      (g.cell .qua).cells.map (List.take 4) := by
  have hper : (g.cell .qua).nodePer = 4 := by rw [RefCell.nodePer, h.type]; rfl
  rw [boundaryCycles, RefCell.cells, Multiset.map_coe, List.map_map]
  congr 2
  refine List.map_congr_left fun c _ => ?_
  rw [Function.comp_apply, ← hper, RefCell.take_cellRow]

/-- The prism on a triangle is the one of its row. -/
theorem rowFaces_priRow {up : Int → Int} {nodes : Nat → Int} (h02 : nodes 0 ≠ nodes 2)
    (h12 : nodes 1 ≠ nodes 2) (hup : up (nodes 0) ≠ nodes 0) :
    rowFaces .pri (priRow up nodes) = Layer.prism up (nodes 0, nodes 1, nodes 2) := by
  simp [rowFaces, CellType.f2n, priRow, cycleOf, Layer.prism, h02, Ne.symm h12, Ne.symm hup]

/-! ## The layer on the mesh of a grid -/

/-- The nodes of a triangle. -/
def triangle (tri : RefCell) (cell : Nat) : Int × Int × Int :=
  (tri.c2n cell 0, tri.c2n cell 1, tri.c2n cell 2)

/-- The triangles of the layer. -/
def layerTris (faceids : RefDict) (tri : RefCell) : List (Int × Int × Int) :=
  (listedCells faceids tri).map (triangle tri)

/-- The boundary without the triangles of the layer. -/
def restCycles (faceids : RefDict) (g : RefGrid D) : Multiset (List Int) :=
  (((g.cell .tri).validCells.filter fun c => ¬ listed faceids (g.cell .tri) c).map
      (g.cell .tri).nodeList : List (List Int)) +
    (g.cell .qua).cells.map (List.take 4)

section Grid

variable {faceids : RefDict} {g g' : RefGrid D} {up : Int → Int} {tri : RefCell} {c : Nat}

theorem tri_triangle (h : tri.cellType = .tri) (c : Nat) :
    Layer.tri (triangle tri c) = tri.nodeList c := (nodeList_tri h c).symm

theorem corner_iff (h : tri.cellType = .tri) {v : Int} :
    Layer.Corner (layerTris faceids tri) v ↔ Corner faceids tri v := by
  simp only [Layer.Corner, Corner, layerTris, List.mem_map, exists_exists_and_eq_and,
    tri_triangle h]

/-- A list of cells is the listed ones and the others. -/
theorem split_listed (faceids : RefDict) (tri : RefCell) (f : Nat → List Int) :
    (tri.validCells.map f : Multiset (List Int)) =
    ((tri.validCells.filter fun c => ¬ listed faceids tri c).map f : List (List Int)) +
      ((listedCells faceids tri).map f : List (List Int)) := by
  rw [Multiset.coe_add, Multiset.coe_eq_coe, ← List.map_append, listedCells]
  refine List.Perm.map f ?_
  have hperm := List.filter_append_perm (listed faceids tri) tri.validCells
  refine (hperm.symm.trans List.perm_append_comm).trans ?_
  simp

theorem boundary_split (h : g.CellsInv) : boundaryCycles g =
    restCycles faceids g + ((layerTris faceids (g.cell .tri)).map Layer.tri : List (List Int)) := by
  rw [boundaryCycles_eq h, split_listed faceids, restCycles, layerTris, List.map_map]
  have hsame : (listedCells faceids (g.cell .tri)).map (Layer.tri ∘ triangle (g.cell .tri)) =
      (listedCells faceids (g.cell .tri)).map (g.cell .tri).nodeList :=
    List.map_congr_left fun c _ => tri_triangle (h.type .tri) c
  rw [hsame, add_right_comm]

theorem edges_triangle (tri : RefCell) (c : Nat) : Layer.edges (triangle tri c) =
    CellType.tri.e2n.map fun side => (tri.c2n c side.1, tri.c2n c side.2) := rfl

/-- A listed triangle with both ends of a side is the triangle itself or one of
the others there. -/
theorem onEdge_iff (h : tri.cellType = .tri) {a b : Int} {c' : Nat}
    (hc' : c' ∈ listedCells faceids tri) : Layer.OnEdge (triangle tri c') (a, b) ↔
      c' = c ∧ a ∈ tri.nodeList c ∧ b ∈ tri.nodeList c ∨ c' ∈ others tri c a b := by
  rw [Layer.OnEdge, tri_triangle h, others, List.mem_filter, RefCell.mem_withBoth]
  have hlive := (mem_listedCells.mp hc').1
  by_cases hsame : c' = c
  · subst hsame
    simp
  · simp [hsame, hlive]

/-- **The layer fits** on the mesh of the grid. -/
theorem Inflated.patch (h : Inflated faceids g g' up) (hcells : g.CellsInv)
    (hnodes : ∀ t c, (g.cell t).Live c → ∀ v ∈ (g.cell t).nodeList c, g.node.Live v.toNat) :
    Layer.Patch (meshOf g) (restCycles faceids g) (layerTris faceids (g.cell .tri)) up := by
  have htype := hcells.type .tri
  refine ⟨boundary_split hcells, ?_, ?_, ?_, ?_⟩
  · intro t ht
    obtain ⟨c, hc, rfl⟩ := List.mem_map.mp ht
    rw [tri_triangle htype]
    exact h.nodup c hc
  · rintro v ⟨w, hw, rfl⟩ cell hcell f hf hin
    obtain ⟨k, hk, hdead⟩ := h.fresh w ((corner_iff htype).mp hw)
    obtain ⟨t, _, c, hc, rfl⟩ := mem_volumeCells.mp hcell
    obtain ⟨face, hface, rfl⟩ := List.mem_map.mp hf
    obtain ⟨place, hplace, hval⟩ := mem_faceCycle.mp hin
    have hlt : place < (g.cell t).nodePer := by
      rw [RefCell.nodePer, hcells.type]
      exact (CellType.f2n_corners t face hface).1 place hplace
    have hlive := hnodes t c hc _ ((g.cell t).c2n_mem_nodeList c hlt)
    rw [hval, hk, Int.toNat_natCast] at hlive
    exact hdead hlive
  · exact fun v w hv hw => h.once v w ((corner_iff htype).mp hv) ((corner_iff htype).mp hw)
  · intro t ht e he t1 ht1 t2 ht2 hon1 hon2 hne1 hne2
    obtain ⟨c, hc, rfl⟩ := List.mem_map.mp ht
    obtain ⟨c1, hc1, rfl⟩ := List.mem_map.mp ht1
    obtain ⟨c2, hc2, rfl⟩ := List.mem_map.mp ht2
    rw [edges_triangle] at he
    obtain ⟨side, hside, rfl⟩ := List.mem_map.mp he
    have hfew := (h.qua.met (c, side) (mem_sides.mpr ⟨hc, hside⟩)).few
    have hother : ∀ c' ∈ listedCells faceids (g.cell .tri),
        triangle (g.cell .tri) c' ≠ triangle (g.cell .tri) c →
        Layer.OnEdge (triangle (g.cell .tri) c')
          ((g.cell .tri).c2n c side.1, (g.cell .tri).c2n c side.2) →
        c' ∈ RefInflate.others (g.cell .tri) c ((g.cell .tri).c2n c side.1)
          ((g.cell .tri).c2n c side.2) := by
      intro c' hc' hne hon
      rcases (onEdge_iff (c := c) htype hc').mp hon with ⟨rfl, _⟩ | hin
      · exact absurd rfl hne
      · exact hin
    have h1 := hother c1 hc1 hne1 hon1
    have h2 := hother c2 hc2 hne2 hon2
    dsimp only at hfew
    generalize RefInflate.others (g.cell .tri) c ((g.cell .tri).c2n c side.1)
      ((g.cell .tri).c2n c side.2) = found at hfew h1 h2
    rcases found with _ | ⟨x, _ | ⟨y, found⟩⟩
    · cases h1
    · rw [List.mem_singleton.mp h1, List.mem_singleton.mp h2]
    · rw [List.length_cons, List.length_cons] at hfew
      omega

/-- No other triangle of the layer is on a side when none of the others is listed. -/
theorem outer_iff (h : tri.cellType = .tri)
    (hinj : ∀ c1 ∈ listedCells faceids tri, ∀ c2 ∈ listedCells faceids tri,
      triangle tri c1 = triangle tri c2 → c1 = c2)
    (hc : c ∈ listedCells faceids tri) {a b : Int} :
    Layer.Outer (layerTris faceids tri) (triangle tri c) (a, b) ↔
      ∀ other ∈ others tri c a b, listed faceids tri other = false := by
  constructor
  · intro houter other hother
    obtain ⟨hboth, hne⟩ := List.mem_filter.mp hother
    by_contra hlisted
    have hin : other ∈ listedCells faceids tri :=
      mem_listedCells.mpr ⟨(RefCell.mem_withBoth.mp hboth).1, by simpa using hlisted⟩
    have hsame := houter _ (List.mem_map_of_mem hin)
      ((onEdge_iff (c := c) h hin).mpr (Or.inr hother))
    exact of_decide_eq_true hne (hinj other hin c hc hsame)
  · intro hnone t' ht' hon
    obtain ⟨c', hc', rfl⟩ := List.mem_map.mp ht'
    rcases (onEdge_iff (c := c) h hc').mp hon with ⟨rfl, _⟩ | hother
    · rfl
    · have hlisted := (mem_listedCells.mp hc').2
      rw [hnone c' hother] at hlisted
      cases hlisted

/-- **A quadrilateral is added on the sides of the layer.** -/
theorem newQua_take {qua : RefCell} (h : tri.cellType = .tri)
    (hinj : ∀ c1 ∈ listedCells faceids tri, ∀ c2 ∈ listedCells faceids tri,
      triangle tri c1 = triangle tri c2 → c1 = c2)
    (hc : c ∈ listedCells faceids tri) {side : Nat × Nat} (hmet : SideMet tri qua (c, side)) :
    (newQua faceids tri qua up (c, side)).map (List.take 4) =
      if Layer.Outer (layerTris faceids tri) (triangle tri c) (tri.c2n c side.1, tri.c2n c side.2)
      then some (Layer.side up (tri.c2n c side.1, tri.c2n c side.2)) else none := by
  have houter := outer_iff h hinj hc (a := tri.c2n c side.1) (b := tri.c2n c side.2)
  have hfew := hmet.few
  have hone := hmet.one
  dsimp only at hfew hone
  have hrow : ∀ id, (sideRow up (tri.c2n c side.1) (tri.c2n c side.2) id).take 4 =
      Layer.side up (tri.c2n c side.1, tri.c2n c side.2) := fun _ => rfl
  rw [newQua, sideId]
  dsimp only
  rcases hothers : others tri c (tri.c2n c side.1) (tri.c2n c side.2) with _ | ⟨other, _ | ⟨x, l⟩⟩
  · obtain ⟨quad, hquad⟩ := hone hothers
    rw [if_pos (houter.mpr (by simp [hothers])), hquad]
    simp [hrow]
  · by_cases hlisted : listed faceids tri other = true
    · rw [if_neg fun ho => ?_]
      · simp [hlisted]
      · have hnot := houter.mp ho other (by simp [hothers])
        rw [hlisted] at hnot
        cases hnot
    · rw [if_pos (houter.mpr (by simpa [hothers] using hlisted))]
      simp [hlisted, hrow]
  · rw [hothers, List.length_cons, List.length_cons] at hfew
    omega

theorem map_filter_eq_filterMap {α β : Type*} (p : α → Prop) [DecidablePred p] (f : α → β)
    (l : List α) : (l.filter p).map f = l.filterMap fun x => if p x then some (f x) else none := by
  induction l with
  | nil => rfl
  | cons x rest ih =>
      by_cases hx : p x
      · simp [hx, ih]
      · simp [hx, ih]

/-- The new quadrilaterals are the sides of the layer. -/
theorem sides_take {qua : RefCell} (h : tri.cellType = .tri)
    (hinj : ∀ c1 ∈ listedCells faceids tri, ∀ c2 ∈ listedCells faceids tri,
      triangle tri c1 = triangle tri c2 → c1 = c2)
    (hmet : ∀ s ∈ sides faceids tri, SideMet tri qua s) :
    ((sides faceids tri).filterMap (newQua faceids tri qua up)).map (List.take 4) =
      (Layer.sides (layerTris faceids tri)).map (Layer.side up) := by
  have hset : layerTris faceids tri = (listedCells faceids tri).map (triangle tri) := rfl
  rw [List.map_filterMap, sides, List.product, List.filterMap_flatMap, Layer.sides,
    List.map_flatMap]
  conv_rhs => rw [hset, List.flatMap_map]
  refine List.flatMap_congr fun c hc => ?_
  rw [map_filter_eq_filterMap, edges_triangle, List.filterMap_map, List.filterMap_map]
  refine List.filterMap_congr fun side hside => ?_
  exact newQua_take h hinj hc (hmet (c, side) (mem_sides.mpr ⟨hc, hside⟩))

theorem Inflated.cellsInv (h : Inflated faceids g g' up) (hcells : g.CellsInv) : g'.CellsInv := by
  have hcase : ∀ t, (g'.cell t).cellType = t ∧ (g'.cell t).CellInv := by
    intro t
    by_cases htri : t = .tri
    · subst htri
      exact ⟨h.tri.type.trans (hcells.type .tri), h.tri.inv⟩
    by_cases hqua : t = .qua
    · subst hqua
      exact ⟨h.qua.added.type.trans (hcells.type .qua), h.qua.added.inv⟩
    by_cases hpri : t = .pri
    · subst hpri
      exact ⟨h.pri.type.trans (hcells.type .pri), h.pri.inv⟩
    rw [h.others t htri hqua hpri]
    exact ⟨hcells.type t, hcells.inv t⟩
  exact ⟨fun t => (hcase t).1, fun t => (hcase t).2⟩

/-- The cells of the inflated grid are those before and the prisms. -/
theorem Inflated.volumeCells (h : Inflated faceids g g' up) (hcells : g.CellsInv)
    (hnodes : ∀ t c, (g.cell t).Live c → ∀ v ∈ (g.cell t).nodeList c, g.node.Live v.toNat) :
    volumeCells g' = volumeCells g +
      ((layerTris faceids (g.cell .tri)).map (Layer.prism up) : List (List (List Int))) := by
  have htype := hcells.type .tri
  have hprisms : (((listedCells faceids (g.cell .tri)).map
      fun c => priRow up ((g.cell .tri).c2n c)).map (rowFaces .pri)) =
      (layerTris faceids (g.cell .tri)).map (Layer.prism up) := by
    rw [layerTris, List.map_map, List.map_map]
    refine List.map_congr_left fun c hc => ?_
    have hnodup := h.nodup c hc
    rw [nodeList_tri htype] at hnodup
    simp only [List.nodup_cons, List.mem_cons, List.not_mem_nil, or_false, not_or] at hnodup
    have hin : (g.cell .tri).c2n c 0 ∈ (g.cell .tri).nodeList c := by
      rw [nodeList_tri htype]
      exact List.mem_cons_self
    refine rowFaces_priRow hnodup.1.2 hnodup.2.1 fun heq => ?_
    obtain ⟨k, hk, hdead⟩ := h.fresh _ ⟨c, hc, hin⟩
    have hlive := hnodes .tri c (mem_listedCells.mp hc).1 _ hin
    rw [← heq, hk, Int.toNat_natCast] at hlive
    exact hdead hlive
  have hrows : ∀ t ∈ (types3d : Multiset CellType), (g'.cell t).cells.map (rowFaces t) =
      (g.cell t).cells.map (rowFaces t) + if t = .pri then
        (((layerTris faceids (g.cell .tri)).map (Layer.prism up) : List (List (List Int))) :
          Multiset (List (List Int))) else 0 := by
    intro t ht
    by_cases hpri : t = .pri
    · subst hpri
      have hadded := h.pri.cells
      rw [List.map_nil, Multiset.coe_nil, add_zero] at hadded
      rw [if_pos rfl, hadded, Multiset.map_add, Multiset.map_coe, hprisms]
    · have htri : t ≠ .tri := by
        rintro rfl
        revert ht
        decide
      have hqua : t ≠ .qua := by
        rintro rfl
        revert ht
        decide
      rw [if_neg hpri, add_zero, h.others t htri hqua hpri]
  rw [volumeCells_eq (h.cellsInv hcells), volumeCells_eq hcells, Multiset.bind_congr hrows,
    Multiset.bind_add]
  congr 1
  simp [types3d, Multiset.bind, Multiset.join]

/-- The boundary of the inflated grid has the listed triangles on top, and the
quadrilaterals on the sides. -/
theorem Inflated.boundaryCycles (h : Inflated faceids g g' up) (hcells : g.CellsInv)
    (hinj : ∀ c1 ∈ listedCells faceids (g.cell .tri), ∀ c2 ∈ listedCells faceids (g.cell .tri),
      triangle (g.cell .tri) c1 = triangle (g.cell .tri) c2 → c1 = c2) :
    boundaryCycles g' = restCycles faceids g +
      ((layerTris faceids (g.cell .tri)).map (Layer.top up) : List (List Int)) +
      ((Layer.sides (layerTris faceids (g.cell .tri))).map (Layer.side up) : List (List Int)) := by
  have htype := hcells.type .tri
  have htype' : (g'.cell .tri).cellType = .tri := h.tri.type.trans htype
  have htris : ((g'.cell .tri).validCells : Multiset Nat) = (g.cell .tri).validCells := by
    refine Multiset.coe_eq_coe.mpr ((List.perm_ext_iff_of_nodup (g'.cell .tri).nodup_validCells
      (g.cell .tri).nodup_validCells).mpr fun c => ?_)
    rw [RefCell.mem_validCells, RefCell.mem_validCells, h.tri.live]
  have hmap : ((g'.cell .tri).validCells.map (g'.cell .tri).nodeList : Multiset (List Int)) =
      ((g.cell .tri).validCells.map (g'.cell .tri).nodeList : List (List Int)) := by
    rw [← Multiset.map_coe, ← Multiset.map_coe, htris]
  have hunlisted : ((g.cell .tri).validCells.filter fun c => ¬ listed faceids (g.cell .tri) c).map
      (g'.cell .tri).nodeList = ((g.cell .tri).validCells.filter
        fun c => ¬ listed faceids (g.cell .tri) c).map (g.cell .tri).nodeList := by
    refine List.map_congr_left fun c hc => ?_
    have hnot := of_decide_eq_true (List.mem_filter.mp hc).2
    exact RefCell.nodeList_congr h.tri.type (h.tri.kept c fun hcd => hnot hcd.2)
  have hlisted : (listedCells faceids (g.cell .tri)).map (g'.cell .tri).nodeList =
      (layerTris faceids (g.cell .tri)).map (Layer.top up) := by
    rw [layerTris, List.map_map]
    refine List.map_congr_left fun c hc => ?_
    obtain ⟨hlive, hcl⟩ := mem_listedCells.mp hc
    have htop := h.tri.onTop c (RefCell.mem_validCells.mpr hlive) hcl
    rw [nodeList_tri htype', htop 0 (by omega), htop 1 (by omega), htop 2 (by omega)]
    rfl
  have hquads := h.qua.added.cells
  rw [List.map_nil, Multiset.coe_nil, add_zero] at hquads
  rw [boundaryCycles_eq (h.cellsInv hcells), hmap, split_listed faceids, hunlisted,
    hlisted, hquads, Multiset.map_add, Multiset.map_coe, sides_take htype hinj h.qua.met,
    restCycles]
  abel

end Grid

/-! ## Runs on one rank -/

/-- A grid on one rank: the invariants of its stores, every node on this rank,
and every cell on nodes that are there. -/
structure OneRank (g : RefGrid D) : Prop where
  cells : g.CellsInv
  node : g.node.Inv
  alloc : ∃ out, Ledger.AllocInv ⟨g.node, out⟩
  counter : g.node.newNGlobal ≠ refEmpty
  rank : g.node.rank = 0
  owned : ∀ k, g.node.Live k → g.node.Owned k
  nodes : ∀ t c, (g.cell t).Live c → ∀ v ∈ (g.cell t).nodeList c, g.node.Live v.toNat

/-- **The layer on the mesh of the grid.** -/
theorem Inflated.conforming {faceids : RefDict} {g g' : RefGrid D} {up : Int → Int}
    (h : Inflated faceids g g' up) (hmesh : OneRank g) (hconf : (meshOf g).Conforming) :
    (meshOf g').Conforming := by
  have hpatch := h.patch hmesh.cells hmesh.nodes
  have hinj : ∀ c1 ∈ listedCells faceids (g.cell .tri), ∀ c2 ∈ listedCells faceids (g.cell .tri),
      triangle (g.cell .tri) c1 = triangle (g.cell .tri) c2 → c1 = c2 :=
    fun c1 hc1 c2 hc2 heq => List.inj_on_of_nodup_map (hpatch.nodup_tris hconf) hc1 hc2 heq
  have hmeshOf : meshOf g' = Layer.inflate (meshOf g) (restCycles faceids g)
      (layerTris faceids (g.cell .tri)) up := by
    rw [meshOf, h.volumeCells hmesh.cells hmesh.nodes, h.boundaryCycles hmesh.cells hinj]
    rfl
  rw [hmeshOf]
  exact hpatch.conforming hconf

/-- **Inflating a layer keeps a mesh conforming.**  On one rank a success of
`ref_inflate_face` puts the layer on, and the mesh is conforming again. -/
theorem inflate_face_conforming [RefDbl D] {mem : Memory D} {geometry : Geometry D}
    {faceids : RefDict} {g : RefGrid D} {out : Nat → RefGrid D} (hmesh : OneRank g)
    (hconf : (meshOf g).Conforming)
    (hrun : Runs 1 (fun _ => inflateFace 1 mem geometry faceids g) out) :
    ∃ up, Inflated faceids g (out 0) up ∧ (meshOf (out 0)).Conforming := by
  obtain ⟨ledger, halloc⟩ := hmesh.alloc
  have hlive : ∀ v, Corner faceids (g.cell .tri) v → g.node.Live v.toNat := by
    rintro v ⟨c, hc, hv⟩
    exact hmesh.nodes .tri c (mem_listedCells.mp hc).1 v hv
  obtain ⟨up, h⟩ := inflateFace_spec hmesh.cells hmesh.node hmesh.rank hmesh.owned halloc
    hmesh.counter hlive (Prog.alone_of_runs hrun)
  exact ⟨up, h, h.conforming hmesh hconf⟩

/-! ## A layer on a tetrahedron -/

/-- A tetrahedron with its four triangles in the order of its faces; two of them
have ids of their own. -/
def layerRows : CellType → List (List Int)
  | .tet => [[0, 1, 2, 3]]
  | .tri => [[0, 1, 2, 6], [0, 2, 3, 7], [1, 3, 2, 5], [0, 3, 1, 5]]
  | _ => []

/-- That tetrahedron on four nodes. -/
def layerGrid : RefGrid Int := RefGrid.ofRows (fourNodes.initializeNGlobal 4) noGeom layerRows

/-- The ids 6 and 7. -/
def layerIds : RefDict := { n := 2, max := 10, key := fun i => i + 6, value := fun _ => 0 }

/-- Tests that accept every place and every prism. -/
def flatGeometry : Geometry Int where
  normals _ _ := .ret fun _ => 0
  place _ _ _ _ := .ok (false, fun _ => 0)
  priMinDot _ _ := .ok true

/-- Cleared memory. -/
def layerMemory : Memory Int where
  glob := ⟨fun _ => 0, fun _ => 0, fun _ => 0, fun _ => 0⟩
  real := ⟨fun _ => 0, fun _ => 0, fun _ => 0, fun _ => 0⟩
  aux := ⟨fun _ => 0, fun _ => 0, fun _ => 0, fun _ => 0⟩

theorem layerRows_fit (t : CellType) : RefCell.RowsFit t (layerRows t) := by
  cases t <;> decide

theorem oneRank_layerGrid : OneRank layerGrid := by
  have hinv : layerGrid.node.Inv :=
    ⟨fourNodes_inv.toSlotInv.congr rfl rfl rfl rfl, fourNodes_inv.ascending, fourNodes_inv.aligned,
      fourNodes_inv.covers⟩
  have hglobals : ∀ k < 20, layerGrid.node.Live k → layerGrid.node.global k < 4 := by
    decide
  have hparts : ∀ k < 20, layerGrid.node.Owned k := by
    decide
  have hmax : layerGrid.node.max = 20 := by
    decide
  have hnone : ∀ g, ¬ layerGrid.node.Released g := by
    rintro g ⟨i, hi, _⟩
    exact absurd hi (Nat.not_lt_zero i)
  have halloc : Ledger.AllocInv ⟨layerGrid.node, []⟩ := by
    refine ⟨hinv.toSlotInv, fun i j hi => absurd hi (Nat.not_lt_zero i), fun g hr => absurd hr (hnone g),
      fun g hr => absurd hr (hnone g), Or.inr ⟨by decide, fun g hg => ?_⟩⟩
    rcases hg with ⟨k, hk, rfl⟩ | hr | hmem
    · exact hglobals k (hmax ▸ hk.1) hk
    · exact absurd hr (hnone g)
    · cases hmem
  have hnodes : ∀ t, ∀ row ∈ layerRows t, ∀ v ∈ row.take t.nodePer,
      layerGrid.node.Live v.toNat := by
    intro t
    cases t <;> decide
  exact ⟨RefGrid.ofRows_inv layerRows_fit, hinv, ⟨[], halloc⟩, by decide, by decide,
    fun k hk => hparts k (hmax ▸ hk.1), fun t c hc =>
      RefGrid.nodeList_ofRows (layerRows_fit t)
        (fun l => ∀ v ∈ l, layerGrid.node.Live v.toNat) (hnodes t) hc⟩

theorem conforming_layerGrid : (meshOf layerGrid).Conforming := by
  have hcovered : ∀ b ∈ (meshOf layerGrid).boundary, 0 < (meshOf layerGrid).cellsOn b.toFinset := by
    decide
  exact ⟨by decide, by decide, fun b hb => Multiset.countP_pos.mp (hcovered b hb)⟩

theorem inflate_face_conforming_tetrahedron : ∃ out up,
    Inflated layerIds layerGrid out up ∧ (meshOf out).Conforming := by
  have hrun : (inflateFace 1 layerMemory flatGeometry layerIds layerGrid).alone.isSome = true := by
    decide +kernel
  obtain ⟨out, hout⟩ := Option.isSome_iff_exists.mp hrun
  exact ⟨out, inflate_face_conforming oneRank_layerGrid conforming_layerGrid
    (Prog.runs_of_alone hout)⟩

end RefInflate

end RefineMesh
