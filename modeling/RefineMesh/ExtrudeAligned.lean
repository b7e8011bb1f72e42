import Mathlib.Tactic
import RefineMesh.ExtrudeBoundary

/-!
# Orientation of an extruded boundary

The boundary triangles, and the quadrilaterals on the edges, have the order of
the faces they are on.  The quadrilaterals on the symmetry planes are added in
the opposite order, so the boundary is aligned when the 2D grid has no
quadrilaterals.
-/

namespace RefineMesh

open Spmd
open scoped List

variable {D : Type}

/-- Every boundary triangle and quadrilateral is a face of one prism or hex and
has its cyclic order. -/
def BoundaryAligned (g : RefGrid D) : Prop :=
  ∀ b ∈ [CellType.tri, CellType.qua], ∀ c, (g.cell b).Live c →
    OneSided g ((g.cell b).nodeList c) ∧
    ∃ t ∈ [CellType.pri, CellType.hex], ∃ cell face,
      FaceOn g ((g.cell b).nodeList c) t cell face ∧
      (g.cell b).nodeList c ~r faceCycle (g.cell t) cell face

/-! ## The direction of an edge -/

/-- An edge and a directed side on the same two nodes. -/
def SameEnds (nodes : Nat → Int) (x y : Int) : Prop :=
  (nodes 0 = x ∧ nodes 1 = y) ∨ (nodes 0 = y ∧ nodes 1 = x)

theorem foldl_matchSide (nodes sideNodes : Nat → Int) (sides : List (Nat × Nat))
    (found : Int × Int) : sides.foldl (matchSide nodes sideNodes) found = found ∨
      ∃ side ∈ sides, sides.foldl (matchSide nodes sideNodes) found =
        (sideNodes side.1, sideNodes side.2) ∧
        SameEnds nodes (sideNodes side.1) (sideNodes side.2) := by
  induction sides generalizing found with
  | nil => exact .inl rfl
  | cons side sides ih =>
      rw [List.foldl_cons]
      rcases ih (matchSide nodes sideNodes found side) with hsame | ⟨later, hmem, hrest⟩
      · rw [hsame]
        unfold matchSide
        split
        · rename_i hends
          refine .inr ⟨side, List.mem_cons_self, rfl, ?_⟩
          unfold SameEnds
          omega
        · exact .inl rfl
      · exact .inr ⟨later, List.mem_cons_of_mem side hmem, hrest⟩

theorem matchSides_single {s : RefCell} {nodes : Nat → Int} {cell : Nat} {found out : Int × Int}
    (hrun : matchSides s nodes [cell] found = .ok out) :
    s.Live cell ∧ s.cellType.e2n.foldl (matchSide nodes (s.c2n cell)) found = out := by
  rw [matchSides, bind_eq_ok] at hrun
  obtain ⟨sideNodes, hnodes, hret⟩ := hrun
  rw [RefCell.nodes] at hnodes
  split at hnodes
  · cases hnodes
  rename_i hlive
  cases hnodes
  exact ⟨not_not.mp hlive, Except.ok.inj hret⟩

theorem matchSides_nil {s : RefCell} {nodes : Nat → Int} {found out : Int × Int}
    (hrun : matchSides s nodes [] found = .ok out) : found = out :=
  Except.ok.inj hrun

/-- The one cell with an edge and the side that is found there. -/
structure EdgeCell (g : RefGrid D) (nodes out : Nat → Int) (b other : CellType) (d : Nat) :
    Prop where
  cells : (g.cell b).having2 (nodes 0) (nodes 1) = [d]
  none : (g.cell other).having2 (nodes 0) (nodes 1) = []
  live : (g.cell b).Live d
  found : (g.cell b).cellType.e2n.foldl (matchSide nodes ((g.cell b).c2n d)) (refEmpty, refEmpty) =
    (out 0, out 1)
  ne : out 0 ≠ refEmpty
  rest : ∀ i, 2 ≤ i → out i = nodes i

/-- The side that is found has the ends of the edge. -/
theorem EdgeCell.side {g : RefGrid D} {nodes out : Nat → Int} {b other : CellType} {d : Nat}
    (h : EdgeCell g nodes out b other d) : ∃ side ∈ (g.cell b).cellType.e2n,
      out 0 = (g.cell b).c2n d side.1 ∧ out 1 = (g.cell b).c2n d side.2 ∧
      SameEnds nodes (out 0) (out 1) := by
  rcases foldl_matchSide nodes ((g.cell b).c2n d) (g.cell b).cellType.e2n
    (refEmpty, refEmpty) with hsame | ⟨side, hside, hout, hends⟩
  · rw [h.found] at hsame
    exact absurd (congrArg Prod.fst hsame) h.ne
  · rw [h.found, Prod.mk.injEq] at hout
    rw [← hout.1, ← hout.2] at hends
    exact ⟨side, hside, hout.1, hout.2, hends⟩

/-- The types of the cell with an edge and of the others. -/
def TriOrQua (b other : CellType) : Prop :=
  (b = .tri ∧ other = .qua) ∨ (b = .qua ∧ other = .tri)

theorem orientEdg_cases {g : RefGrid D} {nodes out : Nat → Int}
    (hrun : g.orientEdg nodes = .ok out) :
    ∃ b other d, TriOrQua b other ∧ EdgeCell g nodes out b other d := by
  rw [RefGrid.orientEdg, bind_eq_ok] at hrun
  obtain ⟨tris, htris, hrun⟩ := hrun
  rw [bind_eq_ok] at hrun
  obtain ⟨quas, hquas, hrun⟩ := hrun
  split at hrun
  · cases hrun
  rename_i hcount
  split at hrun
  · cases hrun
  rename_i hmin
  rw [bind_eq_ok] at hrun
  obtain ⟨found, htri, hrun⟩ := hrun
  rw [bind_eq_ok] at hrun
  obtain ⟨found', hqua, hrun⟩ := hrun
  split at hrun
  · cases hrun
  rename_i hfirst
  split at hrun
  · cases hrun
  cases hrun
  obtain ⟨rfl, -⟩ := RefCell.listWith2_eq_ok htris
  obtain ⟨rfl, -⟩ := RefCell.listWith2_eq_ok hquas
  rw [not_not] at hcount hmin
  have hrest : ∀ i, 2 ≤ i → (if i = 0 then found'.1 else if i = 1 then found'.2 else nodes i) =
      nodes i := by
    intro i hi
    rw [if_neg (by omega), if_neg (by omega)]
  by_cases htriCount : ((g.cell .tri).having2 (nodes 0) (nodes 1)).length = 1
  · obtain ⟨d, hd⟩ := List.length_eq_one_iff.mp htriCount
    have hnone : (g.cell .qua).having2 (nodes 0) (nodes 1) = [] :=
      List.length_eq_zero_iff.mp (by omega)
    rw [hd] at htri
    rw [hnone] at hqua
    obtain ⟨hlive, hfound⟩ := matchSides_single htri
    obtain rfl := matchSides_nil hqua
    exact ⟨.tri, .qua, d, .inl ⟨rfl, rfl⟩, hd, hnone, hlive, hfound, hfirst, hrest⟩
  · obtain ⟨d, hd⟩ := List.length_eq_one_iff.mp
      (show ((g.cell .qua).having2 (nodes 0) (nodes 1)).length = 1 by omega)
    have hnone : (g.cell .tri).having2 (nodes 0) (nodes 1) = [] :=
      List.length_eq_zero_iff.mp (by omega)
    rw [hnone] at htri
    rw [hd] at hqua
    obtain rfl := matchSides_nil htri
    obtain ⟨hlive, hfound⟩ := matchSides_single hqua
    exact ⟨.qua, .tri, d, .inr ⟨rfl, rfl⟩, hd, hnone, hlive, hfound, hfirst, hrest⟩

section Aligned

variable {twod g : RefGrid D} {nPlanes : Nat} {faceid1 faceid2 : Int} {b : CellType}

/-- The one cell of an edge is the only one with its nodes. -/
theorem TwodGrid.only_of_matched (htwod : TwodGrid twod) {other : CellType}
    (hpair : TriOrQua b other) {nodes : Nat → Int} {x y : Int}
    (hends : SameEnds nodes x y) {d : Nat}
    (hcells : (twod.cell b).having2 (nodes 0) (nodes 1) = [d])
    (hnone : (twod.cell other).having2 (nodes 0) (nodes 1) = []) :
    ∀ b' ∈ [CellType.tri, CellType.qua], ∀ d', (twod.cell b').Live d' →
      x ∈ (twod.cell b').nodeList d' → y ∈ (twod.cell b').nodeList d' → b' = b ∧ d' = d := by
  intro b' hb' d' hd' hx hy
  have hmem : d' ∈ (twod.cell b').having2 (nodes 0) (nodes 1) := by
    rw [(htwod.inv.inv b').mem_having2]
    rcases hends with ⟨h0, h1⟩ | ⟨h0, h1⟩
    · exact ⟨hd', h0 ▸ hx, h1 ▸ hy⟩
    · exact ⟨hd', h0 ▸ hy, h1 ▸ hx⟩
  have htype : b' = b ∨ b' = other := by
    simp only [List.mem_cons, List.not_mem_nil, or_false] at hb'
    rcases hpair with ⟨rfl, rfl⟩ | ⟨rfl, rfl⟩
    · exact hb'
    · exact hb'.symm
  rcases htype with rfl | rfl
  · rw [hcells, List.mem_singleton] at hmem
    exact ⟨rfl, hmem⟩
  · rw [hnone] at hmem
    cases hmem

/-- An edge is on one side of one cell and gets its direction. -/
theorem TwodGrid.orientEdg_spec (htwod : TwodGrid twod) {nodes out : Nat → Int}
    (hrun : twod.orientEdg nodes = .ok out) :
    ∃ b ∈ [CellType.tri, CellType.qua], ∃ d, (twod.cell b).Live d ∧
      (∃ side ∈ b.e2n, out 0 = (twod.cell b).c2n d side.1 ∧ out 1 = (twod.cell b).c2n d side.2) ∧
      ∀ b' ∈ [CellType.tri, CellType.qua], ∀ d', (twod.cell b').Live d' →
        out 0 ∈ (twod.cell b').nodeList d' → out 1 ∈ (twod.cell b').nodeList d' →
          b' = b ∧ d' = d := by
  obtain ⟨b, other, d, hpair, hcell⟩ := orientEdg_cases hrun
  have hb : b ∈ [CellType.tri, CellType.qua] := by
    rcases hpair with ⟨rfl, -⟩ | ⟨rfl, -⟩
    · decide
    · decide
  obtain ⟨side, hside, hout0, hout1, hends⟩ := hcell.side
  rw [htwod.inv.type] at hside
  refine ⟨b, hb, d, hcell.live, ⟨side, hside, hout0, hout1⟩, ?_⟩
  exact htwod.only_of_matched hpair hends hcell.cells hcell.none

/-! ## The copies in the first and last plane -/

/-- The order of the faces on the copy of a cell in the first or last plane. -/
def planeCycle (n : Int) (corners : List Int) (j : Nat) : List Int :=
  if j = 0 then shiftRow (j * n) corners else (shiftRow (j * n) corners).reverse

/-- The copy of a cell in the first or last plane is one face. -/
theorem Extruded.plane_face (h : Extruded twod nPlanes faceid1 faceid2 g) (htwod : TwodGrid twod)
    (hplanes : 2 ≤ nPlanes) (hb : b ∈ [CellType.tri, CellType.qua]) {d j : Nat}
    (hd : (twod.cell b).Live d) (hj : j = 0 ∨ j = nPlanes - 1) {nodes : List Int}
    (hnodes : ∀ x, x ∈ nodes ↔ x ∈ shiftRow (j * twod.node.n) ((twod.cell b).nodeList d)) :
    OneSided g nodes ∧ ∃ cell face, FaceOn g nodes (extrudedType b) cell face ∧
      faceCycle (g.cell (extrudedType b)) cell face ~r
        planeCycle twod.node.n ((twod.cell b).nodeList d) j := by
  have hlist : (twod.cell b).nodeList d = (List.range b.nodePer).map ((twod.cell b).c2n d) := by
    rw [RefCell.nodeList, RefCell.nodePer, htwod.inv.type]
  refine ⟨fun t cell face t' cell' face' hface hface' => ?_, ?_⟩
  · obtain ⟨rfl, k, hk, hrow, hside⟩ := h.on_plane htwod hb hd hnodes hface
    obtain ⟨rfl, k', hk', hrow', hside'⟩ := h.on_plane htwod hb hd hnodes hface'
    have hkk : k = k' := by omega
    refine ⟨rfl, h.cell_eq htwod hb hface.1.2.1 hface'.1.2.1 ?_⟩
    rw [hrow, hrow', hkk]
  · rcases hj with rfl | rfl
    · have hcycle : (lowerCycle b.nodePer).map
          (cornerNode twod.node.n ((twod.cell b).c2n d) 0) =
            shiftRow ((0 : Nat) * twod.node.n) ((twod.cell b).nodeList d) := by
        rw [lowerCycle_map, hlist]
      have hset : ∀ x, x ∈ nodes ↔
          x ∈ (lowerCycle b.nodePer).map (cornerNode twod.node.n ((twod.cell b).c2n d) 0) := by
        rw [hcycle]
        exact hnodes
      obtain ⟨cell, face, hface, hround⟩ :=
        h.exists_face htwod hb hd (by omega) (lower_face b hb) hset
      rw [hcycle] at hround
      exact ⟨cell, face, hface, hround⟩
    · have hcast : ((nPlanes - 2 : Nat) : Int) + 1 = (nPlanes - 1 : Nat) := by omega
      have hcycle : (upperCycle b.nodePer).map
          (cornerNode twod.node.n ((twod.cell b).c2n d) (nPlanes - 2)) =
            (shiftRow ((nPlanes - 1 : Nat) * twod.node.n) ((twod.cell b).nodeList d)).reverse := by
        rw [upperCycle_map, hlist, hcast]
      have hset : ∀ x, x ∈ nodes ↔ x ∈ (upperCycle b.nodePer).map
          (cornerNode twod.node.n ((twod.cell b).c2n d) (nPlanes - 2)) := by
        intro x
        rw [hcycle, hnodes, List.mem_reverse]
      obtain ⟨cell, face, hface, hround⟩ :=
        h.exists_face htwod hb hd (by omega) (upper_face b hb) hset
      rw [hcycle] at hround
      refine ⟨cell, face, hface, ?_⟩
      rw [planeCycle, if_neg (by omega)]
      exact hround

/-- The side of an edge between two planes is one face. -/
theorem Extruded.side_face (h : Extruded twod nPlanes faceid1 faceid2 g) (htwod : TwodGrid twod)
    {c j : Nat} (hc : c ∈ (twod.cell .edg).validCells) (hj : j < nPlanes - 1) {nodes : List Int}
    (hnodes : ∀ x, x ∈ nodes ↔
      x ∈ sideNodes twod.node.n (edgSide twod c 0) (edgSide twod c 1) j) :
    OneSided g nodes ∧ ∃ b ∈ [CellType.tri, CellType.qua], ∃ cell face,
      FaceOn g nodes (extrudedType b) cell face ∧
      faceCycle (g.cell (extrudedType b)) cell face ~r
        sideNodes twod.node.n (edgSide twod c 0) (edgSide twod c 1) j := by
  obtain ⟨b, hb, d, hd, ⟨side, hside, h0, h1⟩, honly⟩ := htwod.orientEdg_spec (h.oriented c hc)
  rw [h0, h1] at honly hnodes ⊢
  refine ⟨fun t cell face t' cell' face' hface hface' => ?_, b, hb, ?_⟩
  · obtain ⟨rfl, hrow⟩ := h.on_side htwod hb hd hside honly hnodes hface
    obtain ⟨rfl, hrow'⟩ := h.on_side htwod hb hd hside honly hnodes hface'
    exact ⟨rfl, h.cell_eq htwod hb hface.1.2.1 hface'.1.2.1 (hrow.trans hrow'.symm)⟩
  · have hcycle := sideCycle_map twod.node.n ((twod.cell b).c2n d) side j
    have hset : ∀ x, x ∈ nodes ↔ x ∈ (sideCycle side).map
        (cornerNode twod.node.n ((twod.cell b).c2n d) j) := by
      rw [hcycle]
      exact hnodes
    obtain ⟨cell, face, hface, hround⟩ :=
      h.exists_face htwod hb hd hj (RefineMesh.side_face b hb side hside) hset
    rw [hcycle] at hround
    exact ⟨cell, face, hface, hround⟩

/-! ## The boundary cells -/

theorem Extruded.nodeList_of_row (h : Extruded twod nPlanes faceid1 faceid2 g) (b : CellType)
    {c : Nat} {corners : List Int} {id : Int} (hlength : corners.length = b.nodePer)
    (hrow : (g.cell b).cellRow c = corners ++ [id]) : (g.cell b).nodeList c = corners := by
  rw [← RefCell.take_cellRow, hrow, RefCell.nodePer, h.inv.type, ← hlength,
    List.take_left]

/-- The boundary triangles. -/
theorem Extruded.tri_nodes (h : Extruded twod nPlanes faceid1 faceid2 g) (hplanes : 2 ≤ nPlanes)
    (htype : (twod.cell .tri).cellType = .tri) {c : Nat} (hc : (g.cell .tri).Live c) :
    ∃ d j, (twod.cell .tri).Live d ∧ (j = 0 ∨ j = nPlanes - 1) ∧
      (∀ x, x ∈ (g.cell .tri).nodeList c ↔
        x ∈ shiftRow (j * twod.node.n) ((twod.cell .tri).nodeList d)) ∧
      (g.cell .tri).nodeList c ~r planeCycle twod.node.n ((twod.cell .tri).nodeList d) j := by
  have hmem := RefCell.mem_cells.mpr ⟨c, hc, rfl⟩
  rw [h.tri, Multiset.mem_coe, List.mem_flatMap] at hmem
  obtain ⟨d, hd, hmem⟩ := hmem
  simp only [List.mem_cons, List.not_mem_nil, or_false] at hmem
  rcases hmem with hlow | hhigh
  · have hnodes : (g.cell .tri).nodeList c = (twod.cell .tri).nodeList d := by
      rw [nodeList_tri htype]
      exact h.nodeList_of_row .tri rfl hlow
    refine ⟨d, 0, RefCell.mem_validCells.mp hd, .inl rfl, fun x => ?_, ?_⟩
    · rw [hnodes]
      simp [shiftRow]
    · rw [hnodes]
      simp [planeCycle, shiftRow, List.IsRotated.refl]
  · have hnodes := h.nodeList_of_row .tri rfl hhigh
    have hcast : ((nPlanes - 1 : Nat) : Int) = (nPlanes : Int) - 1 := by omega
    refine ⟨d, nPlanes - 1, RefCell.mem_validCells.mp hd, .inr rfl, fun x => ?_, ?_⟩
    · rw [hnodes, nodeList_tri htype, hcast]
      simp only [shiftRow, List.map_cons, List.map_nil, List.mem_cons]
      tauto
    · rw [hnodes, nodeList_tri htype, planeCycle, if_neg (by omega), hcast]
      exact ⟨1, rfl⟩

/-- The boundary quadrilaterals. -/
theorem Extruded.qua_nodes (h : Extruded twod nPlanes faceid1 faceid2 g) {c : Nat}
    (hc : (g.cell .qua).Live c) :
    (∃ e ∈ (twod.cell .edg).validCells, ∃ j, j < nPlanes - 1 ∧ (g.cell .qua).nodeList c ~r
        sideNodes twod.node.n (edgSide twod e 0) (edgSide twod e 1) j) ∨
      ∃ d, (twod.cell .qua).Live d := by
  have hmem := RefCell.mem_cells.mpr ⟨c, hc, rfl⟩
  rw [h.qua, Multiset.mem_coe, List.mem_append] at hmem
  rcases hmem with hside | hplane
  · obtain ⟨e, he, hmem⟩ := List.mem_flatMap.mp hside
    obtain ⟨j, hj, hrow⟩ := List.mem_map.mp hmem
    refine .inl ⟨e, he, j, List.mem_range.mp hj, ?_⟩
    have hnodes : (g.cell .qua).nodeList c =
        [edgSide twod e 1 + j * twod.node.n, edgSide twod e 0 + j * twod.node.n,
          edgSide twod e 0 + (j + 1) * twod.node.n, edgSide twod e 1 + (j + 1) * twod.node.n] :=
      h.nodeList_of_row .qua rfl hrow.symm
    rw [hnodes]
    exact ⟨1, rfl⟩
  · obtain ⟨d, hd, -⟩ := List.mem_flatMap.mp hplane
    exact .inr ⟨d, RefCell.mem_validCells.mp hd⟩

/-- A quadrilateral is added backwards in the first plane. -/
theorem Extruded.exists_reversed (h : Extruded twod nPlanes faceid1 faceid2 g)
    (htype : (twod.cell .qua).cellType = .qua) {d : Nat} (hd : (twod.cell .qua).Live d) :
    ∃ c, (g.cell .qua).Live c ∧
      (g.cell .qua).nodeList c = ((twod.cell .qua).nodeList d).reverse := by
  have hmem : [(twod.cell .qua).c2n d 3, (twod.cell .qua).c2n d 2, (twod.cell .qua).c2n d 1,
      (twod.cell .qua).c2n d 0, faceid1] ∈ (g.cell .qua).cells := by
    rw [h.qua, Multiset.mem_coe, List.mem_append]
    exact .inr (List.mem_flatMap.mpr ⟨d, RefCell.mem_validCells.mpr hd, List.mem_cons_self⟩)
  obtain ⟨c, hc, hrow⟩ := RefCell.mem_cells.mp hmem
  refine ⟨c, hc, ?_⟩
  rw [nodeList_qua htype]
  exact h.nodeList_of_row .qua rfl hrow

/-- **The boundary is aligned if the 2D grid has no quadrilaterals.** -/
theorem Extruded.aligned_iff (h : Extruded twod nPlanes faceid1 faceid2 g) (htwod : TwodGrid twod)
    (hplanes : 2 ≤ nPlanes) : BoundaryAligned g ↔ ∀ d, ¬ (twod.cell .qua).Live d := by
  have htri := htwod.inv.type .tri
  have hqua := htwod.inv.type .qua
  have hvolume : ∀ b ∈ [CellType.tri, CellType.qua],
      extrudedType b ∈ [CellType.pri, CellType.hex] := by
    decide
  constructor
  · intro haligned d hd
    obtain ⟨c, hc, hnodes⟩ := h.exists_reversed hqua hd
    obtain ⟨-, t, -, cell, face, hface, hround⟩ := haligned .qua (by decide) c hc
    rw [hnodes] at hface hround
    -- the face read by the reversed quadrilateral is the copy in the first plane
    have hset : ∀ x, x ∈ ((twod.cell .qua).nodeList d).reverse ↔
        x ∈ shiftRow ((0 : Nat) * twod.node.n) ((twod.cell .qua).nodeList d) := by
      intro x
      simp [shiftRow]
    obtain ⟨rfl, k, hk, hrow, hside⟩ := h.on_plane htwod (by decide) hd hset hface
    have hforward : faceCycle (g.cell (extrudedType .qua)) cell face ~r
        (twod.cell .qua).nodeList d := by
      rcases hside with ⟨-, hside⟩ | ⟨hzero, -⟩
      · simpa [shiftRow] using hside
      · omega
    have hnodup := htwod.simple .qua (by decide) d hd
    have hcycle : (twod.cell .qua).nodeList d = cycleOf ((twod.cell .qua).c2n d) := by
      rw [nodeList_qua hqua] at hnodup ⊢
      rw [cycleOf, if_neg]
      intro heq
      simp [heq] at hnodup
    have hback := (hround.trans hforward).symm
    rw [hcycle] at hnodup hback
    exact not_isRotated_reverse hnodup hback
  · intro hnone b hb c hc
    simp only [List.mem_cons, List.not_mem_nil, or_false] at hb
    rcases hb with rfl | rfl
    · obtain ⟨d, j, hd, hj, hset, hround⟩ := h.tri_nodes hplanes htri hc
      obtain ⟨hone, cell, face, hface, hround'⟩ :=
        h.plane_face htwod hplanes (by decide) hd hj hset
      exact ⟨hone, _, hvolume .tri (by decide), cell, face, hface, hround.trans hround'.symm⟩
    · rcases h.qua_nodes hc with ⟨e, he, j, hj, hround⟩ | ⟨d, hd⟩
      · have hset : ∀ x, x ∈ (g.cell .qua).nodeList c ↔
            x ∈ sideNodes twod.node.n (edgSide twod e 0) (edgSide twod e 1) j :=
          fun x => hround.mem_iff
        obtain ⟨hone, b, hb, cell, face, hface, hround'⟩ := h.side_face htwod he hj hset
        exact ⟨hone, _, hvolume b hb, cell, face, hface, hround.trans hround'.symm⟩
      · exact (hnone d hd).elim

end Aligned

/-- **Extruding a 2D grid aligns the boundary exactly when the grid has no
quadrilaterals.** -/
theorem extrudeTwod_aligned_iff [RefPlaneDbl D] {p : Nat} {mem twod out : Nat → RefGrid D}
    {nPlanes : Nat} (hplanes : 2 ≤ nPlanes) (htwod : ∀ r, r < p → TwodGrid (twod r))
    (hrun : Runs p (fun r => RefGrid.extrudeTwod p (mem r) true nPlanes (twod r)) out) :
    ∀ r, r < p → (BoundaryAligned (out r) ↔ ∀ d, ¬ ((twod r).cell .qua).Live d) := by
  intro r hr
  obtain ⟨g, hsides, hcells⟩ := (extrudeTwod_runs_iff (Nat.zero_lt_of_lt hr)).mp hrun
  exact (extrude_cells (hsides r hr) (hcells r hr)).1.aligned_iff (htwod r hr) hplanes

/-! ## One quadrilateral and one triangle -/

instance : RefPlaneDbl Int where
  toRefDbl := intDbl

/-- The rows of a 2D grid. -/
def twodRows (tri qua edg : List (List Int)) : CellType → List (List Int)
  | .tri => tri
  | .qua => qua
  | .edg => edg
  | _ => []

/-- A square with its lower side. -/
def squareTwod : RefGrid Int :=
  RefGrid.ofRows (sharedStore 4 0) noGeom (twodRows [] [[0, 1, 2, 3, 1]] [[1, 0, 7]])

/-- A triangle with one side. -/
def triangleTwod : RefGrid Int :=
  RefGrid.ofRows (sharedStore 3 0) noGeom (twodRows [[0, 1, 2, 1]] [] [[1, 0, 7]])

theorem twodGrid_ofRows {node : RefNode Int} {rows : CellType → List (List Int)}
    (hfit : ∀ t, RefCell.RowsFit t (rows t))
    (hcorners : ∀ b ∈ [CellType.tri, CellType.qua], ∀ row ∈ rows b, ∀ x ∈ row.take b.nodePer,
      0 ≤ x ∧ x < node.n)
    (hsimple : ∀ b ∈ [CellType.tri, CellType.qua], ∀ row ∈ rows b, (row.take b.nodePer).Nodup)
    (hdistinct : ∀ b ∈ [CellType.tri, CellType.qua],
      ((rows b).map fun row => (row.take b.nodePer).toFinset).Nodup) :
    TwodGrid (RefGrid.ofRows node noGeom rows) := by
  refine ⟨RefGrid.ofRows_inv hfit, ?_, ?_, ?_⟩
  · intro b hb c hc x hx
    obtain ⟨row, hrow, hlist⟩ := RefGrid.exists_row_of_live (hfit b) hc
    rw [hlist] at hx
    exact hcorners b hb row hrow x hx
  · intro b hb
    exact RefGrid.ofRows_simple (hfit b) (hsimple b hb)
  · intro b hb
    exact RefGrid.ofRows_distinctSets (hfit b) (hdistinct b hb)

theorem twodGrid_squareTwod : TwodGrid squareTwod := by
  apply twodGrid_ofRows
  · intro t
    cases t <;> decide
  · decide
  · decide
  · decide

theorem twodGrid_triangleTwod : TwodGrid triangleTwod := by
  apply twodGrid_ofRows
  · intro t
    cases t <;> decide
  · decide
  · decide
  · decide

/-- The extrusion of a grid on one rank. -/
def extrudeAlone (twod : RefGrid Int) : Option (RefGrid Int) :=
  (RefGrid.extrudeTwod 1 twod true 2 twod).alone

/-- The square is extruded and its copies are not aligned. -/
theorem extrudeTwod_square_reversed :
    TwodGrid squareTwod ∧ ∃ out,
      Runs 1 (fun _ => RefGrid.extrudeTwod 1 squareTwod true 2 squareTwod) out ∧
      ¬ BoundaryAligned (out 0) := by
  refine ⟨twodGrid_squareTwod, ?_⟩
  have hrun : (extrudeAlone squareTwod).isSome = true := by
    decide +kernel
  obtain ⟨out, hout⟩ := Option.isSome_iff_exists.mp hrun
  have hruns : Runs 1 (fun _ => RefGrid.extrudeTwod 1 squareTwod true 2 squareTwod) fun _ => out :=
    Prog.runs_of_alone hout
  refine ⟨fun _ => out, hruns, ?_⟩
  obtain ⟨g, hsides, hcells⟩ := (extrudeTwod_runs_iff Nat.one_pos).mp hruns
  have hextruded := (extrude_cells (hsides 0 Nat.one_pos) (hcells 0 Nat.one_pos)).1
  rw [hextruded.aligned_iff twodGrid_squareTwod le_rfl]
  have hlive : (squareTwod.cell .qua).Live 0 := by
    decide +kernel
  exact fun hnone => hnone 0 hlive

/-- The triangle is extruded and its boundary is aligned. -/
theorem extrudeTwod_aligned_triangle : ∃ out,
    Runs 1 (fun _ => RefGrid.extrudeTwod 1 triangleTwod true 2 triangleTwod) out ∧
      (BoundaryAligned (out 0) ↔ ∀ d, ¬ (triangleTwod.cell .qua).Live d) := by
  have hrun : (extrudeAlone triangleTwod).isSome = true := by
    decide +kernel
  obtain ⟨out, hout⟩ := Option.isSome_iff_exists.mp hrun
  have hruns := Prog.runs_of_alone hout
  exact ⟨fun _ => out, hruns,
    extrudeTwod_aligned_iff le_rfl (fun _ _ => twodGrid_triangleTwod) hruns 0 Nat.one_pos⟩

end RefineMesh
