import Mathlib.Tactic
import RefineMesh.ChainSwap
import RefineMesh.CollapseRuns
import RefineMesh.Swap

/-!
# Swap passes keep a surface mesh manifold

What the combinatorial questions of a swap rule out, the effect of one swap on
the triangles of each face id, and from the two the invariant of the pass.  The
edge list of the pass is made before the first swap, so the invariant is proved
for any list of node pairs.
-/

namespace RefineMesh

open Chains ArrayLoop

variable {D : Type}

/-! ## The corner behind an edge -/

/-- A triangle that runs along the edge tells its third corner, for that
direction only. -/
theorem nodeBehind_of_turned {nodes : Nat → Int} {a b c : Int}
    (hnodup : [nodes 0, nodes 1, nodes 2].Nodup)
    (hturn : Turned (nodes 0, nodes 1, nodes 2) (a, b, c)) (found : Int) :
    nodeBehind nodes a b found = c ∧ nodeBehind nodes b a found = found := by
  simp only [Turned, Prod.mk.injEq] at hturn
  simp only [List.nodup_cons, List.mem_cons, List.not_mem_nil, or_false, not_or, List.nodup_nil,
    not_false_iff, and_true] at hnodup
  obtain ⟨⟨h01, h02⟩, h12⟩ := hnodup
  have h10 := Ne.symm h01
  have h20 := Ne.symm h02
  have h21 := Ne.symm h12
  rcases hturn with ⟨rfl, rfl, rfl⟩ | ⟨rfl, rfl, rfl⟩ | ⟨rfl, rfl, rfl⟩ <;>
    simp [nodeBehind, h01, h02, h12, h10, h20, h21]

theorem nodeBehind_same {nodes : Nat → Int} (hnodup : [nodes 0, nodes 1, nodes 2].Nodup)
    (a found : Int) : nodeBehind nodes a a found = found := by
  simp only [List.nodup_cons, List.mem_cons, List.not_mem_nil, or_false, not_or, List.nodup_nil,
    not_false_iff, and_true] at hnodup
  obtain ⟨⟨h01, h02⟩, h12⟩ := hnodup
  have hno : ∀ {x y : Int}, x ≠ y → ¬ (a = x ∧ a = y) := fun hxy h => hxy (h.1.symm.trans h.2)
  rw [nodeBehind]
  simp only [if_neg (hno h01), if_neg (hno h12), if_neg (hno (Ne.symm h02))]

namespace RefCell

variable {tri : RefCell} {node0 node1 node2 node3 : Int}

/-- The three corners of a triangle cell. -/
theorem nodeList_tri (htype : tri.cellType = .tri) (c : Nat) :
    tri.nodeList c = [tri.c2n c 0, tri.c2n c 1, tri.c2n c 2] := by
  have hper : tri.nodePer = 3 := by unfold RefCell.nodePer; rw [htype]; rfl
  rw [nodeList, hper]
  rfl

/-- The rows of different cells are all there. -/
theorem rows_le_cells {l : List Nat} (hnodup : l.Nodup) (hlive : ∀ c ∈ l, tri.Live c) :
    (l.map tri.cellRow : Multiset (List Int)) ≤ tri.cells := by
  have hcells : (l : Multiset Nat) ≤ tri.validCells :=
    Multiset.coe_le.mpr (hnodup.subperm fun c hc => mem_validCells.mpr (hlive c hc))
  exact Multiset.map_le_map hcells

/-- Two nodes of a triangle or an edg are a side of it. -/
theorem hasSide_of_mem (hinv : tri.CellInv) (htype : tri.cellType = .tri ∨ tri.cellType = .edg)
    {c : Nat} (hlive : tri.Live c) (h0 : node0 ∈ tri.nodeList c) (h1 : node1 ∈ tri.nodeList c)
    (h01 : node0 ≠ node1) : tri.hasSide node0 node1 = true := by
  have hjoined : ∀ t : CellType, t = .tri ∨ t = .edg → ∀ i < t.nodePer, ∀ j < t.nodePer, i ≠ j →
      (i, j) ∈ t.e2n ∨ (j, i) ∈ t.e2n := by
    intro t ht i hi j hj hij
    rcases ht with rfl | rfl
    · have hi3 : i < 3 := hi
      have hj3 : j < 3 := hj
      interval_cases i <;> interval_cases j <;> simp_all [CellType.e2n]
    · have hi2 : i < 2 := hi
      have hj2 : j < 2 := hj
      interval_cases i <;> interval_cases j <;> simp_all [CellType.e2n]
  obtain ⟨i, hi, rfl⟩ := mem_nodeList.mp h0
  obtain ⟨j, hj, rfl⟩ := mem_nodeList.mp h1
  have hij : i ≠ j := fun e => h01 (e ▸ rfl)
  simp only [hasSide, List.any_eq_true, decide_eq_true_eq]
  refine ⟨c, hinv.mem_having.mpr ⟨hlive, h0⟩, ?_⟩
  rcases hjoined tri.cellType htype i hi j hj hij with hedge | hedge
  · exact ⟨(i, j), hedge, Or.inl ⟨rfl, rfl⟩⟩
  · exact ⟨(j, i), hedge, Or.inr ⟨rfl, rfl⟩⟩

end RefCell

/-! ## What the answers say -/

section Answers

variable {g g' : RefGrid D} {tri tri' : RefCell} {node0 node1 node2 node3 : Int}

theorem swapNode23_ok (hrun : swapNode23 node0 node1 tri = .ok (node2, node3)) :
    ∃ cell0 cell1, tri.having2 node0 node1 = [cell0, cell1] ∧ node2 ≠ refEmpty ∧
      node2 = nodeBehind (tri.c2n cell1) node0 node1
        (nodeBehind (tri.c2n cell0) node0 node1 refEmpty) ∧
      node3 = nodeBehind (tri.c2n cell1) node1 node0
        (nodeBehind (tri.c2n cell0) node1 node0 refEmpty) := by
  simp only [swapNode23, bind_eq_ok] at hrun
  obtain ⟨l, hlist, hrun⟩ := hrun
  obtain ⟨hl, -⟩ := RefCell.listWith2_eq_ok hlist
  split at hrun
  · rename_i cell0 cell1
    simp only [bind_eq_ok] at hrun
    obtain ⟨nodes0, h0, nodes1, h1, hrun⟩ := hrun
    obtain rfl := RefCell.nodes_eq_ok h0
    obtain rfl := RefCell.nodes_eq_ok h1
    split_ifs at hrun with hempty2 hempty3
    simp only [Except.ok.injEq, Prod.mk.injEq] at hrun
    obtain ⟨rfl, rfl⟩ := hrun
    exact ⟨cell0, cell1, hl.symm, hempty2, rfl, rfl⟩
  · cases hrun

theorem swapSameFaceid_true (htype : (g.cell .tri).cellType = .tri)
    (hrun : swapSameFaceid node0 node1 g = .ok true) {cell0 cell1 : Nat}
    (hcells : (g.cell .tri).having2 node0 node1 = [cell0, cell1]) :
    (g.cell .tri).c2n cell0 3 = (g.cell .tri).c2n cell1 3 := by
  have hper : (g.cell .tri).nodePer = 3 := by unfold RefCell.nodePer; rw [htype]; rfl
  simp only [swapSameFaceid] at hrun
  split at hrun
  · simp at hrun
  · simp only [bind_eq_ok] at hrun
    obtain ⟨l, hlist, hrun⟩ := hrun
    obtain ⟨hl, -⟩ := RefCell.listWith2_eq_ok hlist
    rw [hcells] at hl
    subst hl
    simp only [bind_eq_ok] at hrun
    obtain ⟨nodes0, h0, nodes1, h1, hrun⟩ := hrun
    rw [RefCell.nodes_eq_ok h0, RefCell.nodes_eq_ok h1, hper] at hrun
    simpa using hrun

theorem swapManifold_true (hrun : swapManifold node0 node1 tri = .ok true) :
    ∃ node2 node3, swapNode23 node0 node1 tri = .ok (node2, node3) ∧
      tri.hasSide node2 node3 = false := by
  simp only [swapManifold, bind_eq_ok, Prod.exists] at hrun
  obtain ⟨node2, node3, hnodes, l, _, hrun⟩ := hrun
  refine ⟨node2, node3, hnodes, ?_⟩
  split at hrun
  · simp only [bind_eq_ok] at hrun
    obtain ⟨_, _, has0, _, hrun⟩ := hrun
    split_ifs at hrun
    · simp at hrun
    · simp only [bind_eq_ok] at hrun
      obtain ⟨has1, _, hrun⟩ := hrun
      split_ifs at hrun
      · simp at hrun
      · simpa using hrun
  · cases hrun

theorem swapAllowed_true {surf : Bool} {tests : SwapTests D}
    (hrun : swapAllowed surf tests g node0 node1 = .ok true) :
    swapSameFaceid node0 node1 g = .ok true ∧
      swapManifold node0 node1 (g.cell .tri) = .ok true := by
  simp only [swapAllowed] at hrun
  split at hrun
  · simp at hrun
  rw [bind_eq_ok] at hrun
  obtain ⟨same, hsame, hrun⟩ := hrun
  split at hrun
  · simp at hrun
  rename_i hyes
  obtain rfl : same = true := by simpa using hyes
  rw [bind_eq_ok] at hrun
  obtain ⟨manifold, hmanifold, hrun⟩ := hrun
  split at hrun
  · simp at hrun
  rename_i hyes
  obtain rfl : manifold = true := by simpa using hyes
  exact ⟨hsame, hmanifold⟩

/-- One edge of the pass leaves the cells alone or swaps where all questions
are answered yes. -/
theorem swapTriStep_ok {surf : Bool} {tests : SwapTests D} {edge : Int × Int}
    (hrun : swapTriStep surf tests g edge = .ok g') :
    g'.cell = g.cell ∨ ∃ tri', g' = g.setCell .tri tri' ∧
      (g.cell .edg).hasSide edge.1 edge.2 = false ∧ swapSameFaceid edge.1 edge.2 g = .ok true ∧
      swapManifold edge.1 edge.2 (g.cell .tri) = .ok true ∧
      swapTriEdge edge.1 edge.2 (g.cell .tri) = .ok tri' := by
  simp only [swapTriStep] at hrun
  by_cases hedg : (g.cell .edg).hasSide edge.1 edge.2 = true
  · rw [if_pos hedg, Except.ok.injEq] at hrun
    exact Or.inl (hrun ▸ rfl)
  rw [if_neg hedg] at hrun
  split at hrun
  · exact Or.inl (Except.ok.inj hrun ▸ rfl)
  split at hrun
  · exact Or.inl (Except.ok.inj hrun ▸ rfl)
  rw [bind_eq_ok] at hrun
  obtain ⟨allowed, hallowed, hrun⟩ := hrun
  split at hrun
  · exact Or.inl (Except.ok.inj hrun ▸ rfl)
  rename_i hyes
  split at hrun
  · exact Or.inl (Except.ok.inj hrun ▸ rfl)
  simp only [bind_eq_ok, Except.ok.injEq] at hrun
  obtain ⟨tri', hswap, rfl⟩ := hrun
  obtain rfl : allowed = true := by simpa using hyes
  obtain ⟨hface, hmanifold⟩ := swapAllowed_true hallowed
  exact Or.inr ⟨tri', rfl, by simpa using hedg, hface, hmanifold, hswap⟩

/-- **`ref_swap_tri_edge`** removes the two cells on the edge and adds two rows
with the id of the first. -/
theorem swapTriEdge_ok (hinv : tri.CellInv) (htype : tri.cellType = .tri) (hsimple : tri.Simple)
    (hrun : swapTriEdge node0 node1 tri = .ok tri') :
    ∃ cell0 cell1 node2 node3, tri.having2 node0 node1 = [cell0, cell1] ∧
      swapNode23 node0 node1 tri = .ok (node2, node3) ∧
      tri.Replaced tri' [cell1, cell0] {[node1, node2, node3, tri.c2n cell0 3],
        [node0, node3, node2, tri.c2n cell0 3]} := by
  have hsize : tri.sizePer = 4 := by unfold RefCell.sizePer; rw [htype]; rfl
  simp only [swapTriEdge, bind_eq_ok, Prod.exists] at hrun
  obtain ⟨node2, node3, hnodes, l, hlist, hrun⟩ := hrun
  obtain ⟨hl, -⟩ := RefCell.listWith2_eq_ok hlist
  split at hrun
  · rename_i cell0 cell1
    have hnodup := hinv.nodup_having2 hsimple node0 node1
    have hlive : ∀ c ∈ tri.having2 node0 node1, tri.Live c := fun c hc => (hinv.mem_having2.mp hc).1
    rw [← hl] at hnodup hlive
    simp only [bind_eq_ok, Prod.exists] at hrun
    obtain ⟨nodes, hcell, tri1, hremove0, tri2, hremove1, tri3, new0, hadd0, tri4, new1, hadd1,
      hrun⟩ := hrun
    obtain rfl := RefCell.nodes_eq_ok hcell
    obtain rfl : tri4 = tri' := Except.ok.inj hrun
    obtain ⟨tri1', hrun1, h1⟩ := (RefCell.Replaced.refl hinv).remove (hlive cell0 (by simp))
      List.not_mem_nil
    obtain rfl : tri1' = tri1 := Except.ok.inj (hrun1.symm.trans hremove0)
    obtain ⟨tri2', hrun2, h2⟩ := h1.remove (hlive cell1 (by simp)) (by
      simp only [List.nodup_cons, List.mem_singleton] at hnodup
      simpa using Ne.symm hnodup.1)
    obtain rfl : tri2' = tri2 := Except.ok.inj (hrun2.symm.trans hremove1)
    have h4 := (h2.add hadd0).add hadd1
    rw [hsize] at h4
    exact ⟨cell0, cell1, node2, node3, hl.symm, hnodes, h4⟩
  · cases hrun

end Answers

/-! ## One swap -/

/-- Rows without a property come and go unseen by those that have it. -/
theorem filter_rows_eq {rows rows' gone fresh : Multiset (List Int)}
    (hrows : rows' + gone = rows + fresh) (P : List Int → Prop) [DecidablePred P]
    (hgone : ∀ row ∈ gone, ¬ P row) (hfresh : ∀ row ∈ fresh, ¬ P row) :
    rows'.filter P = rows.filter P := by
  have hfilter := congrArg (Multiset.filter P) hrows
  rw [Multiset.filter_add, Multiset.filter_add, Multiset.filter_eq_nil.mpr hgone,
    Multiset.filter_eq_nil.mpr hfresh, add_zero, add_zero] at hfilter
  exact hfilter

/-- Two rows exchanged for two others are two triangles exchanged, in every
collection of rows that has all four. -/
theorem exchanged_of_rows {rows rows' : Multiset (List Int)} {row0 row1 new0 new1 : List Int}
    {a b c d : Int} (hrows : rows' + {row1, row0} = rows + {new1, new0}) (P : List Int → Prop)
    [DecidablePred P] (hold : P row0 ∧ P row1) (hnew : P new0 ∧ P new1) (h0 : row0 ∈ rows)
    (h1 : row1 ∈ rows) (hnew0 : triOf new0 = (a, d, c)) (hnew1 : triOf new1 = (b, c, d))
    (hturn : (Turned (triOf row0) (a, b, c) ∧ Turned (triOf row1) (b, a, d)) ∨
      (Turned (triOf row1) (a, b, c) ∧ Turned (triOf row0) (b, a, d))) :
    Exchanged ((rows.filter P).map triOf) ((rows'.filter P).map triOf) a b c d := by
  have htris := congrArg (fun m => (m.filter P).map triOf) hrows
  simp only [Multiset.insert_eq_cons, Multiset.filter_add, Multiset.filter_cons_of_pos _ hold.2,
    Multiset.filter_cons_of_pos _ hnew.2, Multiset.filter_singleton, if_pos hold.1, if_pos hnew.1,
    Multiset.map_add, Multiset.map_cons, Multiset.map_singleton, hnew0, hnew1] at htris
  have hmem0 : triOf row0 ∈ (rows.filter P).map triOf :=
    Multiset.mem_map_of_mem _ (Multiset.mem_filter.mpr ⟨h0, hold.1⟩)
  have hmem1 : triOf row1 ∈ (rows.filter P).map triOf :=
    Multiset.mem_map_of_mem _ (Multiset.mem_filter.mpr ⟨h1, hold.2⟩)
  have hpair : ∀ x y : Tri Int, ({x, y} : Multiset (Tri Int)) = {y, x} := fun x y =>
    Multiset.pair_comm x y
  rcases hturn with ⟨hf, hh⟩ | ⟨hf, hh⟩
  · exact ⟨triOf row0, triOf row1, by rw [hpair (triOf row0), hpair (a, d, c)]; exact htris, hmem0,
      hmem1, hf, hh⟩
  · exact ⟨triOf row1, triOf row0, by rw [hpair (a, d, c)]; exact htris, hmem1, hmem0, hf, hh⟩

namespace RefGrid

/-- The triangles of a face id. -/
def trisWith (g : RefGrid D) (id : Int) : Multiset (Tri Int) :=
  ((g.cell .tri).cells.filter fun row => row.getD 3 0 = id).map triOf

/-- A mesh of triangles with three corners each, no two on the same nodes, that
uses each directed edge once at most. -/
structure TriMesh (g : RefGrid D) : Prop where
  inv : g.CellsInv
  simple : ∀ f ∈ g.tris, f.corners.Nodup
  once : DirectedOnce g.tris
  distinct : (g.tris.map fun f => f.corners.toFinset).Nodup

/-- The pair of nodes is a geometry edge or lies between two face ids. -/
def Fixed (g : RefGrid D) (u v : Int) : Prop :=
  (∃ c, (g.cell .edg).Live c ∧ u ∈ (g.cell .edg).nodeList c ∧ v ∈ (g.cell .edg).nodeList c) ∨
    ∃ id id', id ≠ id' ∧ (∃ f ∈ g.trisWith id, u ∈ f.corners ∧ v ∈ f.corners) ∧
      ∃ f ∈ g.trisWith id', u ∈ f.corners ∧ v ∈ f.corners

theorem getD_cellRow {tri : RefCell} (htype : tri.cellType = .tri) (c : Nat) :
    (tri.cellRow c).getD 3 0 = tri.c2n c 3 := by
  have hsize : tri.sizePer = 4 := by unfold RefCell.sizePer; rw [htype]; rfl
  simp [RefCell.cellRow, hsize, List.getD_eq_getElem?_getD]

theorem mem_trisWith {g : RefGrid D} {id : Int} {f : Tri Int} (htype : (g.cell .tri).cellType = .tri) :
    f ∈ g.trisWith id ↔ ∃ c, (g.cell .tri).Live c ∧ (g.cell .tri).c2n c 3 = id ∧
      f = ((g.cell .tri).c2n c 0, (g.cell .tri).c2n c 1, (g.cell .tri).c2n c 2) := by
  simp only [trisWith, Multiset.mem_map, Multiset.mem_filter, RefCell.mem_cells]
  constructor
  · intro hf
    obtain ⟨row, ⟨⟨c, hlive, rfl⟩, hrow⟩, rfl⟩ := hf
    exact ⟨c, hlive, (getD_cellRow htype c).symm.trans hrow, triOf_cellRow htype c⟩
  · intro hf
    obtain ⟨c, hlive, hrow, rfl⟩ := hf
    exact ⟨_, ⟨⟨c, hlive, rfl⟩, (getD_cellRow htype c).trans hrow⟩, triOf_cellRow htype c⟩

theorem TriMesh.simple_cell {g : RefGrid D} (hg : g.TriMesh) : (g.cell .tri).Simple := by
  intro c hlive
  rw [← corners_triOf (hg.inv.type .tri)]
  exact hg.simple _ (Multiset.mem_map_of_mem _ (RefCell.mem_cells.mpr ⟨c, hlive, rfl⟩))

theorem mem_tris_of_trisWith {g : RefGrid D} {id : Int} {f : Tri Int} (hf : f ∈ g.trisWith id) :
    f ∈ g.tris := by
  obtain ⟨row, hrow, rfl⟩ := Multiset.mem_map.mp hf
  exact Multiset.mem_map_of_mem _ (Multiset.mem_filter.mp hrow).1

/-- What a run of swaps keeps. -/
structure Swapped (g g' : RefGrid D) : Prop where
  mesh : g'.TriMesh
  boundary : ∀ id, edgeChain ((g'.trisWith id).bind sides) = edgeChain ((g.trisWith id).bind sides)
  card : (g'.cell .tri).cells.card = (g.cell .tri).cells.card
  others : ∀ t, t ≠ .tri → g'.cell t = g.cell t
  fixed : ∀ u v, g.Fixed u v → ∀ id, (u, v) ∈ (g.trisWith id).bind sides →
    (u, v) ∈ (g'.trisWith id).bind sides

end RefGrid

section OneSwap

variable {g : RefGrid D} {tri' : RefCell} {node0 node1 node2 node3 : Int}

/-- The two triangles on the edge and their third corners. -/
theorem RefGrid.TriMesh.turned (hg : g.TriMesh) {cell0 cell1 : Nat}
    (hcells : (g.cell .tri).having2 node0 node1 = [cell0, cell1])
    (hnodes : swapNode23 node0 node1 (g.cell .tri) = .ok (node2, node3)) :
    node0 ≠ node1 ∧
      ((Turned (triOf ((g.cell .tri).cellRow cell0)) (node0, node1, node2) ∧
          Turned (triOf ((g.cell .tri).cellRow cell1)) (node1, node0, node3)) ∨
        (Turned (triOf ((g.cell .tri).cellRow cell1)) (node0, node1, node2) ∧
          Turned (triOf ((g.cell .tri).cellRow cell0)) (node1, node0, node3))) := by
  have hinv := hg.inv.inv .tri
  have htype := hg.inv.type .tri
  obtain ⟨cell0', cell1', hcells', hne, h2, h3⟩ := swapNode23_ok hnodes
  rw [hcells, List.cons.injEq, List.cons.injEq] at hcells'
  obtain ⟨rfl, rfl, -⟩ := hcells'
  have hmem : ∀ c ∈ [cell0, cell1], (g.cell .tri).Live c ∧
      node0 ∈ (g.cell .tri).nodeList c ∧ node1 ∈ (g.cell .tri).nodeList c := by
    intro c hc
    rw [← hcells] at hc
    exact hinv.mem_having2.mp hc
  obtain ⟨hlive0, h00, h01⟩ := hmem cell0 (by simp)
  obtain ⟨hlive1, h10, h11⟩ := hmem cell1 (by simp)
  have hnodup0 := hg.simple_cell cell0 hlive0
  have hnodup1 := hg.simple_cell cell1 hlive1
  have hle : ({triOf ((g.cell .tri).cellRow cell0), triOf ((g.cell .tri).cellRow cell1)} :
      Multiset (Tri Int)) ≤ g.tris := by
    have hrows := RefCell.rows_le_cells (hcells ▸ hinv.nodup_having2 hg.simple_cell node0 node1)
      fun c hc => (hmem c hc).1
    exact Multiset.map_le_map hrows
  have hdistinct : node0 ≠ node1 := by
    rintro rfl
    rw [RefCell.nodeList_tri htype] at hnodup0 hnodup1
    rw [nodeBehind_same hnodup1, nodeBehind_same hnodup0] at h2
    exact hne h2
  refine ⟨hdistinct, ?_⟩
  obtain ⟨c, hc0, hc1, hturn0⟩ := exists_turned
    ((corners_triOf htype cell0).symm ▸ hnodup0) hdistinct
    ((corners_triOf htype cell0).symm ▸ h00) ((corners_triOf htype cell0).symm ▸ h01)
  obtain ⟨d, hd0, hd1, hturn1⟩ := exists_turned
    ((corners_triOf htype cell1).symm ▸ hnodup1) hdistinct
    ((corners_triOf htype cell1).symm ▸ h10) ((corners_triOf htype cell1).symm ▸ h11)
  have hbehind : ∀ cell ∈ [cell0, cell1], ∀ {a b c : Int},
      Turned (triOf ((g.cell .tri).cellRow cell)) (a, b, c) → ∀ found,
        nodeBehind ((g.cell .tri).c2n cell) a b found = c ∧
          nodeBehind ((g.cell .tri).c2n cell) b a found = found := by
    intro cell hcell a b c hturn found
    have hnodup := hg.simple_cell cell (hmem cell hcell).1
    rw [RefCell.nodeList_tri htype] at hnodup
    rw [triOf_cellRow htype] at hturn
    exact nodeBehind_of_turned hnodup hturn found
  -- the two triangles run along the edge in opposite directions
  rcases hturn0 with hturn0 | hturn0
  · rcases hturn1 with hturn1 | hturn1
    · exact absurd hturn1 (hg.once.opposite hle hturn0)
    · obtain ⟨e0, e0'⟩ := hbehind cell0 (by simp) hturn0 refEmpty
      rw [e0, (hbehind cell1 (by simp) hturn1 c).2] at h2
      rw [e0', (hbehind cell1 (by simp) hturn1 refEmpty).1] at h3
      subst h2 h3
      exact Or.inl ⟨hturn0, hturn1⟩
  · rcases hturn1 with hturn1 | hturn1
    · obtain ⟨e0, e0'⟩ := hbehind cell0 (by simp) hturn0 refEmpty
      rw [e0', (hbehind cell1 (by simp) hturn1 refEmpty).1] at h2
      rw [e0, (hbehind cell1 (by simp) hturn1 c).2] at h3
      subst h2 h3
      exact Or.inr ⟨hturn1, hturn0⟩
    · exact absurd hturn1 (hg.once.opposite hle hturn0)

/-- What one swap does to the triangles, in the whole mesh and by face id. -/
structure SwapsEdge (g g' : RefGrid D) (node0 node1 node2 node3 id : Int) : Prop where
  inv : g'.CellsInv
  others : ∀ t, t ≠ .tri → g'.cell t = g.cell t
  card : (g'.cell .tri).cells.card = (g.cell .tri).cells.card
  all : Exchanged g.tris g'.tris node0 node1 node2 node3
  face : Exchanged (g.trisWith id) (g'.trisWith id) node0 node1 node2 node3
  rest : ∀ id', id' ≠ id → g'.trisWith id' = g.trisWith id'
  side : (g.cell .tri).hasSide node2 node3 = false
  ids : ∀ c, (g.cell .tri).Live c → node0 ∈ (g.cell .tri).nodeList c →
    node1 ∈ (g.cell .tri).nodeList c → (g.cell .tri).c2n c 3 = id

theorem RefGrid.TriMesh.swapsEdge (hg : g.TriMesh)
    (hface : swapSameFaceid node0 node1 g = .ok true)
    (hmanifold : swapManifold node0 node1 (g.cell .tri) = .ok true)
    (hswap : swapTriEdge node0 node1 (g.cell .tri) = .ok tri') :
    node0 ≠ node1 ∧ ∃ node2 node3 id,
      SwapsEdge g (g.setCell .tri tri') node0 node1 node2 node3 id := by
  have hinv := hg.inv.inv .tri
  have htype := hg.inv.type .tri
  obtain ⟨node2, node3, hnodes, hside⟩ := swapManifold_true hmanifold
  obtain ⟨cell0, cell1, node2', node3', hcells, hnodes', hreplaced⟩ :=
    swapTriEdge_ok hinv htype hg.simple_cell hswap
  rw [hnodes, Except.ok.injEq, Prod.mk.injEq] at hnodes'
  obtain ⟨rfl, rfl⟩ := hnodes'
  have hid := swapSameFaceid_true htype hface hcells
  obtain ⟨h01, hturn⟩ := hg.turned hcells hnodes
  have hmem : ∀ {c}, c = cell0 ∨ c = cell1 ↔ (g.cell .tri).Live c ∧
      node0 ∈ (g.cell .tri).nodeList c ∧ node1 ∈ (g.cell .tri).nodeList c := by
    intro c
    rw [← hinv.mem_having2, hcells]
    simp
  have hids : ∀ {c}, c = cell0 ∨ c = cell1 →
      (g.cell .tri).c2n c 3 = (g.cell .tri).c2n cell0 3 := by
    rintro c (rfl | rfl)
    · rfl
    · exact hid.symm
  have hrow : ∀ {c}, c = cell0 ∨ c = cell1 →
      (g.cell .tri).cellRow c ∈ (g.cell .tri).cells ∧
        ((g.cell .tri).cellRow c).getD 3 0 = (g.cell .tri).c2n cell0 3 := by
    intro c hc
    refine ⟨RefCell.mem_cells.mpr ⟨c, (hmem.mp hc).1, rfl⟩, ?_⟩
    rw [RefGrid.getD_cellRow htype, hids hc]
  have hrows := hreplaced.cells
  obtain ⟨hmem0, hid0⟩ := hrow (Or.inl rfl)
  obtain ⟨hmem1, hid1⟩ := hrow (Or.inr rfl)
  refine ⟨h01, node2, node3, (g.cell .tri).c2n cell0 3, ?_⟩
  constructor
  · exact hg.inv.setCell (hreplaced.type.trans htype) hreplaced.inv
  · intro t ht
    exact RefGrid.setCell_cell_of_ne g tri' ht
  · have hcard := congrArg Multiset.card hrows
    simpa using hcard
  · have hex : Exchanged _ _ node0 node1 node2 node3 := exchanged_of_rows hrows (fun _ => True)
      ⟨trivial, trivial⟩ ⟨trivial, trivial⟩ hmem0 hmem1 rfl rfl hturn
    rw [Multiset.filter_true, Multiset.filter_true] at hex
    rw [RefGrid.tris, RefGrid.tris, RefGrid.setCell_cell_self]
    exact hex
  · rw [RefGrid.trisWith, RefGrid.trisWith, RefGrid.setCell_cell_self]
    exact exchanged_of_rows hrows (fun row => row.getD 3 0 = (g.cell .tri).c2n cell0 3)
      ⟨hid0, hid1⟩ ⟨rfl, rfl⟩ hmem0 hmem1 rfl rfl hturn
  · intro id hne
    -- no row of this id comes or goes
    have hother : ∀ row : List Int, row.getD 3 0 = (g.cell .tri).c2n cell0 3 →
        ¬ row.getD 3 0 = id := fun row h h' => hne (h'.symm.trans h)
    have hfilter := filter_rows_eq hrows (fun row => row.getD 3 0 = id)
      (by
        intro row hgone
        simp only [List.map_cons, List.map_nil, Multiset.mem_coe, List.mem_cons, List.not_mem_nil,
          or_false] at hgone
        rcases hgone with rfl | rfl
        · exact hother _ hid1
        · exact hother _ hid0)
      (by
        intro row hfresh
        simp only [Multiset.insert_eq_cons, Multiset.mem_cons, Multiset.mem_singleton] at hfresh
        rcases hfresh with rfl | rfl <;> exact hother _ rfl)
    rw [RefGrid.trisWith, RefGrid.trisWith, RefGrid.setCell_cell_self, hfilter]
  · exact hside
  · intro c hlive h0 h1
    exact hids (hmem.mpr ⟨hlive, h0, h1⟩)

theorem RefGrid.Fixed.symm {u v : Int} (h : g.Fixed u v) : g.Fixed v u := by
  rcases h with ⟨c, hlive, hu, hv⟩ | ⟨id, id', hne, ⟨f, hf, hu, hv⟩, f', hf', hu', hv'⟩
  · exact Or.inl ⟨c, hlive, hv, hu⟩
  · exact Or.inr ⟨id, id', hne, ⟨f, hf, hv, hu⟩, f', hf', hv', hu'⟩

/-- **One swap** where the edge is no geometry edge. -/
theorem RefGrid.TriMesh.swap (hg : g.TriMesh)
    (hedg : (g.cell .edg).hasSide node0 node1 = false)
    (hface : swapSameFaceid node0 node1 g = .ok true)
    (hmanifold : swapManifold node0 node1 (g.cell .tri) = .ok true)
    (hswap : swapTriEdge node0 node1 (g.cell .tri) = .ok tri') :
    g.Swapped (g.setCell .tri tri') := by
  have htype := hg.inv.type .tri
  obtain ⟨h01, node2, node3, id, hex⟩ := hg.swapsEdge hface hmanifold hswap
  have h23 : node2 ≠ node3 := hex.all.third_ne hg.simple hg.distinct
  have hnone : ∀ f ∈ g.tris, ¬ (node2 ∈ f.corners ∧ node3 ∈ f.corners) := by
    intro f hf hboth
    obtain ⟨c, hlive, hends⟩ := (exists_cell_of_mem_tris hg.inv [node2, node3]).mp
      ⟨f, hf, by simpa using hboth⟩
    have hside := RefCell.hasSide_of_mem (hg.inv.inv .tri) (Or.inl htype) hlive
      (hends node2 (by simp)) (hends node3 (by simp)) h23
    rw [hex.side] at hside
    exact Bool.false_ne_true hside
  have hfree : ¬ g.Fixed node0 node1 := by
    rintro (⟨c, hlive, h0, h1⟩ | ⟨id0, id1, hne, ⟨f, hf, h0, h1⟩, f', hf', h0', h1'⟩)
    · have hside := RefCell.hasSide_of_mem (hg.inv.inv .edg) (Or.inr (hg.inv.type .edg)) hlive h0
        h1 h01
      rw [hedg] at hside
      exact Bool.false_ne_true hside
    · have hone : ∀ {id' : Int} {f : Tri Int}, f ∈ g.trisWith id' → node0 ∈ f.corners →
          node1 ∈ f.corners → id' = id := by
        intro id' f hf h0 h1
        obtain ⟨c, hlive, rfl, rfl⟩ := (RefGrid.mem_trisWith htype).mp hf
        rw [← triOf_cellRow htype, corners_triOf htype] at h0 h1
        exact hex.ids c hlive h0 h1
      exact hne ((hone hf h0 h1).trans (hone hf' h0' h1').symm)
  constructor
  · exact ⟨hex.inv, hex.all.simple hg.simple h23, hex.all.directedOnce hg.once h23 hnone,
      hex.all.distinct hg.simple hg.distinct hnone⟩
  · intro id'
    by_cases hid : id' = id
    · rw [hid]
      exact hex.face.edgeChain_eq
    · rw [hex.rest id' hid]
  · exact hex.card
  · exact hex.others
  · intro u v hfixed id' hmem
    by_cases hid : id' = id
    · subst hid
      apply hex.face.mem_sides hmem
      · intro heq
        rw [Prod.mk.injEq] at heq
        exact hfree (heq.1 ▸ heq.2 ▸ hfixed)
      · intro heq
        rw [Prod.mk.injEq] at heq
        exact hfree (heq.1 ▸ heq.2 ▸ hfixed).symm
    · rw [hex.rest id' hid]
      exact hmem

end OneSwap

/-! ## The pass -/

section Pass

variable {g g' g'' : RefGrid D} {surf : Bool} {tests : SwapTests D}

theorem RefGrid.Swapped.of_cell_eq (hg : g.TriMesh) (hcell : g'.cell = g.cell) :
    g.Swapped g' := by
  have htris : g'.tris = g.tris := by rw [RefGrid.tris, hcell, RefGrid.tris]
  have hwith : ∀ id, g'.trisWith id = g.trisWith id := by
    intro id
    rw [RefGrid.trisWith, hcell, RefGrid.trisWith]
  constructor
  · exact ⟨⟨hcell ▸ hg.inv.type, hcell ▸ hg.inv.inv⟩, htris ▸ hg.simple, htris ▸ hg.once,
      htris ▸ hg.distinct⟩
  · intro id
    rw [hwith id]
  · rw [hcell]
  · intro t _
    rw [hcell]
  · intro u v _ id hmem
    rw [hwith id]
    exact hmem

/-- What is fixed stays fixed. -/
theorem RefGrid.Swapped.fixed_mono (hg : g.TriMesh) (h : g.Swapped g') {u v : Int} (huv : u ≠ v)
    (hfixed : g.Fixed u v) : g'.Fixed u v := by
  have hstays : ∀ id, (∃ f ∈ g.trisWith id, u ∈ f.corners ∧ v ∈ f.corners) →
      ∃ f ∈ g'.trisWith id, u ∈ f.corners ∧ v ∈ f.corners := by
    intro id hid
    obtain ⟨f, hf, hu, hv⟩ := hid
    obtain ⟨c, _, _, hturn⟩ := exists_turned (hg.simple f (RefGrid.mem_tris_of_trisWith hf)) huv hu hv
    rcases hturn with hturn | hturn
    · have hside := h.fixed u v hfixed id
        (Multiset.mem_bind.mpr ⟨f, hf, by rw [hturn.sides]; simp [sides]⟩)
      obtain ⟨f', hf', hside'⟩ := Multiset.mem_bind.mp hside
      exact ⟨f', hf', corners_of_mem_sides hside'⟩
    · have hside := h.fixed v u hfixed.symm id
        (Multiset.mem_bind.mpr ⟨f, hf, by rw [hturn.sides]; simp [sides]⟩)
      obtain ⟨f', hf', hside'⟩ := Multiset.mem_bind.mp hside
      exact ⟨f', hf', (corners_of_mem_sides hside').symm⟩
  rcases hfixed with hedg | ⟨id, id', hne, hid, hid'⟩
  · rw [← h.others .edg (by decide)] at hedg
    exact Or.inl hedg
  · exact Or.inr ⟨id, id', hne, hstays id hid, hstays id' hid'⟩

theorem ne_of_mem_sides {f : Tri Int} {u v : Int} (hf : f.corners.Nodup) (h : (u, v) ∈ sides f) :
    u ≠ v := by
  obtain ⟨a, b, c⟩ := f
  simp only [Tri.corners, List.nodup_cons, List.mem_cons, List.not_mem_nil, or_false, not_or] at hf
  simp only [sides, Multiset.insert_eq_cons, Multiset.mem_cons, Multiset.mem_singleton,
    Prod.mk.injEq] at h
  grind

theorem RefGrid.Swapped.trans (hg : g.TriMesh) (h : g.Swapped g') (h' : g'.Swapped g'') :
    g.Swapped g'' := by
  constructor
  · exact h'.mesh
  · intro id
    rw [h'.boundary id, h.boundary id]
  · rw [h'.card, h.card]
  · intro t ht
    rw [h'.others t ht, h.others t ht]
  · intro u v hfixed id hmem
    obtain ⟨f, hf, hside⟩ := Multiset.mem_bind.mp hmem
    have huv := ne_of_mem_sides (hg.simple f (RefGrid.mem_tris_of_trisWith hf)) hside
    exact h'.fixed u v (h.fixed_mono hg huv hfixed) id (h.fixed u v hfixed id hmem)

theorem swapTriLoop_swapped {edges : List (Int × Int)} (hg : g.TriMesh)
    (hrun : swapTriLoop surf tests edges g = .ok g') : g.Swapped g' := by
  induction edges generalizing g with
  | nil =>
      obtain rfl : g = g' := Except.ok.inj hrun
      exact RefGrid.Swapped.of_cell_eq hg rfl
  | cons edge edges ih =>
      rw [swapTriLoop, List.foldlM_cons, bind_eq_ok] at hrun
      obtain ⟨g1, hstep, hrest⟩ := hrun
      have hone : g.Swapped g1 := by
        rcases swapTriStep_ok hstep with hcell | ⟨tri', rfl, hedg, hface, hmanifold, hswap⟩
        · exact RefGrid.Swapped.of_cell_eq hg hcell
        · exact hg.swap hedg hface hmanifold hswap
      exact hone.trans hg (ih hone.mesh hrest)

/-- **Swap passes keep a surface mesh manifold.**  Whatever the edges of the
list, their order and the answers of the tests, after each edge the triangles
are still proper, alone on their nodes and use each directed edge once at most;
each face id has its oriented boundary; there are as many triangles; and the
sides of triangles on geometry edges and between face ids are still there. -/
theorem triPass_keeps_manifold (surf : Bool) (tests : SwapTests D) (g : RefGrid D)
    (hg : g.TriMesh) :
    (∀ edges g', swapTriLoop surf tests edges g = .ok g' → g.Swapped g') ∧
      ∀ twod mem g', swapTriPass surf tests twod mem g = .ok g' → g.Swapped g' := by
  constructor
  · intro edges g' hrun
    exact swapTriLoop_swapped hg hrun
  · intro twod mem g' hrun
    rw [swapTriPass] at hrun
    split at hrun
    · simp only [bind_eq_ok] at hrun
      obtain ⟨refEdge, _, hrun⟩ := hrun
      exact swapTriLoop_swapped hg hrun
    · cases hrun

end Pass

/-- Tests that are all passed. -/
def passAll : SwapTests D :=
  { geomTopo := fun _ _ _ => .ok true
    quality := fun _ _ _ => .ok true
    ratio := fun _ _ _ => .ok true
    conforming := fun _ _ _ => .ok true
    outwardNorm := fun _ _ _ => .ok true }

/-- Triangles and the edgs around them. -/
def surfaceRows (edgs tris : List (List Int)) : CellType → List (List Int)
  | .edg => edgs
  | .tri => tris
  | _ => []

/-- A grid of triangles and edgs over five nodes. -/
def surfaceGrid (edgs tris : List (List Int)) : RefGrid Int :=
  RefGrid.ofRows fiveNodes noGeom (surfaceRows edgs tris)

section SurfaceGrid

variable {edgs tris : List (List Int)}

theorem surfaceRows_fit (hedgs : RefCell.RowsFit .edg edgs) (htris : RefCell.RowsFit .tri tris)
    (t : CellType) : RefCell.RowsFit t (surfaceRows edgs tris t) := by
  by_cases hedg : t = .edg
  · exact hedg ▸ hedgs
  by_cases htri : t = .tri
  · exact htri ▸ htris
  have hnone : surfaceRows edgs tris t = [] := by
    cases t <;> first | rfl | exact absurd rfl hedg | exact absurd rfl htri
  rw [hnone]
  exact ⟨by simp, by simp⟩

theorem tris_surfaceGrid (htris : RefCell.RowsFit .tri tris) :
    (surfaceGrid edgs tris).tris = (tris.map triOf : Multiset (Tri Int)) := by
  rw [surfaceGrid, RefGrid.tris, RefGrid.cells_ofRows htris]
  rfl

theorem surfaceGrid_triMesh (hedgs : RefCell.RowsFit .edg edgs)
    (htris : RefCell.RowsFit .tri tris) (hsimple : ∀ f ∈ tris.map triOf, f.corners.Nodup)
    (honce : DirectedOnce (tris.map triOf : Multiset (Tri Int)))
    (hdistinct : ((tris.map triOf).map fun f => f.corners.toFinset).Nodup) :
    (surfaceGrid edgs tris).TriMesh := by
  constructor
  · exact RefGrid.ofRows_inv (surfaceRows_fit hedgs htris)
  · rw [tris_surfaceGrid htris]
    exact hsimple
  · rw [tris_surfaceGrid htris]
    exact honce
  · rw [tris_surfaceGrid htris]
    exact Multiset.coe_nodup.mpr hdistinct

end SurfaceGrid

/-- A square of two triangles. -/
def squareGrid : RefGrid Int :=
  surfaceGrid [[1, 2, 1], [2, 0, 2], [0, 3, 3], [3, 1, 4]] [[0, 1, 2, 7], [1, 0, 3, 7]]

theorem squareGrid_triMesh : squareGrid.TriMesh := by
  apply surfaceGrid_triMesh
  · decide
  · decide
  · decide
  · decide
  · decide

/-- The diagonal of the square is swapped. -/
theorem triPass_keeps_manifold_square :
    ∃ g', swapTriPass true passAll false noEdges squareGrid = .ok g' ∧
      (g'.cell .tri).validCells.map (g'.cell .tri).cellRow = [[0, 3, 2, 7], [1, 2, 3, 7]] ∧
      squareGrid.Swapped g' := by
  obtain ⟨g', hrun, hrows⟩ := exists_ok_of_map
    (x := swapTriPass true passAll false noEdges squareGrid)
    (f := fun g' => (g'.cell .tri).validCells.map (g'.cell .tri).cellRow)
    (b := [[0, 3, 2, 7], [1, 2, 3, 7]]) (by decide +kernel)
  exact ⟨g', hrun, hrows,
    (triPass_keeps_manifold true passAll squareGrid squareGrid_triMesh).2 false noEdges g' hrun⟩

/-- Two triangles on the same three nodes, one on each side. -/
def pillowGrid : RefGrid Int := surfaceGrid [] [[0, 1, 2, 7], [1, 0, 2, 7]]

/-- Two triangles on the same nodes become two degenerate ones that use a
directed edge twice. -/
theorem triPass_flattens_pillow :
    (∀ f ∈ pillowGrid.tris, f.corners.Nodup) ∧ DirectedOnce pillowGrid.tris ∧
      ∃ g', swapTriPass true passAll false noEdges pillowGrid = .ok g' ∧
        ¬ DirectedOnce g'.tris := by
  have hfit : RefCell.RowsFit .tri [[0, 1, 2, 7], [1, 0, 2, 7]] := by decide
  obtain ⟨g', hrun, hrows⟩ := exists_ok_of_map
    (x := swapTriPass true passAll false noEdges pillowGrid)
    (f := fun g' => (g'.cell .tri).validCells.map (g'.cell .tri).cellRow)
    (b := [[0, 2, 2, 7], [1, 2, 2, 7]]) (by decide +kernel)
  rw [pillowGrid, tris_surfaceGrid hfit]
  refine ⟨by decide, by decide, g', hrun, ?_⟩
  rw [RefGrid.tris, RefCell.cells, hrows]
  decide

end RefineMesh
