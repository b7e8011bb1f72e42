import Mathlib.Tactic
import RefineMesh.Split

/-!
# Splits as subdivisions

What a successful split does to one store is a statement about its rows
(`SplitsCells`): each row with the edge or face goes away, its halves or thirds
come in its place, the other cells stay where they are.  The chain law follows
from the cuts of `RefineMesh.Chains`.
-/

namespace RefineMesh

open Chains ArrayLoop

variable {D : Type}

/-- A store after a split on the nodes `ends`. -/
structure SplitsCells (ends : List Int) (newNode : Int) (s s' : RefCell) : Prop where
  inv : s'.CellInv
  type : s'.cellType = s.cellType
  keeps : ∀ c, s.Live c → ¬ RowHas s.nodePer ends (s.cellRow c) →
    s'.Live c ∧ s'.c2n c = s.c2n c
  cells : s'.cells = s.cells.filter (fun row => ¬ RowHas s.nodePer ends row) +
    (s.cells.filter (RowHas s.nodePer ends)).bind (splitRows s.nodePer ends newNode)

/-! ## One store -/

section Store

variable {ends : List Int} {newNode : Int} {s s' : RefCell}

theorem RefCell.Replaced.splitsCells {gone : List Nat} {fresh : Multiset (List Int)}
    (h : s.Replaced s' gone fresh) (hnodup : gone.Nodup)
    (hgone : ∀ c, c ∈ gone ↔ s.Live c ∧ RowHas s.nodePer ends (s.cellRow c))
    (hfresh : fresh =
      (gone.map s.cellRow : Multiset (List Int)).bind (splitRows s.nodePer ends newNode)) :
    SplitsCells ends newNode s s' := by
  constructor
  · exact h.inv
  · exact h.type
  · intro c hlive hhas
    exact h.keeps c hlive fun hc => hhas ((hgone c).mp hc).2
  · rw [h.cells_eq hnodup _ hgone, hfresh, RefCell.rows_of_mem_iff hnodup _ hgone]

/-- **The loop over the cells to split.** -/
theorem splitLoop_spec (hinv : s.CellInv) {ε : Type} {step : RefCell → Nat → Except ε RefCell}
    (hstep : ∀ {s1 s2 : RefCell} {gone : List Nat} {fresh : Multiset (List Int)} {c : Nat},
      s.Replaced s1 gone fresh → s.Live c → c ∉ gone → step s1 c = .ok s2 →
        s.Replaced s2 (c :: gone) (splitRows s.nodePer ends newNode (s.cellRow c) + fresh))
    {l : List Nat} (hnodup : l.Nodup)
    (hl : ∀ c, c ∈ l ↔ s.Live c ∧ RowHas s.nodePer ends (s.cellRow c))
    (hrun : l.foldlM step s = .ok s') : SplitsCells ends newNode s s' := by
  -- invariant: the cells done so far are gone, latest first
  have hinvariant := foldlM_inv
    (fun done rest s1 => done ++ rest = l ∧ s.Replaced s1 done.reverse
      ((done.reverse.map s.cellRow : Multiset (List Int)).bind (splitRows s.nodePer ends newNode)))
    (by
      intro done c rest s1 s2 hP hc
      obtain ⟨hlist, hdone⟩ := hP
      have hin : c ∈ l := by
        rw [← hlist]
        simp
      have hnot : c ∉ done.reverse := by
        rw [← hlist, List.nodup_append] at hnodup
        intro hmem
        exact hnodup.2.2 c (List.mem_reverse.mp hmem) c List.mem_cons_self rfl
      have hnext := hstep hdone ((hl c).mp hin).1 hnot hc
      constructor
      · rw [← hlist]
        simp
      · rw [List.reverse_append, List.reverse_singleton, List.singleton_append, List.map_cons,
          ← Multiset.cons_coe, Multiset.cons_bind]
        exact hnext)
    ⟨List.nil_append l, by simpa using RefCell.Replaced.refl hinv⟩ hrun
  apply hinvariant.2.splitsCells (List.nodup_reverse.mpr hnodup)
  · intro c
    rw [List.mem_reverse]
    exact hl c
  · rfl

/-- The rows of a split store as one pass over the old rows. -/
theorem SplitsCells.cells_bind (h : SplitsCells ends newNode s s') :
    s'.cells = s.cells.bind fun row =>
      if RowHas s.nodePer ends row then splitRows s.nodePer ends newNode row else {row} := by
  rw [h.cells]
  generalize s.cells = m
  induction m using Multiset.induction_on with
  | empty => simp
  | cons row m ih =>
      rw [Multiset.cons_bind, ← ih, Multiset.filter_cons, Multiset.filter_cons]
      by_cases hrow : RowHas s.nodePer ends row
      · rw [if_pos hrow, if_pos hrow, if_neg (not_not.mpr hrow), Multiset.singleton_add,
          Multiset.cons_bind, zero_add, add_left_comm]
      · rw [if_neg hrow, if_neg hrow, if_pos hrow, zero_add, add_assoc]

theorem SplitsCells.refl (hinv : s.CellInv)
    (hnone : ∀ c, s.Live c → ¬ RowHas s.nodePer ends (s.cellRow c)) :
    SplitsCells ends newNode s s := by
  apply (RefCell.Replaced.refl hinv).splitsCells List.nodup_nil
  · intro c
    constructor
    · intro hc
      exact absurd hc List.not_mem_nil
    · intro hc
      exact absurd hc.2 (hnone c hc.1)
  · simp

end Store

/-! ## Rows as simplices -/

section Simplices

variable {ends : List Int} {newNode : Int} {s s' : RefCell}

theorem SplitsCells.map_tetOf (h : SplitsCells ends newNode s s') (htype : s.cellType = .tet) :
    s'.cells.map tetOf = (s.cells.map tetOf).bind (Tet.cut ends newNode) := by
  have hper : s.nodePer = 4 := by rw [RefCell.nodePer, htype]; rfl
  have hsize : s.sizePer = 4 := by rw [RefCell.sizePer, htype]; rfl
  rw [h.cells_bind, Multiset.map_bind, Multiset.bind_map]
  apply Multiset.bind_congr
  intro row hrow
  obtain ⟨c, _, rfl⟩ := RefCell.mem_cells.mp hrow
  have hhas : RowHas s.nodePer ends (s.cellRow c) ↔
      ∀ u ∈ ends, u ∈ (tetOf (s.cellRow c)).corners := by
    rw [RefCell.rowHas_cellRow, corners_tetOf htype]
  by_cases hin : RowHas s.nodePer ends (s.cellRow c)
  · rw [if_pos hin, Tet.cut, if_pos (hhas.mp hin), splitRows, Multiset.map_coe, List.map_map, hper]
    congr 1
    apply List.map_congr_left
    intro u _
    exact tetOf_substituteRow (by rw [RefCell.length_cellRow, hsize]) u newNode
  · rw [if_neg hin, Tet.cut, if_neg fun hc => hin (hhas.mpr hc), Multiset.map_singleton]

theorem SplitsCells.map_triOf (h : SplitsCells ends newNode s s') (htype : s.cellType = .tri) :
    s'.cells.map triOf = (s.cells.map triOf).bind (Tri.cut ends newNode) := by
  have hper : s.nodePer = 3 := by rw [RefCell.nodePer, htype]; rfl
  have hsize : s.sizePer = 4 := by rw [RefCell.sizePer, htype]; rfl
  rw [h.cells_bind, Multiset.map_bind, Multiset.bind_map]
  apply Multiset.bind_congr
  intro row hrow
  obtain ⟨c, _, rfl⟩ := RefCell.mem_cells.mp hrow
  have hhas : RowHas s.nodePer ends (s.cellRow c) ↔
      ∀ u ∈ ends, u ∈ (triOf (s.cellRow c)).corners := by
    rw [RefCell.rowHas_cellRow, corners_triOf htype]
  by_cases hin : RowHas s.nodePer ends (s.cellRow c)
  · rw [if_pos hin, Tri.cut, if_pos (hhas.mp hin), splitRows, Multiset.map_coe, List.map_map, hper]
    congr 1
    apply List.map_congr_left
    intro u _
    exact triOf_substituteRow (by rw [RefCell.length_cellRow, hsize]) u newNode
  · rw [if_neg hin, Tri.cut, if_neg fun hc => hin (hhas.mpr hc), Multiset.map_singleton]

end Simplices

/-- A grid after a split of the cells of some types. -/
structure SplitsGrid (ends : List Int) (newNode : Int) (types : List CellType) (g g' : RefGrid D) :
    Prop where
  node : g'.node = g.node
  geom : g'.geom = g.geom
  others : ∀ t, t ∉ types → g'.cell t = g.cell t
  splits : ∀ t ∈ types, SplitsCells ends newNode (g.cell t) (g'.cell t)

section Grid

variable {ends : List Int} {newNode : Int} {types : List CellType} {g g' : RefGrid D}

theorem SplitsGrid.tets (h : SplitsGrid ends newNode types g g') (hinv : g.CellsInv)
    (hin : CellType.tet ∈ types) : g'.tets = g.tets.bind (Tet.cut ends newNode) :=
  (h.splits _ hin).map_tetOf (hinv.type .tet)

theorem SplitsGrid.tris (h : SplitsGrid ends newNode types g g') (hinv : g.CellsInv)
    (hin : CellType.tri ∈ types) : g'.tris = g.tris.bind (Tri.cut ends newNode) :=
  (h.splits _ hin).map_triOf (hinv.type .tri)

end Grid

/-! ## Cells on an edge -/

section Edge

variable {g g' : RefGrid D} {t : CellType} {node0 node1 newNode : Int}

theorem splitGroupOnEdge_ok (hinv : (g.cell t).CellInv) (hsimple : (g.cell t).Simple)
    (hunused : ∀ c, (g.cell t).Live c → newNode ∉ (g.cell t).nodeList c)
    (hrun : splitGroupOnEdge node0 node1 newNode t g = .ok g') :
    ∃ s', g' = g.setCell t s' ∧ SplitsCells [node0, node1] newNode (g.cell t) s' := by
  simp only [splitGroupOnEdge, bind_eq_ok, guarded_eq_ok, mapError_eq_ok] at hrun
  obtain ⟨l, hlist, s', hloop, hset⟩ := hrun
  rw [Except.ok.injEq] at hset
  refine ⟨s', hset.symm, ?_⟩
  obtain ⟨rfl, -⟩ := RefCell.listWith2_eq_ok hlist
  apply splitLoop_spec hinv _ (hinv.nodup_having2 hsimple node0 node1) _ hloop
  · intro s1 s2 gone fresh c h hlive hnot hstep
    exact h.splitCellOnEdge hlive hnot (hunused c hlive) hstep
  · intro c
    rw [hinv.mem_having2, RefCell.rowHas_cellRow]
    simp

/-- **A successful `ref_split_edge`.** -/
theorem splitEdge_ok (hinv : g.CellsInv)
    (hsimple : ∀ t ∈ [CellType.tet, .tri, .edg], (g.cell t).Simple) (hunused : g.Unused newNode)
    (hrun : splitEdge node0 node1 newNode g = .ok g') :
    SplitsGrid [node0, node1] newNode [.tet, .tri, .edg] g g' := by
  simp only [splitEdge, bind_eq_ok] at hrun
  obtain ⟨g1, h1, g2, h2, h3⟩ := hrun
  obtain ⟨tets, rfl, htets⟩ :=
    splitGroupOnEdge_ok (hinv.inv .tet) (hsimple _ (by simp)) (hunused .tet) h1
  have htri : (g.setCell .tet tets).cell .tri = g.cell .tri :=
    g.setCell_cell_of_ne tets (by decide)
  obtain ⟨tris, rfl, htris⟩ := splitGroupOnEdge_ok (by rw [htri]; exact hinv.inv .tri)
    (by rw [htri]; exact hsimple _ (by simp)) (by rw [htri]; exact hunused .tri) h2
  have hedg : ((g.setCell .tet tets).setCell .tri tris).cell .edg = g.cell .edg := by
    rw [RefGrid.setCell_cell_of_ne _ _ (by decide), RefGrid.setCell_cell_of_ne _ _ (by decide)]
  obtain ⟨edgs, rfl, hedgs⟩ := splitGroupOnEdge_ok (by rw [hedg]; exact hinv.inv .edg)
    (by rw [hedg]; exact hsimple _ (by simp)) (by rw [hedg]; exact hunused .edg) h3
  rw [htri] at htris
  rw [hedg] at hedgs
  constructor
  · rfl
  · rfl
  · intro t ht
    simp only [List.mem_cons, List.not_mem_nil, or_false, not_or] at ht
    rw [RefGrid.setCell_cell_of_ne _ _ ht.2.2, RefGrid.setCell_cell_of_ne _ _ ht.2.1,
      RefGrid.setCell_cell_of_ne _ _ ht.1]
  · intro t ht
    simp only [List.mem_cons, List.not_mem_nil, or_false] at ht
    rcases ht with rfl | rfl | rfl
    · rw [RefGrid.setCell_cell_of_ne _ _ (by decide), RefGrid.setCell_cell_of_ne _ _ (by decide),
        RefGrid.setCell_cell_self]
      exact htets
    · rw [RefGrid.setCell_cell_of_ne _ _ (by decide), RefGrid.setCell_cell_self]
      exact htris
    · rw [RefGrid.setCell_cell_self]
      exact hedgs

theorem guarded_eq_error {σ α : Type} {s s' : σ} {x : Except Status α} {status : Status} :
    guarded s x = .error (status, s') ↔ x = .error status ∧ s' = s := by
  cases x with
  | error e => simp [guarded, Except.mapError, eq_comm]
  | ok a => simp [guarded, Except.mapError]

theorem splitCellOnEdge_ne_increaseLimit (node0 node1 newNode : Int) (s : RefCell) (cell : Nat)
    (s' : RefCell) :
    splitCellOnEdge node0 node1 newNode s cell ≠ .error (.increaseLimit, s') := by
  intro h
  simp only [splitCellOnEdge, bind_eq_error, guarded_eq_error, RefCell.add_ne_increaseLimit,
    RefCell.remove_ne_increaseLimit, RefCell.nodes_ne_increaseLimit, false_and, false_or,
    reduceCtorEq, and_false, exists_false] at h

end Edge

/-! ## Cells on a face -/

section Face

variable {node0 node1 node2 newNode : Int}

/-- The nodes of the face that is split. -/
theorem exists_splitFaceNodes {n : Nat} (hn : 3 ≤ n) {x : Int} :
    (∃ i, i < n ∧ splitFaceNodes node0 node1 node2 i = x) ↔
      x = node0 ∨ x = node1 ∨ x = node2 := by
  constructor
  · intro h
    obtain ⟨i, _, rfl⟩ := h
    simp only [splitFaceNodes]
    grind
  · intro h
    rcases h with rfl | rfl | rfl
    · exact ⟨0, by omega, rfl⟩
    · exact ⟨1, by omega, rfl⟩
    · exact ⟨2, by omega, rfl⟩

theorem RefCell.exists_faceNodes (s : RefCell) (c i j k : Nat) {x : Int} :
    (∃ m, m < 4 ∧ s.faceNodes c (i, j, k, i) m = x) ↔
      x = s.c2n c i ∨ x = s.c2n c j ∨ x = s.c2n c k := by
  constructor
  · intro h
    obtain ⟨m, _, rfl⟩ := h
    simp only [RefCell.faceNodes]
    grind
  · intro h
    rcases h with rfl | rfl | rfl
    · exact ⟨0, by omega, rfl⟩
    · exact ⟨1, by omega, rfl⟩
    · exact ⟨2, by omega, rfl⟩

/-- The face that is split is a face of the cell when its three nodes are. -/
theorem RefCell.face_matches_iff {s : RefCell} {c i j k : Nat} (h01 : node0 ≠ node1)
    (h02 : node0 ≠ node2) (h12 : node1 ≠ node2) :
    sameUnique (sortUnique 4 (splitFaceNodes node0 node1 node2))
        (sortUnique 4 (s.faceNodes c (i, j, k, i))) ↔
      ∀ u ∈ [node0, node1, node2], u = s.c2n c i ∨ u = s.c2n c j ∨ u = s.c2n c k := by
  rw [sameUnique_iff _ _ (by omega) (by omega)]
  simp only [exists_splitFaceNodes (show 3 ≤ 4 by omega), RefCell.exists_faceNodes, List.mem_cons,
    List.not_mem_nil, or_false, forall_eq_or_imp, forall_eq]
  constructor
  · intro h
    exact ⟨(h _).mp (Or.inl rfl), (h _).mp (Or.inr (Or.inl rfl)), (h _).mp (Or.inr (Or.inr rfl))⟩
  · intro h x
    omega

/-- A tet has the face once, or does not have its three nodes. -/
theorem RefCell.facesOn_tet {s : RefCell} (htype : s.cellType = .tet) {c : Nat}
    (hnodup : (s.nodeList c).Nodup) (h01 : node0 ≠ node1) (h02 : node0 ≠ node2)
    (h12 : node1 ≠ node2) :
    (s.cellType.f2n.filter fun face =>
        sameUnique (sortUnique 4 (splitFaceNodes node0 node1 node2))
          (sortUnique 4 (s.faceNodes c face))).map (fun _ => c) =
      if ∀ u ∈ [node0, node1, node2], u ∈ s.nodeList c then [c] else [] := by
  have hper : s.nodePer = 4 := by rw [RefCell.nodePer, htype]; rfl
  have hlist : s.nodeList c = [s.c2n c 0, s.c2n c 1, s.c2n c 2, s.c2n c 3] := by
    rw [RefCell.nodeList, hper]
    rfl
  rw [hlist] at hnodup
  simp only [List.nodup_cons, List.mem_cons, List.not_mem_nil, or_false, not_or, List.nodup_nil,
    not_false_iff, and_true] at hnodup
  obtain ⟨⟨hab, hac, had⟩, ⟨hbc, hbd⟩, hcd⟩ := hnodup
  rw [htype, hlist]
  simp only [CellType.f2n, List.filter_cons, List.filter_nil, decide_eq_true_eq,
    face_matches_iff h01 h02 h12, List.mem_cons, List.not_mem_nil, or_false, forall_eq_or_imp, forall_eq]
  generalize s.c2n c 0 = a at *
  generalize s.c2n c 1 = b at *
  generalize s.c2n c 2 = e at *
  generalize s.c2n c 3 = d at *
  clear hlist
  have hpigeon : ∀ y z, ¬ ((node0 = y ∨ node0 = z) ∧ (node1 = y ∨ node1 = z) ∧
      (node2 = y ∨ node2 = z)) := by
    intro y z h
    omega
  -- one node of the tet is not on the face, and only the face across from it matches
  have hmissing : (node0 ≠ a ∧ node1 ≠ a ∧ node2 ≠ a) ∨ (node0 ≠ b ∧ node1 ≠ b ∧ node2 ≠ b) ∨
      (node0 ≠ e ∧ node1 ≠ e ∧ node2 ≠ e) ∨ (node0 ≠ d ∧ node1 ≠ d ∧ node2 ≠ d) := by
    omega
  rcases hmissing with ⟨h0, h1, h2⟩ | ⟨h0, h1, h2⟩ | ⟨h0, h1, h2⟩ | ⟨h0, h1, h2⟩ <;>
    simp only [h0, h1, h2, false_or, or_false, hpigeon, if_false] <;>
    split_ifs <;> first | rfl | omega

/-- The tets on the face, each once. -/
theorem RefCell.facesOn_eq {s : RefCell} (hinv : s.CellInv) (hsimple : s.Simple)
    (htype : s.cellType = .tet) (h01 : node0 ≠ node1) (h02 : node0 ≠ node2)
    (h12 : node1 ≠ node2) :
    s.facesOn (splitFaceNodes node0 node1 node2) =
      (s.having node0).filter fun c => ∀ u ∈ [node0, node1, node2], u ∈ s.nodeList c := by
  have hlive : ∀ c ∈ s.having node0, (s.nodeList c).Nodup := fun c hc =>
    hsimple c (hinv.mem_having.mp hc).1
  change (s.having node0).flatMap _ = _
  generalize s.having node0 = l at hlive ⊢
  induction l with
  | nil => rfl
  | cons c rest ih =>
      rw [List.flatMap_cons, ih fun c' hc' => hlive c' (List.mem_cons_of_mem c hc'),
        facesOn_tet htype (hlive c List.mem_cons_self) h01 h02 h12, List.filter_cons]
      by_cases hc : ∀ u ∈ [node0, node1, node2], u ∈ s.nodeList c
      · rw [if_pos hc, if_pos (decide_eq_true hc), List.singleton_append]
      · rw [if_neg hc, if_neg (by simpa using hc), List.nil_append]

/-- The cells that were found are split one after the other. -/
theorem splitBothOnFace_eq {s : RefCell} {found : Int × Int} {l : List Nat}
    (h : RefCell.FoundCells found l) :
    splitBothOnFace node0 node1 node2 newNode s found =
      l.foldlM (splitCellOnFace node0 node1 node2 newNode) s := by
  match l, h with
  | [], h =>
      simp only [RefCell.FoundCells] at h
      subst h
      rfl
  | [a], h =>
      simp only [RefCell.FoundCells] at h
      subst h
      simp only [splitBothOnFace, splitFoundOnFace, refEmpty_ne_natCast, ne_eq, not_false_iff,
        if_true, not_true, if_false, Int.toNat_natCast, List.foldlM_cons, List.foldlM_nil]
      rfl
  | [a, b], h =>
      simp only [RefCell.FoundCells] at h
      subst h
      simp only [splitBothOnFace, splitFoundOnFace, refEmpty_ne_natCast, ne_eq, not_false_iff,
        if_true, Int.toNat_natCast, List.foldlM_cons, List.foldlM_nil, bind_pure]

variable {g g' : RefGrid D}

theorem splitTetsOnFace_ok (hinv : g.CellsInv) (hsimple : (g.cell .tet).Simple)
    (hunused : ∀ c, (g.cell .tet).Live c → newNode ∉ (g.cell .tet).nodeList c)
    (h01 : node0 ≠ node1) (h02 : node0 ≠ node2) (h12 : node1 ≠ node2)
    (hrun : splitTetsOnFace node0 node1 node2 newNode g = .ok g') :
    ∃ s', g' = g.setCell .tet s' ∧
      SplitsCells [node0, node1, node2] newNode (g.cell .tet) s' := by
  simp only [splitTetsOnFace, bind_eq_ok, guarded_eq_ok, mapError_eq_ok] at hrun
  obtain ⟨found, hfound, s', hloop, hset⟩ := hrun
  rw [Except.ok.injEq] at hset
  refine ⟨s', hset.symm, ?_⟩
  have hcells := RefCell.withFace_ok hfound
  rw [RefCell.facesOn_eq (hinv.inv .tet) hsimple (hinv.type .tet) h01 h02 h12] at hcells
  rw [splitBothOnFace_eq hcells] at hloop
  apply splitLoop_spec (hinv.inv .tet) _ (((hinv.inv .tet).nodup_having hsimple node0).filter _) _
    hloop
  · intro s1 s2 gone fresh c h hlive hnot hstep
    exact h.splitCellOnFace hlive hnot (hunused c hlive) hstep
  · intro c
    rw [List.mem_filter, (hinv.inv .tet).mem_having, RefCell.rowHas_cellRow]
    simp only [List.mem_cons, List.not_mem_nil, or_false, forall_eq_or_imp, forall_eq,
      decide_eq_true_eq]
    tauto

/-- Where three nodes lie in one triangle at most, `ref_cell_with` finds it. -/
theorem splitTriOnFace_ok (hinv : g.CellsInv)
    (hunused : ∀ c, (g.cell .tri).Live c → newNode ∉ (g.cell .tri).nodeList c)
    (h01 : node0 ≠ node1) (h02 : node0 ≠ node2) (h12 : node1 ≠ node2)
    (hone : ∀ c c', (g.cell .tri).Live c → (g.cell .tri).Live c' →
      (∀ u ∈ [node0, node1, node2], u ∈ (g.cell .tri).nodeList c) →
      (∀ u ∈ [node0, node1, node2], u ∈ (g.cell .tri).nodeList c') → c = c')
    (hrun : splitTriOnFace node0 node1 node2 newNode g = .ok g') :
    ∃ s', g' = g.setCell .tri s' ∧
      SplitsCells [node0, node1, node2] newNode (g.cell .tri) s' := by
  have hper : (g.cell .tri).nodePer = 3 := by rw [RefCell.nodePer, hinv.type .tri]; rfl
  -- a triangle with the three nodes has no others
  have hset : ∀ c, (∀ u ∈ [node0, node1, node2], u ∈ (g.cell .tri).nodeList c) ↔
      ∀ x, (∃ i, i < (g.cell .tri).nodePer ∧ splitFaceNodes node0 node1 node2 i = x) ↔
        x ∈ (g.cell .tri).nodeList c := by
    intro c
    have hlist : (g.cell .tri).nodeList c = [(g.cell .tri).c2n c 0, (g.cell .tri).c2n c 1,
        (g.cell .tri).c2n c 2] := by
      rw [RefCell.nodeList, hper]
      rfl
    simp only [exists_splitFaceNodes (show 3 ≤ (g.cell .tri).nodePer by omega), hlist,
      List.mem_cons, List.not_mem_nil, or_false, forall_eq_or_imp, forall_eq]
    constructor
    · intro h x
      omega
    · intro h
      exact ⟨(h _).mp (Or.inl rfl), (h _).mp (Or.inr (Or.inl rfl)),
        (h _).mp (Or.inr (Or.inr rfl))⟩
  rcases RefCell.cellWith_spec (hinv.inv .tri) (splitFaceNodes node0 node1 node2) with
    ⟨c, hfound, hlive, hnodes⟩ | ⟨hfound, hnone⟩
  · simp only [splitTriOnFace, hfound, bind_eq_ok, mapError_eq_ok] at hrun
    obtain ⟨s', hstep, hsetc⟩ := hrun
    rw [Except.ok.injEq] at hsetc
    refine ⟨s', hsetc.symm, ?_⟩
    have hloop : [c].foldlM (splitCellOnFace node0 node1 node2 newNode) (g.cell .tri) = .ok s' := by
      rw [List.foldlM_cons, hstep]
      rfl
    apply splitLoop_spec (hinv.inv .tri) _ (List.nodup_singleton c) _ hloop
    · intro s1 s2 gone fresh c h hlive hnot hstep
      exact h.splitCellOnFace hlive hnot (hunused c hlive) hstep
    · intro c'
      rw [List.mem_singleton, RefCell.rowHas_cellRow]
      constructor
      · rintro rfl
        exact ⟨hlive, (hset c').mpr hnodes⟩
      · intro hc'
        exact hone c' c hc'.1 hlive hc'.2 ((hset c).mpr hnodes)
  · simp only [splitTriOnFace, hfound, Except.ok.injEq] at hrun
    refine ⟨g.cell .tri, ?_, SplitsCells.refl (hinv.inv .tri) ?_⟩
    · rw [← hrun, RefGrid.setCell, Function.update_eq_self]
    · intro c hlive hhas
      rw [RefCell.rowHas_cellRow] at hhas
      exact hnone c hlive ((hset c).mp hhas)

/-- **A successful `ref_split_face`.** -/
theorem splitFace_ok (hinv : g.CellsInv) (hsimple : ∀ t ∈ [CellType.tet, .tri], (g.cell t).Simple)
    (hunused : g.Unused newNode) (h01 : node0 ≠ node1) (h02 : node0 ≠ node2) (h12 : node1 ≠ node2)
    (hone : ∀ c c', (g.cell .tri).Live c → (g.cell .tri).Live c' →
      (∀ u ∈ [node0, node1, node2], u ∈ (g.cell .tri).nodeList c) →
      (∀ u ∈ [node0, node1, node2], u ∈ (g.cell .tri).nodeList c') → c = c')
    (hrun : splitFace node0 node1 node2 newNode g = .ok g') :
    SplitsGrid [node0, node1, node2] newNode [.tet, .tri] g g' := by
  simp only [splitFace, bind_eq_ok] at hrun
  obtain ⟨g1, h1, h2⟩ := hrun
  obtain ⟨tets, rfl, htets⟩ :=
    splitTetsOnFace_ok hinv (hsimple _ (by simp)) (hunused .tet) h01 h02 h12 h1
  have htri : (g.setCell .tet tets).cell .tri = g.cell .tri :=
    g.setCell_cell_of_ne tets (by decide)
  obtain ⟨tris, rfl, htris⟩ := splitTriOnFace_ok
    (hinv.setCell (htets.type.trans (hinv.type .tet)) htets.inv)
    (by rw [htri]; exact hunused .tri) h01 h02 h12 (by rw [htri]; exact hone) h2
  rw [htri] at htris
  constructor
  · rfl
  · rfl
  · intro t ht
    simp only [List.mem_cons, List.not_mem_nil, or_false, not_or] at ht
    rw [RefGrid.setCell_cell_of_ne _ _ ht.2, RefGrid.setCell_cell_of_ne _ _ ht.1]
  · intro t ht
    simp only [List.mem_cons, List.not_mem_nil, or_false] at ht
    rcases ht with rfl | rfl
    · rw [RefGrid.setCell_cell_of_ne _ _ (by decide), RefGrid.setCell_cell_self]
      exact htets
    · rw [RefGrid.setCell_cell_self]
      exact htris

end Face
/-! ## The whole operations -/

section Whole

variable {g g' : RefGrid D} {node0 node1 node2 newNode : Int}

/-- The cells with two nodes, counted by their rows. -/
theorem RefCell.length_having2 {s : RefCell} (hinv : s.CellInv) (hsimple : s.Simple)
    (v w : Int) :
    (s.having2 v w).length = (s.cells.filter (RowHas s.nodePer [v, w])).card := by
  rw [← RefCell.rows_of_mem_iff (hinv.nodup_having2 hsimple v w), Multiset.coe_card,
    List.length_map]
  intro c
  rw [hinv.mem_having2, RefCell.rowHas_cellRow]
  simp

/-- The triangles with some nodes, counted by their rows. -/
theorem RefGrid.CellsInv.card_tris (hinv : g.CellsInv) (ends : List Int) :
    (g.tris.filter fun f => ∀ u ∈ ends, u ∈ f.corners).card =
      ((g.cell .tri).cells.filter (RowHas (g.cell .tri).nodePer ends)).card := by
  rw [RefGrid.tris, Multiset.filter_map, Multiset.card_map]
  congr 1
  apply Multiset.filter_congr
  intro row hrow
  obtain ⟨c, _, rfl⟩ := RefCell.mem_cells.mp hrow
  rw [RefCell.rowHas_cellRow, Function.comp_apply, corners_triOf (hinv.type .tri)]

theorem RefGrid.EdgesInTwoTris.length_having2 (hedges : g.EdgesInTwoTris) (hg : g.Conforming)
    (h01 : node0 ≠ node1) : ((g.cell .tri).having2 node0 node1).length ≤ 2 := by
  rw [RefCell.length_having2 (hg.inv.inv .tri) (hg.simple _ (by simp)), ← hg.inv.card_tris]
  have htwo := hedges node0 node1 h01
  simp only [List.mem_cons, List.not_mem_nil, or_false, forall_eq_or_imp, forall_eq]
  exact htwo

/-- The triangle on a face is unique. -/
theorem RefGrid.Conforming.tri_unique (hg : g.Conforming) (hedges : g.EdgesInTwoTris)
    (h01 : node0 ≠ node1) (h02 : node0 ≠ node2) (h12 : node1 ≠ node2) {c c' : Nat}
    (hc : (g.cell .tri).Live c) (hc' : (g.cell .tri).Live c')
    (hin : ∀ u ∈ [node0, node1, node2], u ∈ (g.cell .tri).nodeList c)
    (hin' : ∀ u ∈ [node0, node1, node2], u ∈ (g.cell .tri).nodeList c') : c = c' := by
  have hone := hg.faces.card_corners_le_one (hg.inv.simple_tris (hg.simple _ (by simp))) h01 h02
    h12 (hedges node0 node1 h01)
  have hcard := hg.inv.card_tris [node0, node1, node2]
  simp only [List.mem_cons, List.not_mem_nil, or_false, forall_eq_or_imp, forall_eq] at hcard
  rw [hcard, RefCell.cells, Multiset.filter_coe, Multiset.coe_card, List.filter_map,
    List.length_map] at hone
  have hmem : ∀ {c}, (g.cell .tri).Live c →
      (∀ u ∈ [node0, node1, node2], u ∈ (g.cell .tri).nodeList c) →
      c ∈ (g.cell .tri).validCells.filter ((fun row =>
        decide (RowHas (g.cell .tri).nodePer [node0, node1, node2] row)) ∘
          (g.cell .tri).cellRow) := by
    intro c hlive hnodes
    rw [List.mem_filter, RefCell.mem_validCells, Function.comp_apply, decide_eq_true_eq,
      RefCell.rowHas_cellRow]
    exact ⟨hlive, hnodes⟩
  generalize (g.cell .tri).validCells.filter _ = l at hone hmem
  rcases l with _ | ⟨x, _ | ⟨y, l⟩⟩
  · exact absurd (hmem hc hin) List.not_mem_nil
  · rw [List.mem_singleton.mp (hmem hc hin), List.mem_singleton.mp (hmem hc' hin')]
  · rw [List.length_cons, List.length_cons] at hone
    omega

/-- `REF_INCREASE_LIMIT` comes from the list of cells, before one is changed. -/
theorem splitGroupOnEdge_increaseLimit {t : CellType}
    (hrun : splitGroupOnEdge node0 node1 newNode t g = .error (.increaseLimit, g')) :
    g' = g ∧ maxCellSplit < ((g.cell t).having2 node0 node1).length := by
  rw [splitGroupOnEdge, bind_eq_error] at hrun
  rcases hrun with hlist | ⟨l, hlist, hrun⟩
  · obtain ⟨hlimit, rfl⟩ := guarded_eq_error.mp hlist
    refine ⟨rfl, ?_⟩
    simp only [RefCell.listWith2] at hlimit
    split at hlimit
    · assumption
    · cases hlimit
  · rw [bind_eq_error] at hrun
    rcases hrun with hloop | ⟨s, _, hret⟩
    · cases hfold : l.foldlM (splitCellOnEdge node0 node1 newNode) (g.cell t) with
      | ok s =>
          rw [hfold] at hloop
          cases hloop
      | error failed =>
          obtain ⟨s, cell, hstep⟩ := exists_of_foldlM_error hfold
          rw [hfold] at hloop
          simp only [Except.mapError, Except.error.injEq, Prod.mk.injEq] at hloop
          obtain ⟨status, s'⟩ := failed
          obtain rfl : status = .increaseLimit := hloop.1
          exact absurd hstep (splitCellOnEdge_ne_increaseLimit node0 node1 newNode s cell s')
    · cases hret

/-- **Splits are subdivisions.**  A successful `ref_split_edge` or
`ref_split_face` replaces the cells on the edge or the face by two or three
each, with the new node in the place of one end, and leaves the triangles the
boundary of the tets; `ref_split_edge` that gives up on a full list has changed
nothing. -/
theorem split_subdivides (g : RefGrid D) (node0 node1 newNode : Int) (hg : g.Conforming)
    (hedges : g.EdgesInTwoTris) (h01 : node0 ≠ node1) (hunused : g.Unused newNode) :
    (∀ g', splitEdge node0 node1 newNode g = .ok g' →
      SplitsGrid [node0, node1] newNode [.tet, .tri, .edg] g g' ∧
        boundary g'.tets = chain g'.tris) ∧
    (∀ node2, node0 ≠ node2 → node1 ≠ node2 → ∀ g',
      splitFace node0 node1 node2 newNode g = .ok g' →
      SplitsGrid [node0, node1, node2] newNode [.tet, .tri] g g' ∧
        boundary g'.tets = chain g'.tris) ∧
    (((g.cell .edg).cells.filter (RowHas 2 [node0, node1])).card ≤ maxCellSplit →
      ∀ g', splitEdge node0 node1 newNode g = .error (.increaseLimit, g') → g' = g) := by
  have hsimple := hg.inv.simple_tets (hg.simple _ (by simp))
  refine ⟨?_, ?_, ?_⟩
  · intro g' hrun
    have hsplit := splitEdge_ok hg.inv hg.simple hunused hrun
    refine ⟨hsplit, ?_⟩
    rw [hsplit.tets hg.inv (by simp), hsplit.tris hg.inv (by simp)]
    exact boundary_cut_two hg.faces.boundary_eq hsimple h01 newNode
  · intro node2 h02 h12 g' hrun
    have hsplit := splitFace_ok hg.inv (fun t ht => hg.simple t (by simp_all; tauto)) hunused h01
      h02 h12 (fun c c' hc hc' hin hin' => hg.tri_unique hedges h01 h02 h12 hc hc' hin hin') hrun
    refine ⟨hsplit, ?_⟩
    rw [hsplit.tets hg.inv (by simp), hsplit.tris hg.inv (by simp)]
    exact boundary_cut_three hg.faces.boundary_eq hsimple h01 h02 h12 newNode
  · intro hedgs g' hrun
    rw [splitEdge, bind_eq_error] at hrun
    rcases hrun with hfail | ⟨g1, h1, hrun⟩
    · exact (splitGroupOnEdge_increaseLimit hfail).1
    · obtain ⟨tets, rfl, _⟩ :=
        splitGroupOnEdge_ok (hg.inv.inv .tet) (hg.simple _ (by simp)) (hunused .tet) h1
      have htri : (g.setCell .tet tets).cell .tri = g.cell .tri :=
        g.setCell_cell_of_ne tets (by decide)
      rw [bind_eq_error] at hrun
      -- neither the triangles nor the edgs fill the list
      rcases hrun with hfail | ⟨g2, h2, hfail⟩
      · have hlong := (splitGroupOnEdge_increaseLimit hfail).2
        rw [htri] at hlong
        have hshort := hedges.length_having2 hg h01
        unfold maxCellSplit at hlong
        omega
      · obtain ⟨tris, rfl, _⟩ := splitGroupOnEdge_ok (by rw [htri]; exact hg.inv.inv .tri)
          (by rw [htri]; exact hg.simple _ (by simp)) (by rw [htri]; exact hunused .tri) h2
        have hedg : ((g.setCell .tet tets).setCell .tri tris).cell .edg = g.cell .edg := by
          rw [RefGrid.setCell_cell_of_ne _ _ (by decide),
            RefGrid.setCell_cell_of_ne _ _ (by decide)]
        have hlong := (splitGroupOnEdge_increaseLimit hfail).2
        have hper : (g.cell .edg).nodePer = 2 := by rw [RefCell.nodePer, hg.inv.type .edg]; rfl
        rw [hedg, RefCell.length_having2 (hg.inv.inv .edg) (hg.simple _ (by simp)), hper] at hlong
        omega

end Whole

/-- One tet with its four faces, and its first edge `edgs` times. -/
def tetRows (edgs : Nat) : CellType → List (List Int)
  | .tet => [[0, 1, 2, 3]]
  | .tri => [[1, 3, 2, 5], [0, 2, 3, 5], [0, 3, 1, 6], [0, 1, 2, 6]]
  | .edg => List.replicate edgs [0, 1, 7]
  | _ => []

/-- The grid of one tet. -/
def tetGrid (edgs : Nat) : RefGrid Int := RefGrid.ofRows fourNodes noGeom (tetRows edgs)

theorem tetRows_fit {edgs : Nat} (h : edgs ≤ 5100) (t : CellType) :
    RefCell.RowsFit t (tetRows edgs t) := by
  cases t with
  | edg =>
      refine ⟨by simpa [tetRows] using h, ?_⟩
      intro row hrow
      rw [tetRows, List.mem_replicate] at hrow
      obtain ⟨-, rfl⟩ := hrow
      decide
  | _ => exact of_decide_eq_true rfl

theorem tetGrid_conforming {edgs : Nat} (h : edgs ≤ 5100) : (tetGrid edgs).Conforming := by
  apply RefGrid.ofRows_conforming (tetRows_fit h)
  · intro t ht
    simp only [List.mem_cons, List.not_mem_nil, or_false] at ht
    rcases ht with rfl | rfl | rfl
    · exact show ∀ row ∈ tetRows 0 .tet, (row.take 4).Nodup by decide
    · exact show ∀ row ∈ tetRows 0 .tri, (row.take 3).Nodup by decide
    · intro row hrow
      rw [tetRows, List.mem_replicate] at hrow
      obtain ⟨-, rfl⟩ := hrow
      decide
  · exact show Unshared ((tetRows 0 .tet).map tetOf : Multiset (Tet Int))
      ((tetRows 0 .tri).map triOf : Multiset (Tri Int)) by decide

theorem tetGrid_edges {edgs : Nat} (h : edgs ≤ 5100) : (tetGrid edgs).EdgesInTwoTris := by
  apply RefGrid.ofRows_edgesInTwoTris (tetRows_fit h .tri)
  exact show ∀ f ∈ (tetRows 0 .tri).map triOf, ∀ u ∈ f.corners, ∀ v ∈ f.corners, u ≠ v →
    (((tetRows 0 .tri).map triOf : Multiset (Tri Int)).filter
      fun f => u ∈ f.corners ∧ v ∈ f.corners).card ≤ 2 by decide

theorem tetGrid_unused {edgs : Nat} (h : edgs ≤ 5100) : (tetGrid edgs).Unused 4 := by
  apply RefGrid.ofRows_unused (tetRows_fit h)
  intro t row hrow
  cases t with
  | tet => exact (show ∀ row ∈ tetRows 0 .tet, (4 : Int) ∉ row.take 4 by decide) row hrow
  | tri => exact (show ∀ row ∈ tetRows 0 .tri, (4 : Int) ∉ row.take 3 by decide) row hrow
  | edg =>
      rw [tetRows, List.mem_replicate] at hrow
      obtain ⟨-, rfl⟩ := hrow
      decide
  | _ => cases hrow

theorem split_subdivides_tetGrid :
    (∃ g', splitEdge 0 1 4 (tetGrid 1) = .ok g' ∧
      SplitsGrid [0, 1] 4 [.tet, .tri, .edg] (tetGrid 1) g' ∧
        boundary g'.tets = chain g'.tris) ∧
    (∃ g', splitFace 0 1 2 4 (tetGrid 1) = .ok g' ∧
      SplitsGrid [0, 1, 2] 4 [.tet, .tri] (tetGrid 1) g' ∧ boundary g'.tets = chain g'.tris) := by
  obtain ⟨hedge, hface, _⟩ := split_subdivides (tetGrid 1) 0 1 4
    (tetGrid_conforming (by decide)) (tetGrid_edges (by decide)) (by decide)
    (tetGrid_unused (by decide))
  obtain ⟨g1, h1⟩ : ∃ g', splitEdge 0 1 4 (tetGrid 1) = .ok g' :=
    exists_ok_of_succeeds (by decide +kernel)
  obtain ⟨g2, h2⟩ : ∃ g', splitFace 0 1 2 4 (tetGrid 1) = .ok g' :=
    exists_ok_of_succeeds (by decide +kernel)
  exact ⟨⟨g1, h1, hedge g1 h1⟩, ⟨g2, h2, hface 2 (by decide) (by decide) g2 h2⟩⟩

/-- With the edge in more than `MAX_CELL_SPLIT` edgs, `ref_split_edge` gives up
when the tets and triangles are split already. -/
theorem splitEdge_late_limit :
    ¬ ∀ (g : RefGrid Int) (node0 node1 newNode : Int), g.Conforming → g.EdgesInTwoTris →
      node0 ≠ node1 → g.Unused newNode →
      ∀ g', splitEdge node0 node1 newNode g = .error (.increaseLimit, g') →
        (g'.cell .tet).cells = (g.cell .tet).cells := by
  intro h
  have hg := tetGrid_conforming (show 101 ≤ 5100 by decide)
  have hunused := tetGrid_unused (show 101 ≤ 5100 by decide)
  obtain ⟨g1, h1⟩ : ∃ g', splitGroupOnEdge 0 1 4 .tet (tetGrid 101) = .ok g' :=
    exists_ok_of_succeeds (by decide +kernel)
  obtain ⟨tets, rfl, htets⟩ :=
    splitGroupOnEdge_ok (hg.inv.inv .tet) (hg.simple _ (by simp)) (hunused .tet) h1
  obtain ⟨g2, h2⟩ : ∃ g', (splitGroupOnEdge 0 1 4 .tet (tetGrid 101) >>=
      splitGroupOnEdge 0 1 4 .tri) = .ok g' := exists_ok_of_succeeds (by decide +kernel)
  obtain ⟨_, h1', h2'⟩ := bind_eq_ok.mp h2
  rw [h1, Except.ok.injEq] at h1'
  subst h1'
  have htri : ((tetGrid 101).setCell .tet tets).cell .tri = (tetGrid 101).cell .tri :=
    RefGrid.setCell_cell_of_ne _ tets (by decide)
  obtain ⟨tris, rfl, _⟩ := splitGroupOnEdge_ok (by rw [htri]; exact hg.inv.inv .tri)
    (by rw [htri]; exact hg.simple _ (by simp)) (by rw [htri]; exact hunused .tri) h2'
  set g2 := ((tetGrid 101).setCell .tet tets).setCell .tri tris with hg2
  have hedg : g2.cell .edg = (tetGrid 101).cell .edg := by
    rw [hg2, RefGrid.setCell_cell_of_ne _ _ (by decide), RefGrid.setCell_cell_of_ne _ _ (by decide)]
  have hcells : ((tetGrid 101).cell .edg).cells = ((tetRows 101 .edg : List (List Int)) :
      Multiset (List Int)) := RefGrid.cells_ofRows (tetRows_fit (by decide) .edg)
  have hper : ((tetGrid 101).cell .edg).nodePer = 2 := by
    rw [RefCell.nodePer, hg.inv.type .edg]
    rfl
  have hlong : maxCellSplit < ((g2.cell .edg).having2 0 1).length := by
    rw [hedg, RefCell.length_having2 (hg.inv.inv .edg) (hg.simple _ (by simp)), hper, hcells]
    decide +kernel
  have hlimit : splitGroupOnEdge 0 1 4 .edg g2 = .error (.increaseLimit, g2) := by
    simp only [splitGroupOnEdge, RefCell.listWith2, if_pos hlong]
    rfl
  have hrun : splitEdge 0 1 4 (tetGrid 101) = .error (.increaseLimit, g2) := by
    unfold splitEdge
    exact bind_eq_error.mpr (Or.inr ⟨_, h1, bind_eq_error.mpr (Or.inr ⟨_, h2', hlimit⟩)⟩)
  have hsame := h (tetGrid 101) 0 1 4 hg (tetGrid_edges (by decide)) (by decide) hunused g2 hrun
  -- two tets in the place of one
  have htet : g2.cell .tet = tets := by
    rw [hg2, RefGrid.setCell_cell_of_ne _ _ (by decide), RefGrid.setCell_cell_self]
  have hrows : ((tetGrid 101).cell .tet).cells = ((tetRows 101 .tet : List (List Int)) :
      Multiset (List Int)) := RefGrid.cells_ofRows (tetRows_fit (by decide) .tet)
  have hper4 : ((tetGrid 101).cell .tet).nodePer = 4 := by
    rw [RefCell.nodePer, hg.inv.type .tet]
    rfl
  have hsplit := htets.cells
  rw [← htet, hsame, hrows, hper4] at hsplit
  have hcount := congrArg Multiset.card hsplit
  revert hcount
  decide +kernel

end RefineMesh
