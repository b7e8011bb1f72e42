import Mathlib.Tactic
import RefineMesh.GridParts
import RefineMesh.IsoRuns

/-!
# The isosurface is closed inside the mesh

The surface of `ref_iso_insert` as a set of cells: one node on each edge on
which the field changes its sign, as many cells on a side as the mesh has cells
on the facet of that side.
-/

namespace RefineMesh

open ArrayLoop Segments Spmd CutTable

variable {D : Type} [RefIsoDbl D]

/-- The edges of the grid on which the field changes its sign. -/
def crossing (g : RefGrid D) (field : Nat → D) : Set (Sym2 Int) :=
  {e | ∃ pair ∈ RefEdge.gridEdges g, e = s(pair.1, pair.2) ∧
    Crosses field pair.1.toNat pair.2.toNat}

/-- How many cells have all the nodes. -/
def RefCell.sharing (s : RefCell) (nodes : Finset Int) : Nat :=
  (s.validCells.filter fun c => ∀ v ∈ nodes, v ∈ s.nodeList c).length

/-- The sign of the field at a node. -/
def positiveAt (field : Nat → D) (v : Int) : Bool := RefDbl.zero < field v.toNat

theorem crosses_comm {field : Nat → D} {a b : Nat} : Crosses field a b ↔ Crosses field b a := by
  unfold Crosses
  rw [max_comm, min_comm]

theorem crosses_ne {field : Nat → D} {a b : Nat} (h : Crosses field a b) : a ≠ b := by
  rintro rfl
  have h0 := h.1
  rw [max_self] at h0
  have h1 := h.2
  rw [min_self] at h1
  exact lt_asymm h0 h1

theorem crosses_iff {field : Nat → D} {v w : Int} (hv : field v.toNat ≠ RefDbl.zero)
    (hw : field w.toNat ≠ RefDbl.zero) :
    Crosses field v.toNat w.toNat ↔ positiveAt field v ≠ positiveAt field w := by
  have hv' := lt_or_gt_of_ne hv
  have hw' := lt_or_gt_of_ne hw
  unfold Crosses positiveAt
  rw [lt_max_iff, min_lt_iff, ne_eq, decide_eq_decide]
  rcases hv' with h | h
  · rcases hw' with h' | h'
    · simp [h, h', lt_asymm h, lt_asymm h']
    · simp [h, h', lt_asymm h, lt_asymm h']
  · rcases hw' with h' | h'
    · simp [h, h', lt_asymm h, lt_asymm h']
    · simp [h, h', lt_asymm h, lt_asymm h']

/-! ## One node on each edge -/

namespace RefEdge

/-- The new node between two nodes. -/
def nodeBetween (s : RefEdge) (newNode : Nat → Int) (a b : Int) : Int :=
  match s.edgeWith a b with
  | .ok edge => newNode edge
  | .error _ => refEmpty

/-- The new node of an edge. -/
def pointOn {s : RefEdge} (h : s.EdgeInv) (newNode : Nat → Int) : Sym2 Int → Int :=
  Sym2.lift ⟨s.nodeBetween newNode, fun a b => by
    unfold nodeBetween
    rw [edgeWith_comm h]⟩

variable {s : RefEdge} {newNode : Nat → Int}

theorem pointOn_joins (h : s.EdgeInv) {e : Nat} {a b : Int} (he : e < s.n) (hj : s.Joins e a b) :
    pointOn h newNode s(a, b) = newNode e := by
  change s.nodeBetween newNode a b = newNode e
  rw [nodeBetween, edgeWith_of_joins h he hj]

theorem crosses_of_joins {field : Nat → D} {e : Nat} {a b : Int} (hj : s.Joins e a b) :
    Crosses field (s.endNode e 0) (s.endNode e 1) ↔ Crosses field a.toNat b.toNat := by
  unfold endNode
  rcases hj with ⟨rfl, rfl⟩ | ⟨rfl, rfl⟩
  · rfl
  · exact crosses_comm

/-- **One node for each edge on which the field changes its sign.** -/
theorem pointOn_bijOn {g : RefGrid D} {field : Nat → D} {isoNode : RefNode D}
    (hcover : s.Covers (gridEdges g)) (hpart : ∀ e, e < s.n → g.node.rank = s.edgePart g.node e)
    (h : PointsOn s g.node field (fun e => e ∈ List.range s.n ∧ s.Cuts g.node field e) isoNode
      newNode) :
    Set.BijOn (pointOn hcover.inv newNode) (crossing g field)
      {x | 0 ≤ x ∧ isoNode.Live x.toNat} := by
  have hedge : ∀ e' ∈ crossing g field, ∃ e a b, e' = s(a, b) ∧ s.Joins e a b ∧ e < s.n ∧
      (e ∈ List.range s.n ∧ s.Cuts g.node field e) ∧ pointOn hcover.inv newNode e' = newNode e := by
    intro e' he'
    obtain ⟨⟨a, b⟩, hin, rfl, hcross⟩ := he'
    obtain ⟨e, he, hj⟩ := hcover.found _ hin
    exact ⟨e, a, b, rfl, hj, he, ⟨List.mem_range.mpr he, hpart e he, (crosses_of_joins hj).mpr hcross⟩,
      pointOn_joins hcover.inv he hj⟩
  refine ⟨?_, ?_, ?_⟩
  · intro e' he'
    obtain ⟨e, a, b, _, _, _, hcut, heq⟩ := hedge e' he'
    obtain ⟨k, hk, hlive, _⟩ := h.made e hcut
    rw [heq, hk]
    exact ⟨Int.natCast_nonneg k, by rwa [Int.toNat_natCast]⟩
  · intro e1 h1 e2 h2 heq
    obtain ⟨e, a, b, rfl, hj, _, hcut, hpoint⟩ := hedge e1 h1
    obtain ⟨e', a', b', rfl, hj', _, _, hpoint'⟩ := hedge e2 h2
    rw [hpoint, hpoint'] at heq
    obtain rfl := h.once e e' hcut heq
    rw [Sym2.eq_iff]
    unfold Joins at hj hj'
    grind
  · intro x hx
    obtain ⟨hpos, hlive⟩ := hx
    obtain ⟨e, ⟨he, hcut⟩, hnew⟩ := h.onto _ hlive
    have hlt := List.mem_range.mp he
    obtain ⟨pair, hin, hj⟩ := hcover.joins e hlt
    refine ⟨s(pair.1, pair.2), ⟨pair, hin, rfl, (crosses_of_joins hj).mp hcut.2⟩, ?_⟩
    rw [pointOn_joins hcover.inv hlt hj, hnew, Int.toNat_of_nonneg hpos]

/-- The lookups of one cell. -/
theorem newNodes_ok {ends : List (Int × Int)} (h : s.EdgeInv) (newNode : Nat → Int)
    (hfound : ∀ pair ∈ ends, ∃ e, e < s.n ∧ s.Joins e pair.1 pair.2) :
    s.newNodes newNode ends = .ok (ends.map fun pair => pointOn h newNode s(pair.1, pair.2)) := by
  induction ends with
  | nil => rfl
  | cons pair rest ih =>
      obtain ⟨e, he, hj⟩ := hfound pair List.mem_cons_self
      rw [newNodes, List.mapM_cons, bind_eq_ok]
      refine ⟨newNode e, ?_, ?_⟩
      · rw [edgeWith_of_joins h he hj]
        rfl
      · rw [bind_eq_ok]
        refine ⟨_, ih fun p hp => hfound p (List.mem_cons_of_mem pair hp), ?_⟩
        rw [List.map_cons, pointOn_joins h he hj]
        rfl

end RefEdge

/-! ## The mesh as a cutting -/

/-- The cells of a store, cut by a table. -/
def cellCutting (s : RefCell) (ends : List (Nat × Nat)) (pieces : (Nat → Bool) → List (List Nat))
    (field : Nat → D) (point : Sym2 Int → Int) : Cutting Nat Int Int :=
  { size := s.nodePer
    ends := ends
    corner := s.c2n
    pieces := fun c => pieces (edgeCut ends fun i => positiveAt field (s.c2n c i))
    point := point }

/-- The edges of a table are the pairs of corners. -/
def CompleteEnds (size : Nat) (ends : List (Nat × Nat)) : Prop :=
  (∀ k, k < ends.length → (ends.getD k (0, 0)).1 < (ends.getD k (0, 0)).2 ∧
    (ends.getD k (0, 0)).2 < size) ∧
  (∀ k, k < ends.length → ∀ l, l < ends.length → ends.getD k (0, 0) = ends.getD l (0, 0) → k = l) ∧
  ∀ j, j < size → ∀ i, i < j → ∃ k, k < ends.length ∧ ends.getD k (0, 0) = (i, j)

theorem completeEnds_tri : CompleteEnds 3 triEnds := by
  unfold CompleteEnds
  decide

theorem completeEnds_tet : CompleteEnds 4 CellType.tet.e2n := by
  unfold CompleteEnds
  decide

section Cutting

variable {g : RefGrid D} {field : Nat → D} {point : Sym2 Int → Int} {t : CellType}
  {ends : List (Nat × Nat)} {pieces : (Nat → Bool) → List (List Nat)} {corners : Nat}

omit [RefIsoDbl D] in
/-- The edges of the cells of a type are edges of the grid. -/
theorem edge_of_cell (ht : t ∈ types3d ++ types2d) (htype : (g.cell t).cellType = t)
    {c : Nat} (hc : (g.cell t).Live c) {e : Nat × Nat} (he : e ∈ t.e2n ∨ (e.2, e.1) ∈ t.e2n) :
    ((g.cell t).c2n c e.1, (g.cell t).c2n c e.2) ∈ RefEdge.gridEdges g ∨
      ((g.cell t).c2n c e.2, (g.cell t).c2n c e.1) ∈ RefEdge.gridEdges g := by
  refine he.imp (fun h => ?_) fun h => ?_
  · exact RefEdge.mem_gridEdges ht (RefEdge.mem_cellEdges.mpr
      ⟨c, hc, e, by rwa [htype], rfl, rfl⟩)
  · exact RefEdge.mem_gridEdges ht (RefEdge.mem_cellEdges.mpr
      ⟨c, hc, (e.2, e.1), by rwa [htype], rfl, rfl⟩)

/-- An edge of a cell is cut when its ends differ in sign. -/
theorem edgeAt_mem_crossing (ht : t ∈ types3d ++ types2d)
    (htype : (g.cell t).cellType = t)
    (hends : ∀ k, k < ends.length → ends.getD k (0, 0) ∈ t.e2n ∨
      ((ends.getD k (0, 0)).2, (ends.getD k (0, 0)).1) ∈ t.e2n)
    (hfield : ∀ c, (g.cell t).Live c → ∀ i, i < t.nodePer →
      field ((g.cell t).c2n c i).toNat ≠ RefDbl.zero)
    (hcomplete : CompleteEnds t.nodePer ends) {c k : Nat} (hc : (g.cell t).Live c)
    (hk : k < ends.length) :
    (cellCutting (g.cell t) ends pieces field point).edgeAt c k ∈ crossing g field ↔
      edgeCut ends (fun i => positiveAt field ((g.cell t).c2n c i)) k = true := by
  obtain ⟨hlt, hb⟩ := hcomplete.1 k hk
  set e := ends.getD k (0, 0) with he
  have h1 := hfield c hc e.1 (by omega)
  have h2 := hfield c hc e.2 hb
  have hsign := crosses_iff h1 h2
  have hcut : edgeCut ends (fun i => positiveAt field ((g.cell t).c2n c i)) k = true ↔
      Crosses field ((g.cell t).c2n c e.1).toNat ((g.cell t).c2n c e.2).toNat := by
    rw [hsign, edgeCut, bne_iff_ne]
  rw [hcut]
  change s((g.cell t).c2n c e.1, (g.cell t).c2n c e.2) ∈ crossing g field ↔ _
  constructor
  · intro hin
    obtain ⟨pair, _, heq, hcross⟩ := hin
    rcases Sym2.eq_iff.mp heq with ⟨e1, e2⟩ | ⟨e1, e2⟩
    · rw [e1, e2]
      exact hcross
    · rw [e1, e2]
      exact crosses_comm.mp hcross
  · intro hcross
    rcases edge_of_cell ht htype hc (hends k hk) with hin | hin
    · exact ⟨_, hin, rfl, hcross⟩
    · exact ⟨_, hin, Sym2.eq_swap, crosses_comm.mp hcross⟩

variable (ends pieces corners) in
/-- **The cells of a type are cut by their table.** -/
theorem cellCutting_fits (ht : t ∈ types3d ++ types2d)
    (htype : (g.cell t).cellType = t) (hsimple : (g.cell t).Simple)
    (hends : ∀ k, k < ends.length → ends.getD k (0, 0) ∈ t.e2n ∨
      ((ends.getD k (0, 0)).2, (ends.getD k (0, 0)).1) ∈ t.e2n)
    (hfield : ∀ c, (g.cell t).Live c → ∀ i, i < t.nodePer →
      field ((g.cell t).c2n c i).toNat ≠ RefDbl.zero)
    (hcomplete : CompleteEnds t.nodePer ends)
    (htable : ∀ sign, PiecesFit t.nodePer ends (edgeCut ends sign) corners
      (pieces (edgeCut ends sign)))
    (hpoint : Set.InjOn point (crossing g field)) :
    (cellCutting (g.cell t) ends pieces field point).Fits (crossing g field)
      (g.cell t).validCells := by
  have hper : (g.cell t).nodePer = t.nodePer := by rw [RefCell.nodePer, htype]
  refine ⟨?_, ?_, ?_, ?_, ?_, ?_, ?_, hpoint⟩
  · intro c hc i j hi hj heq
    have hnodup := hsimple c (RefCell.mem_validCells.mp hc)
    exact List.inj_on_of_nodup_map hnodup (List.mem_range.mpr hi) (List.mem_range.mpr hj) heq
  · intro k hk
    have := hcomplete.1 k hk
    rwa [← hper] at this
  · exact fun k l hk hl => hcomplete.2.1 k hk l hl
  · intro i j hij hj
    exact hcomplete.2.2 j (hper ▸ hj) i hij
  · intro c hc K hK k hk
    obtain ⟨hlt, hcut⟩ := ((htable _).1 K hK).2.1 k hk
    exact ⟨hlt, (edgeAt_mem_crossing ht htype hends hfield hcomplete
      (RefCell.mem_validCells.mp hc) hlt).mpr hcut⟩
  · intro c _ K hK i hi
    exact ((htable _).1 K hK).2.2 i (hper ▸ hi)
  · intro c _
    exact (htable _).2.1.imp fun hne heq => hne fun k _ => heq k

end Cutting

/-! ## The surface as a store -/

/-- A piece as a row of the surface. -/
def pieceRow (q : List Int) : Nat → Int := fun node => (q ++ [1]).getD node 0

section Store

variable {T : Cutting Nat Int Int} {cells : List Nat} {u : CellType} {s : RefCell}

theorem map_pieceRow {q : List Int} (hid : u.sizePer = u.nodePer + 1) (hq : q.length = u.nodePer) :
    (List.range u.sizePer).map (pieceRow q) = q ++ [1] := by
  apply List.ext_getElem
  · simp [hid, hq]
  · intro i hi hi'
    simp only [List.getElem_map, List.getElem_range, pieceRow]
    rw [List.getD_eq_getElem?_getD, List.getElem?_eq_getElem hi', Option.getD_some]

/-- The rows of the new nodes are the pieces, point by point. -/
theorem isoRow_points {cut : Set (Sym2 Int)} (h : T.Fits cut cells) {c : Nat} (hc : c ∈ cells)
    {edgeNodes : List Int}
    (hnodes : ∀ k, k < T.ends.length → edgeNodes.getD k refEmpty = T.point (T.edgeAt c k)) :
    (T.pieces c).map (isoRow edgeNodes) = (T.points c).map pieceRow := by
  rw [Cutting.points, List.map_map]
  apply List.map_congr_left
  intro K hK
  have hrow : K.map (fun k => edgeNodes.getD k refEmpty) = K.map fun k => T.point (T.edgeAt c k) := by
    apply List.map_congr_left
    intro k hk
    exact hnodes k (h.inside c hc K hK k hk).1
  funext node
  rw [Function.comp_apply, isoRow, hrow, pieceRow]

/-- The store of the surface after the loop over the cells. -/
theorem surface_store (mem : RefCell) {step : RefCell → Nat → Except Status RefCell}
    (hstep : ∀ c ∈ cells, ∀ acc, step acc c = RefSubdiv.addRows acc ((T.points c).map pieceRow))
    (hid : u.sizePer = u.nodePer + 1) (hsize : u.sizePer ≤ 4)
    (hcorners : ∀ c ∈ cells, ∀ q ∈ T.points c, q.length = u.nodePer)
    (hrange : ∀ c ∈ cells, ∀ q ∈ T.points c, ∀ x ∈ q, 0 ≤ x ∧ x + 100 ≤ refIntMax)
    (hlen : (cells.flatMap T.points).length ≤ refIntMax / 4) :
    ∃ s, cells.foldlM step (RefCell.create mem u) = .ok s ∧
      RefCell.Filled u ((cells.flatMap T.points).map fun q => q ++ [1]) s := by
  obtain ⟨s, hrun, hfilled⟩ := Filled.loop (RefCell.Filled.create mem u) hsize
    (fun c => (T.points c).map pieceRow) hstep
    (by rw [List.length_nil, Nat.zero_add, ← List.map_flatMap, List.length_map]; exact hlen)
    (by
      intro c hc nodes hnodes i hi
      obtain ⟨q, hq, rfl⟩ := List.mem_map.mp hnodes
      have hlt : i < q.length := by rw [hcorners c hc q hq]; exact hi
      have hget : pieceRow q i = q[i] := by
        simp [pieceRow, List.getElem?_append_left hlt, hlt]
      rw [hget]
      exact hrange c hc q hq _ (List.getElem_mem hlt))
  refine ⟨s, hrun, ?_⟩
  rw [List.nil_append, ← List.map_flatMap, List.map_map] at hfilled
  rwa [List.map_congr_left] at hfilled
  intro q hq
  obtain ⟨c, hc, hqc⟩ := List.mem_flatMap.mp hq
  exact map_pieceRow hid (hcorners c hc q hqc)

variable {qs : List (List Int)}

theorem take_row {q : List Int} {n : Nat} (hq : q.length = n) : (q ++ [1]).take n = q := by
  rw [← hq, List.take_left]

/-- The cells with given nodes are the pieces with these points. -/
theorem Filled.sharing_eq (h : RefCell.Filled u (qs.map fun q => q ++ [1]) s)
    (hcorners : ∀ q ∈ qs, q.length = u.nodePer) (nodes : Finset Int) :
    s.sharing nodes = qs.countP fun q => ∀ v ∈ nodes, v ∈ q := by
  have hper : s.nodePer = u.nodePer := by rw [RefCell.nodePer, h.type]
  have hperm : (s.validCells.map s.cellRow).Perm (qs.map fun q => q ++ [1]) :=
    Multiset.coe_eq_coe.mp h.cells
  have hcount := hperm.countP_eq fun row => decide (∀ v ∈ nodes, v ∈ row.take u.nodePer)
  rw [List.countP_map, List.countP_map] at hcount
  rw [RefCell.sharing, ← List.countP_eq_length_filter]
  calc s.validCells.countP (fun c => decide (∀ v ∈ nodes, v ∈ s.nodeList c))
      = s.validCells.countP ((fun row => decide (∀ v ∈ nodes, v ∈ row.take u.nodePer)) ∘
          s.cellRow) := by
        apply List.countP_congr
        intro c _
        rw [Function.comp_apply, ← hper, RefCell.take_cellRow]
    _ = qs.countP ((fun row => decide (∀ v ∈ nodes, v ∈ row.take u.nodePer)) ∘
          fun q => q ++ [1]) := hcount
    _ = qs.countP fun q => ∀ v ∈ nodes, v ∈ q := by
        apply List.countP_congr
        intro q hq
        rw [Function.comp_apply, take_row (hcorners q hq)]

theorem Filled.distinctSets (h : RefCell.Filled u (qs.map fun q => q ++ [1]) s)
    (hcorners : ∀ q ∈ qs, q.length = u.nodePer) (hnodup : (qs.map List.toFinset).Nodup) :
    s.DistinctSets := by
  have hper : s.nodePer = u.nodePer := by rw [RefCell.nodePer, h.type]
  apply RefCell.distinctSets_of_nodup
  rw [h.cells, Multiset.map_coe, List.map_map, Multiset.coe_nodup, hper]
  rwa [List.map_congr_left]
  intro q hq
  rw [Function.comp_apply, take_row (hcorners q hq)]

/-- A cell of the surface is a piece. -/
theorem Filled.exists_piece (h : RefCell.Filled u (qs.map fun q => q ++ [1]) s)
    (hcorners : ∀ q ∈ qs, q.length = u.nodePer) {c : Nat} (hc : s.Live c) :
    ∃ q ∈ qs, s.nodeList c = q := by
  have hper : s.nodePer = u.nodePer := by rw [RefCell.nodePer, h.type]
  have hrow : s.cellRow c ∈ s.cells := RefCell.mem_cells.mpr ⟨c, hc, rfl⟩
  rw [h.cells, Multiset.mem_coe, List.mem_map] at hrow
  obtain ⟨q, hq, heq⟩ := hrow
  refine ⟨q, hq, ?_⟩
  rw [← RefCell.take_cellRow, ← heq, hper, take_row (hcorners q hq)]

end Store

/-! ## Sides of the surface in facets of the mesh -/

theorem crossing_ne {g : RefGrid D} {field : Nat → D} {a b : Int}
    (h : s(a, b) ∈ crossing g field) : a ≠ b := by
  obtain ⟨pair, _, heq, hcross⟩ := h
  rintro rfl
  have hne := crosses_ne hcross
  rcases Sym2.eq_iff.mp heq with ⟨e1, e2⟩ | ⟨e1, e2⟩
  · exact hne (by rw [← e1, ← e2])
  · exact hne (by rw [← e1, ← e2])

/-- Opposite edges of a tet have all its corners. -/
theorem opposite_ends : ∀ k, k < 6 → ∀ i, i < 4 →
    i ∈ [(CellType.tet.e2n.getD k (0, 0)).1, (CellType.tet.e2n.getD k (0, 0)).2,
      (CellType.tet.e2n.getD (5 - k) (0, 0)).1, (CellType.tet.e2n.getD (5 - k) (0, 0)).2] := by
  decide

section Sides

variable {g : RefGrid D} {field : Nat → D} {point : Sym2 Int → Int} {t : CellType}
  {ends : List (Nat × Nat)} {pieces : (Nat → Bool) → List (List Nat)}

theorem hasEdge_iff (h : (cellCutting (g.cell t) ends pieces field point).Fits (crossing g field)
    (g.cell t).validCells) {c : Nat} {a b : Int} (hab : a ≠ b) :
    (cellCutting (g.cell t) ends pieces field point).HasEdge c s(a, b) ↔
      a ∈ (g.cell t).nodeList c ∧ b ∈ (g.cell t).nodeList c := by
  constructor
  · intro he
    obtain ⟨k, hk, heq⟩ := he
    obtain ⟨hlt, hb⟩ := h.bound k hk
    have h1 := (g.cell t).c2n_mem_nodeList c (lt_trans hlt hb)
    have h2 := (g.cell t).c2n_mem_nodeList c hb
    rcases Sym2.eq_iff.mp heq with ⟨e1, e2⟩ | ⟨e1, e2⟩
    · exact ⟨e1 ▸ h1, e2 ▸ h2⟩
    · exact ⟨e2 ▸ h2, e1 ▸ h1⟩
  · intro hboth
    obtain ⟨i, hi, rfl⟩ := RefCell.mem_nodeList.mp hboth.1
    obtain ⟨j, hj, rfl⟩ := RefCell.mem_nodeList.mp hboth.2
    exact h.hasEdge_of_corners hi hj fun hij => hab (by rw [hij])

/-- Two edges in a face have all its nodes. -/
theorem face_of_edges {F : Finset Int} (hF : F.card = 3) {a b a' b' : Int} (hab : a ≠ b)
    (hab' : a' ≠ b') (hne : s(a, b) ≠ s(a', b')) (ha : a ∈ F) (hb : b ∈ F) (ha' : a' ∈ F)
    (hb' : b' ∈ F) {v : Int} (hv : v ∈ F) : v = a ∨ v = b ∨ v = a' ∨ v = b' := by
  obtain ⟨w, hw, hwF, hwa, hwb⟩ : ∃ w, (w = a' ∨ w = b') ∧ w ∈ F ∧ w ≠ a ∧ w ≠ b := by
    by_cases h1 : a' = a ∨ a' = b
    · refine ⟨b', Or.inr rfl, hb', ?_⟩
      rw [ne_eq, Sym2.eq_iff] at hne
      grind
    · rw [not_or] at h1
      exact ⟨a', Or.inl rfl, ha', h1⟩
  have hsub : ({a, b, w} : Finset Int) ⊆ F := by
    intro x hx
    simp only [Finset.mem_insert, Finset.mem_singleton] at hx
    rcases hx with rfl | rfl | rfl
    · exact ha
    · exact hb
    · exact hwF
  have hcard : ({a, b, w} : Finset Int).card = 3 := by
    rw [Finset.card_eq_three]
    exact ⟨a, b, w, hab, hwa.symm, hwb.symm, rfl⟩
  have heq := Finset.eq_of_subset_of_card_le hsub (by rw [hF, hcard])
  rw [← heq] at hv
  simp only [Finset.mem_insert, Finset.mem_singleton] at hv
  rcases hv with hv | hv | hv
  · exact Or.inl hv
  · exact Or.inr (Or.inl hv)
  · rw [hv]
    exact Or.inr (Or.inr hw)

/-- **A side in a face of tets** has a triangle in each of them. -/
theorem tet_sides (htype : (g.cell .tet).cellType = .tet)
    (hfield : ∀ c, (g.cell .tet).Live c → ∀ i, i < 4 →
      field ((g.cell .tet).c2n c i).toNat ≠ RefDbl.zero)
    (h : (cellCutting (g.cell .tet) CellType.tet.e2n tetPieces field point).Fits (crossing g field)
      (g.cell .tet).validCells) {e f : Sym2 Int} (he : e ∈ crossing g field)
    (hf : f ∈ crossing g field) (hne : e ≠ f) {F : Finset Int} (hF : F.card = 3)
    (heF : ∀ v ∈ e, v ∈ F) (hfF : ∀ v ∈ f, v ∈ F) :
    (cellCutting (g.cell .tet) CellType.tet.e2n tetPieces field point).having
      (g.cell .tet).validCells [e, f] = (g.cell .tet).sharing F := by
  have hper : (g.cell .tet).nodePer = 4 := by rw [RefCell.nodePer, htype]; rfl
  have hends : ∀ k, k < CellType.tet.e2n.length → CellType.tet.e2n.getD k (0, 0) ∈ CellType.tet.e2n ∨
      ((CellType.tet.e2n.getD k (0, 0)).2, (CellType.tet.e2n.getD k (0, 0)).1) ∈
        CellType.tet.e2n := by decide
  rw [h.having_eq (by simp [he, hf])
    (fun c => decide (∀ v ∈ F, v ∈ (g.cell .tet).nodeList c)) ?_ ?_]
  · rw [RefCell.sharing, ← List.countP_eq_length_filter]
  · intro c hc
    rw [decide_eq_true_eq]
    induction e with | _ a b
    induction f with | _ a' b'
    have hab := crossing_ne he
    have hab' := crossing_ne hf
    simp only [List.mem_cons, List.not_mem_nil, or_false, forall_eq_or_imp, forall_eq,
      hasEdge_iff h hab, hasEdge_iff h hab']
    simp only [Sym2.mem_iff, forall_eq_or_imp, forall_eq] at heF hfF
    constructor
    · intro hall
      exact ⟨⟨hall a heF.1, hall b heF.2⟩, hall a' hfF.1, hall b' hfF.2⟩
    · intro hall v hv
      rcases face_of_edges hF hab hab' hne heF.1 heF.2 hfF.1 hfF.2 hv with rfl | rfl | rfl | rfl
      · exact hall.1.1
      · exact hall.1.2
      · exact hall.2.1
      · exact hall.2.2
  · intro c hc K hK hmap
    obtain ⟨k, K', rfl⟩ : ∃ k K', K = k :: K' := by
      cases K with
      | nil => cases hmap
      | cons k K' => exact ⟨k, K', rfl⟩
    obtain ⟨l, rfl⟩ : ∃ l, K' = [l] := by
      simp only [List.map_cons, List.cons.injEq] at hmap
      cases K' with
      | nil => cases hmap.2
      | cons l rest =>
          cases rest with
          | nil => exact ⟨l, rfl⟩
          | cons m rest => cases (List.cons.inj hmap.2).2
    simp only [List.map_cons, List.map_nil, List.cons.injEq, and_true] at hmap
    obtain ⟨rfl, rfl⟩ := hmap
    have hk : k < 6 := hK k (by simp)
    have hl : l < 6 := hK l (by simp)
    refine (tetCut_sound _).2.2 k hk l hl (fun hkl => hne (by rw [hkl])) ?_ ?_
    · -- opposite edges do not fit into a face
      intro hsum
      obtain rfl : l = 5 - k := by omega
      have hsub : (Finset.range 4).image ((g.cell .tet).c2n c) ⊆ F := by
        intro v hv
        obtain ⟨i, hi, rfl⟩ := Finset.mem_image.mp hv
        have hend := opposite_ends k hk i (Finset.mem_range.mp hi)
        simp only [List.mem_cons, List.not_mem_nil, or_false, ← or_assoc] at hend
        rw [or_assoc] at hend
        rcases hend with hend | hend
        · apply heF
          rw [Cutting.edgeAt, Sym2.mem_iff]
          exact hend.imp (congrArg _) (congrArg _)
        · apply hfF
          rw [Cutting.edgeAt, Sym2.mem_iff]
          exact hend.imp (congrArg _) (congrArg _)
      have hcard : ((Finset.range 4).image ((g.cell .tet).c2n c)).card = 4 := by
        rw [Finset.card_image_of_injOn, Finset.card_range]
        intro i hi j hj hij
        rw [Finset.mem_coe, Finset.mem_range] at hi hj
        exact h.corners c hc i j (show i < (g.cell .tet).nodePer by omega)
          (show j < (g.cell .tet).nodePer by omega) hij
      have := Finset.card_le_card hsub
      omega
    · have hlive := RefCell.mem_validCells.mp hc
      intro m hm
      rw [List.mem_cons, List.mem_singleton] at hm
      rcases hm with rfl | rfl
      · exact (edgeAt_mem_crossing (by decide) htype hends hfield completeEnds_tet hlive hk).mp he
      · exact (edgeAt_mem_crossing (by decide) htype hends hfield completeEnds_tet hlive hl).mp hf

/-- **An end on an edge of triangles** has an edg in each of them. -/
theorem tri_sides (htype : (g.cell .tri).cellType = .tri)
    (hfield : ∀ c, (g.cell .tri).Live c → ∀ i, i < 3 →
      field ((g.cell .tri).c2n c i).toNat ≠ RefDbl.zero)
    (h : (cellCutting (g.cell .tri) triEnds triCut field point).Fits (crossing g field)
      (g.cell .tri).validCells) {a b : Int} (he : s(a, b) ∈ crossing g field) :
    (cellCutting (g.cell .tri) triEnds triCut field point).having
      (g.cell .tri).validCells [s(a, b)] = (g.cell .tri).sharing {a, b} := by
  have hends : ∀ k, k < triEnds.length → triEnds.getD k (0, 0) ∈ CellType.tri.e2n ∨
      ((triEnds.getD k (0, 0)).2, (triEnds.getD k (0, 0)).1) ∈ CellType.tri.e2n := by decide
  rw [h.having_eq (by simp [he])
    (fun c => decide (∀ v ∈ ({a, b} : Finset Int), v ∈ (g.cell .tri).nodeList c)) ?_ ?_]
  · rw [RefCell.sharing, ← List.countP_eq_length_filter]
  · intro c hc
    simp only [decide_eq_true_eq, List.mem_singleton, forall_eq,
      hasEdge_iff h (crossing_ne he), Finset.mem_insert, Finset.mem_singleton, forall_eq_or_imp]
  · intro c hc K hK hmap
    obtain ⟨k, rfl⟩ : ∃ k, K = [k] := by
      cases K with
      | nil => cases hmap
      | cons k rest =>
          cases rest with
          | nil => exact ⟨k, rfl⟩
          | cons m rest => cases (List.cons.inj hmap).2
    simp only [List.map_cons, List.map_nil, List.cons.injEq, and_true] at hmap
    have hk : k < 3 := hK k (by simp)
    refine (triCut_sound _).2 k hk ?_
    intro m hm
    rw [List.mem_singleton] at hm
    subst hm
    exact (edgeAt_mem_crossing (by decide) htype hends hfield completeEnds_tri
      (RefCell.mem_validCells.mp hc) hk).mp (hmap ▸ he)

end Sides

/-! ## The loops over the cells -/

section Loops

variable {g : RefGrid D} {field : Nat → D} {s : RefEdge} {newNode : Nat → Int}

/-- An edge of the grid has a new node exactly when the field changes its sign. -/
theorem RefEdge.pointOn_ne_iff {isoNode : RefNode D} (hcover : s.Covers (RefEdge.gridEdges g))
    (hpart : ∀ e, e < s.n → g.node.rank = s.edgePart g.node e)
    (h : PointsOn s g.node field (fun e => e ∈ List.range s.n ∧ s.Cuts g.node field e) isoNode
      newNode) {a b : Int}
    (hin : (a, b) ∈ RefEdge.gridEdges g ∨ (b, a) ∈ RefEdge.gridEdges g) :
    RefEdge.pointOn hcover.inv newNode s(a, b) ≠ refEmpty ↔ s(a, b) ∈ crossing g field := by
  obtain ⟨e, he, hj⟩ := hcover.exists_iff.mpr hin
  have hcross : Crosses field (s.endNode e 0) (s.endNode e 1) ↔ Crosses field a.toNat b.toNat :=
    RefEdge.crosses_of_joins hj
  rw [RefEdge.pointOn_joins hcover.inv he hj]
  constructor
  · intro hne
    by_cases hcut : e ∈ List.range s.n ∧ s.Cuts g.node field e
    · have hab := hcross.mp hcut.2.2
      rcases hin with hin | hin
      · exact ⟨_, hin, rfl, hab⟩
      · exact ⟨_, hin, Sym2.eq_swap, crosses_comm.mp hab⟩
    · exact absurd (h.blank e hcut) hne
  · intro hmem
    obtain ⟨pair, _, heq, hab⟩ := hmem
    have hab' : Crosses field a.toNat b.toNat := by
      rcases Sym2.eq_iff.mp heq with ⟨rfl, rfl⟩ | ⟨rfl, rfl⟩
      · exact hab
      · exact crosses_comm.mp hab
    obtain ⟨k, hk, _⟩ := h.made e ⟨List.mem_range.mpr he, hpart e he, hcross.mpr hab'⟩
    rw [hk]
    exact natCast_ne_refEmpty k

/-- The new nodes of one cell and the table that they select. -/
theorem cell_newNodes {t : CellType} {ends : List (Nat × Nat)}
    {pieces : (Nat → Bool) → List (List Nat)} {point : Sym2 Int → Int}
    (hne : ∀ a b, (a, b) ∈ RefEdge.gridEdges g ∨ (b, a) ∈ RefEdge.gridEdges g →
      (point s(a, b) ≠ refEmpty ↔ s(a, b) ∈ crossing g field))
    (ht : t ∈ types3d ++ types2d) (htype : (g.cell t).cellType = t)
    (hends : ∀ k, k < ends.length → ends.getD k (0, 0) ∈ t.e2n ∨
      ((ends.getD k (0, 0)).2, (ends.getD k (0, 0)).1) ∈ t.e2n)
    (hfield : ∀ c, (g.cell t).Live c → ∀ i, i < t.nodePer →
      field ((g.cell t).c2n c i).toNat ≠ RefDbl.zero)
    (hcomplete : CompleteEnds t.nodePer ends) {c : Nat} (hc : (g.cell t).Live c)
    {edgeNodes : List Int} (hlen : edgeNodes.length = ends.length)
    (hnodes : ∀ k, k < ends.length → edgeNodes.getD k refEmpty =
      point ((cellCutting (g.cell t) ends pieces field point).edgeAt c k)) :
    (fun k => decide (edgeNodes.getD k refEmpty ≠ refEmpty)) =
      edgeCut ends fun i => positiveAt field ((g.cell t).c2n c i) := by
  funext k
  by_cases hk : k < ends.length
  · have hmem : (cellCutting (g.cell t) ends pieces field point).edgeAt c k ∈ crossing g field ↔ _ :=
      edgeAt_mem_crossing ht htype hends hfield hcomplete hc hk
    rw [hnodes k hk, Bool.eq_iff_iff, decide_eq_true_eq, ← hmem]
    exact hne _ _ (edge_of_cell ht htype hc (hends k hk))
  · have hnone : edgeNodes.getD k refEmpty = refEmpty := by
      rw [List.getD_eq_getElem?_getD, List.getElem?_eq_none (by omega), Option.getD_none]
    have hout : ends.getD k (0, 0) = (0, 0) := by
      rw [List.getD_eq_getElem?_getD, List.getElem?_eq_none (by omega), Option.getD_none]
    rw [hnone, edgeCut, hout]
    simp

omit [RefIsoDbl D] in
theorem getD_map {α β : Type} (f : α → β) (l : List α) {k : Nat} (a : α) (b : β) (hk : k < l.length) :
    (l.map f).getD k b = f (l.getD k a) := by
  simp [List.getD_eq_getElem?_getD, hk]

/-- What the two loops use of the new nodes. -/
structure NewNodes (g : RefGrid D) (field : Nat → D) (s : RefEdge) (newNode : Nat → Int)
    (inv : s.EdgeInv) : Prop where
  found : ∀ a b, (a, b) ∈ RefEdge.gridEdges g ∨ (b, a) ∈ RefEdge.gridEdges g →
    ∃ e, e < s.n ∧ s.Joins e a b
  iff_crossing : ∀ a b, (a, b) ∈ RefEdge.gridEdges g ∨ (b, a) ∈ RefEdge.gridEdges g →
    (RefEdge.pointOn inv newNode s(a, b) ≠ refEmpty ↔ s(a, b) ∈ crossing g field)

/-- The body of the loop over the tets adds the pieces of the tet. -/
theorem isoTri_eq {inv : s.EdgeInv} (hnew : NewNodes g field s newNode inv)
    (htype : (g.cell .tet).cellType = .tet)
    (hfield : ∀ c, (g.cell .tet).Live c → ∀ i, i < 4 →
      field ((g.cell .tet).c2n c i).toNat ≠ RefDbl.zero)
    (h : (cellCutting (g.cell .tet) CellType.tet.e2n tetPieces field
      (RefEdge.pointOn inv newNode)).Fits (crossing g field) (g.cell .tet).validCells)
    {c : Nat} (hc : c ∈ (g.cell .tet).validCells) (acc : RefCell) :
    isoTri s newNode (g.cell .tet) acc c = RefSubdiv.addRows acc
      (((cellCutting (g.cell .tet) CellType.tet.e2n tetPieces field
        (RefEdge.pointOn inv newNode)).points c).map pieceRow) := by
  have hlive := RefCell.mem_validCells.mp hc
  have hends : ∀ k, k < CellType.tet.e2n.length → CellType.tet.e2n.getD k (0, 0) ∈ CellType.tet.e2n ∨
      ((CellType.tet.e2n.getD k (0, 0)).2, (CellType.tet.e2n.getD k (0, 0)).1) ∈
        CellType.tet.e2n := by decide
  have hcellNodes : (g.cell .tet).nodes c = .ok ((g.cell .tet).c2n c) := by
    simp [RefCell.nodes, hlive]
  set edgeNodes := (CellType.tet.e2n.map fun e =>
    ((g.cell .tet).c2n c e.1, (g.cell .tet).c2n c e.2)).map
      fun pair => RefEdge.pointOn inv newNode s(pair.1, pair.2) with hedgeNodes
  have hfound : s.newNodes newNode ((g.cell .tet).cellType.e2n.map fun e =>
      ((g.cell .tet).c2n c e.1, (g.cell .tet).c2n c e.2)) = .ok edgeNodes := by
    rw [htype]
    apply RefEdge.newNodes_ok inv
    intro pair hp
    obtain ⟨e, he, rfl⟩ := List.mem_map.mp hp
    exact hnew.found _ _ (edge_of_cell (by decide) htype hlive (Or.inl he))
  have hnodes : ∀ k, k < CellType.tet.e2n.length → edgeNodes.getD k refEmpty =
      RefEdge.pointOn inv newNode ((cellCutting (g.cell .tet) CellType.tet.e2n tetPieces field
        (RefEdge.pointOn inv newNode)).edgeAt c k) := by
    intro k hk
    rw [hedgeNodes, List.map_map, getD_map _ _ (0, 0) _ hk]
    rfl
  have hcut := cell_newNodes hnew.iff_crossing (by decide) htype hends hfield completeEnds_tet hlive
    (by simp [hedgeNodes]) hnodes
  simp only [isoTri, hcellNodes, hfound, hcut, (tetCut_sound _).1, bind, Except.bind]
  rw [← isoRow_points h hc hnodes]
  rfl

/-- The body of the loop over the triangles adds the pieces of the triangle. -/
theorem isoEdg_eq {inv : s.EdgeInv} (hnew : NewNodes g field s newNode inv)
    (htype : (g.cell .tri).cellType = .tri)
    (hfield : ∀ c, (g.cell .tri).Live c → ∀ i, i < 3 →
      field ((g.cell .tri).c2n c i).toNat ≠ RefDbl.zero)
    (h : (cellCutting (g.cell .tri) triEnds triCut field
      (RefEdge.pointOn inv newNode)).Fits (crossing g field) (g.cell .tri).validCells)
    {c : Nat} (hc : c ∈ (g.cell .tri).validCells) (acc : RefCell) :
    isoEdg s newNode (g.cell .tri) acc c = RefSubdiv.addRows acc
      (((cellCutting (g.cell .tri) triEnds triCut field
        (RefEdge.pointOn inv newNode)).points c).map pieceRow) := by
  have hlive := RefCell.mem_validCells.mp hc
  have hends : ∀ k, k < triEnds.length → triEnds.getD k (0, 0) ∈ CellType.tri.e2n ∨
      ((triEnds.getD k (0, 0)).2, (triEnds.getD k (0, 0)).1) ∈ CellType.tri.e2n := by decide
  have hcellNodes : (g.cell .tri).nodes c = .ok ((g.cell .tri).c2n c) := by
    simp [RefCell.nodes, hlive]
  set row := (g.cell .tri).c2n c with hrow
  set edgeNodes := [RefEdge.pointOn inv newNode s(row 1, row 2),
    RefEdge.pointOn inv newNode s(row 2, row 0),
    RefEdge.pointOn inv newNode s(row 0, row 1)] with hedgeNodes
  have hfound : s.newNodes newNode [(row 1, row 2), (row 2, row 0), (row 0, row 1)] =
      .ok edgeNodes := by
    apply RefEdge.newNodes_ok inv
    intro pair hp
    obtain ⟨e, he, rfl⟩ : ∃ e ∈ CellType.tri.e2n, (row e.1, row e.2) = pair := by
      simp only [List.mem_cons, List.not_mem_nil, or_false] at hp
      rcases hp with rfl | rfl | rfl
      · exact ⟨(1, 2), by decide, rfl⟩
      · exact ⟨(2, 0), by decide, rfl⟩
      · exact ⟨(0, 1), by decide, rfl⟩
    exact hnew.found _ _ (edge_of_cell (by decide) htype hlive (Or.inl he))
  have hnodes : ∀ k, k < triEnds.length → edgeNodes.getD k refEmpty =
      RefEdge.pointOn inv newNode ((cellCutting (g.cell .tri) triEnds triCut field
        (RefEdge.pointOn inv newNode)).edgeAt c k) := by
    intro k hk
    have hk3 : k < 3 := hk
    interval_cases k
    · rfl
    · change RefEdge.pointOn inv newNode s(row 2, row 0) =
        RefEdge.pointOn inv newNode s(row 0, row 2)
      rw [Sym2.eq_swap]
    · rfl
  have hcut := cell_newNodes hnew.iff_crossing (by decide) htype hends hfield completeEnds_tri hlive
    rfl hnodes
  simp only [isoEdg, hcellNodes, hfound, hcut, bind, Except.bind]
  rw [← isoRow_points h hc hnodes]
  rfl

end Loops

/-! ## The surface -/

/-- A grid on one rank with cells of distinct nodes and a field that is zero at
no node. -/
structure IsoMesh (g : RefGrid D) (field : Nat → D) : Prop where
  cells : g.CellsInv
  rank : g.node.rank = 0
  part : ∀ k, g.node.Live k → g.node.part k = 0
  nodes : ∀ t c, (g.cell t).Live c → ∀ v ∈ (g.cell t).nodeList c, 0 ≤ v ∧ g.node.Live v.toNat
  simple : ∀ t ∈ [CellType.tet, .tri], (g.cell t).Simple
  nonzero : ∀ k, g.node.Live k → field k ≠ RefDbl.zero

/-- The sizes of `ref_iso_insert` are `REF_INT`. -/
structure IsoFits (g : RefGrid D) (ldim : Nat) : Prop where
  globals : g.node.newNGlobal - g.node.oldNGlobal ≤ refIntMax
  unused : g.node.nUnused < refIntMax
  nodes : 16 * g.node.n ≤ refIntMax
  slots : g.node.max + 100 ≤ refIntMax
  edges : 15 * (RefEdge.gridEdges g).length ≤ refIntMax
  data : ldim * (3 * (RefEdge.gridEdges g).length + 5020) ≤ refIntMax

/-- The cells that are cut. -/
def meshType (twod : Bool) : CellType := if twod then .tri else .tet

/-- The cells of the surface. -/
def surfaceType (twod : Bool) : CellType := if twod then .edg else .tri

/-- The surface `iso` of a grid.  `point` is the node on an edge: one for each
edge on which the field changes its sign, between the ends of the edge.  A cell
of the surface lies in a cell of the grid.  As many cells have two of the nodes
(in 2D, one node) as there are cells of the grid on the face (the edge) around
them. -/
structure IsoSurface (g : RefGrid D) (field : Nat → D) (twod : Bool) (iso : RefGrid D)
    (point : Sym2 Int → Int) : Prop where
  nodes : Set.BijOn point (crossing g field) {x | 0 ≤ x ∧ iso.node.Live x.toNat}
  place : ∀ e ∈ crossing g field, ∃ a b : Nat, e = s((a : Int), (b : Int)) ∧ ∀ i, i < 3 →
    iso.node.real (point e).toNat i =
      isoBlend (isoWeight field a b) (g.node.real a i) (g.node.real b i)
  inside : ∀ c, (iso.cell (surfaceType twod)).Live c → ∃ d, (g.cell (meshType twod)).Live d ∧
    ∀ x ∈ (iso.cell (surfaceType twod)).nodeList c, ∃ e ∈ crossing g field, point e = x ∧
      ∀ v ∈ e, v ∈ (g.cell (meshType twod)).nodeList d
  sides : twod = false → ∀ e ∈ crossing g field, ∀ f ∈ crossing g field, e ≠ f →
    ∀ F : Finset Int, F.card = 3 → (∀ v ∈ e, v ∈ F) → (∀ v ∈ f, v ∈ F) →
      (iso.cell .tri).sharing {point e, point f} = (g.cell .tet).sharing F
  ends : twod = true → ∀ a b : Int, s(a, b) ∈ crossing g field →
    (iso.cell .edg).sharing {point s(a, b)} = (g.cell .tri).sharing {a, b}
  distinct : (g.cell (meshType twod)).DistinctSets → (iso.cell (surfaceType twod)).DistinctSets

section Surface

variable {g : RefGrid D} {field : Nat → D} {t u : CellType} {ends : List (Nat × Nat)}
  {pieces : (Nat → Bool) → List (List Nat)} {point : Sym2 Int → Int}

omit [RefIsoDbl D] in
/-- The cells of a type are fewer than the pairs of the edge store. -/
theorem length_validCells_le (ht : t ∈ types3d ++ types2d) (htype : (g.cell t).cellType = t) :
    (g.cell t).validCells.length * t.e2n.length ≤ (RefEdge.gridEdges g).length := by
  have hlen : (RefEdge.cellEdges (g.cell t)).length =
      (g.cell t).validCells.length * t.e2n.length := by
    simp [RefEdge.cellEdges, List.length_flatMap, htype]
  rw [← hlen]
  have hin : RefEdge.cellEdges (g.cell t) ∈
      (types3d ++ types2d).map fun t => RefEdge.cellEdges (g.cell t) := List.mem_map.mpr ⟨t, ht, rfl⟩
  rw [RefEdge.gridEdges, List.flatMap_def]
  exact (List.sublist_flatten_of_mem hin).length_le

/-- What the store of the surface has of the pieces. -/
structure SurfaceStore (T : Cutting Nat Int Int) (cut : Set (Sym2 Int)) (cells : List Nat)
    (s : RefCell) : Prop where
  inside : ∀ c, s.Live c → ∃ d ∈ cells, ∃ q ∈ T.points d, s.nodeList c = q
  sharing : ∀ side : List (Sym2 Int), s.sharing (side.map T.point).toFinset = T.having cells side
  distinct : (cells.Pairwise fun c c' => ¬ ∀ v, (∃ i, i < T.size ∧ T.corner c i = v) ↔
    ∃ i, i < T.size ∧ T.corner c' i = v) → s.DistinctSets

/-- **The loop over the cells** succeeds and stores the pieces. -/
theorem surface_loop (mem : RefCell) {isoNode : RefNode D} {ldim : Nat} (hfit : IsoFits g ldim)
    (ht : t ∈ types3d ++ types2d) (htype : (g.cell t).cellType = t) (hedges : 2 ≤ t.e2n.length)
    (hid : u.sizePer = u.nodePer + 1) (hsize : u.sizePer ≤ 4)
    (htable : ∀ sign, PiecesFit t.nodePer ends (edgeCut ends sign) u.nodePer
      (pieces (edgeCut ends sign)))
    (h : (cellCutting (g.cell t) ends pieces field point).Fits (crossing g field)
      (g.cell t).validCells)
    (hbij : Set.MapsTo point (crossing g field) {x | 0 ≤ x ∧ isoNode.Live x.toNat})
    (hroom : isoNode.max ≤ 3 * (RefEdge.gridEdges g).length + 5020)
    {step : RefCell → Nat → Except Status RefCell}
    (hstep : ∀ c ∈ (g.cell t).validCells, ∀ acc, step acc c = RefSubdiv.addRows acc
      (((cellCutting (g.cell t) ends pieces field point).points c).map pieceRow)) :
    ∃ s, (g.cell t).validCells.foldlM step (RefCell.create mem u) = .ok s ∧
      SurfaceStore (cellCutting (g.cell t) ends pieces field point) (crossing g field)
        (g.cell t).validCells s := by
  set T := cellCutting (g.cell t) ends pieces field point with hT
  set cells := (g.cell t).validCells with hcells
  have hcorners : ∀ c ∈ cells, ∀ q ∈ T.points c, q.length = u.nodePer := by
    intro c _ q hq
    obtain ⟨K, hK, rfl⟩ := List.mem_map.mp hq
    rw [List.length_map]
    exact ((htable _).1 K hK).1
  have hrange : ∀ c ∈ cells, ∀ q ∈ T.points c, ∀ x ∈ q, 0 ≤ x ∧ x + 100 ≤ refIntMax := by
    intro c hc q hq x hx
    obtain ⟨K, hK, rfl⟩ := List.mem_map.mp hq
    obtain ⟨k, hk, rfl⟩ := List.mem_map.mp hx
    obtain ⟨hpos, hlive⟩ := hbij (h.inside c hc K hK k hk).2
    have hlt := hlive.1
    have hedges := hfit.edges
    refine ⟨hpos, ?_⟩
    change point (T.edgeAt c k) + 100 ≤ refIntMax
    unfold refIntMax at *
    omega
  have hlen : (cells.flatMap T.points).length ≤ refIntMax / 4 := by
    have htwo : (cells.flatMap T.points).length ≤ cells.length * 2 := by
      rw [List.length_flatMap]
      have hle := List.sum_le_card_nsmul (cells.map fun c => (T.points c).length) 2 (by
        intro m hm
        obtain ⟨c, _, rfl⟩ := List.mem_map.mp hm
        rw [Cutting.points, List.length_map]
        exact (htable _).2.2)
      rwa [List.length_map, smul_eq_mul] at hle
    have hle : cells.length * t.e2n.length ≤ (RefEdge.gridEdges g).length :=
      length_validCells_le ht htype
    have hmul : cells.length * 2 ≤ cells.length * t.e2n.length := Nat.mul_le_mul_left _ hedges
    have hedges := hfit.edges
    unfold refIntMax at *
    omega
  obtain ⟨s, hrun, hfilled⟩ := surface_store mem hstep hid hsize hcorners hrange hlen
  have hall : ∀ q ∈ cells.flatMap T.points, q.length = u.nodePer := by
    intro q hq
    obtain ⟨c, hc, hqc⟩ := List.mem_flatMap.mp hq
    exact hcorners c hc q hqc
  refine ⟨s, hrun, ?_, ?_, ?_⟩
  · intro c hc
    obtain ⟨q, hq, heq⟩ := Filled.exists_piece hfilled hall hc
    obtain ⟨d, hd, hqd⟩ := List.mem_flatMap.mp hq
    exact ⟨d, hd, q, hqd, heq⟩
  · intro side
    rw [Filled.sharing_eq hfilled hall, Cutting.having]
    apply List.countP_congr
    intro q _
    simp only [List.mem_toFinset, List.forall_mem_map]
  · intro hdiff
    exact Filled.distinctSets hfilled hall (h.nodup_points hdiff)

/-- No two cells of a store with the same nodes. -/
theorem pairwise_of_distinctSets (hdiff : (g.cell t).DistinctSets) :
    (g.cell t).validCells.Pairwise fun c c' =>
      ¬ ∀ v, (∃ i, i < (cellCutting (g.cell t) ends pieces field point).size ∧
        (cellCutting (g.cell t) ends pieces field point).corner c i = v) ↔
          ∃ i, i < (cellCutting (g.cell t) ends pieces field point).size ∧
            (cellCutting (g.cell t) ends pieces field point).corner c' i = v := by
  apply (g.cell t).nodup_validCells.imp_of_mem
  intro c c' hc hc' hne heq
  apply hne
  apply hdiff c c' (RefCell.mem_validCells.mp hc) (RefCell.mem_validCells.mp hc')
  intro v
  rw [RefCell.mem_nodeList, RefCell.mem_nodeList]
  exact heq v

/-- A cell of the surface lies in a cell of the grid. -/
theorem SurfaceStore.lies_in {s : RefCell}
    (hfits : (cellCutting (g.cell t) ends pieces field point).Fits (crossing g field)
      (g.cell t).validCells)
    (h : SurfaceStore (cellCutting (g.cell t) ends pieces field point) (crossing g field)
      (g.cell t).validCells s) {c : Nat} (hc : s.Live c) :
    ∃ d, (g.cell t).Live d ∧ ∀ x ∈ s.nodeList c, ∃ e ∈ crossing g field, point e = x ∧
      ∀ v ∈ e, v ∈ (g.cell t).nodeList d := by
  obtain ⟨d, hd, q, hq, heq⟩ := h.inside c hc
  refine ⟨d, RefCell.mem_validCells.mp hd, ?_⟩
  rw [heq]
  intro x hx
  obtain ⟨K, hK, rfl⟩ := List.mem_map.mp hq
  obtain ⟨k, hk, rfl⟩ := List.mem_map.mp hx
  obtain ⟨hlt, hcut⟩ := hfits.inside d hd K hK k hk
  refine ⟨_, hcut, rfl, ?_⟩
  intro v hv
  obtain ⟨hends, hb⟩ := hfits.bound k hlt
  rcases Sym2.mem_iff.mp hv with rfl | rfl
  · exact (g.cell t).c2n_mem_nodeList d (lt_trans hends hb)
  · exact (g.cell t).c2n_mem_nodeList d hb

/-- The nodes of the cells are not zeros of the field. -/
theorem IsoMesh.nonzero_at (h : IsoMesh g field) (t : CellType) {c i : Nat}
    (hc : (g.cell t).Live c) (hi : i < t.nodePer) :
    field ((g.cell t).c2n c i).toNat ≠ RefDbl.zero := by
  have hper : (g.cell t).nodePer = t.nodePer := by rw [RefCell.nodePer, h.cells.type]
  exact h.nonzero _ (h.nodes t c hc _ ((g.cell t).c2n_mem_nodeList c (hper ▸ hi))).2

/-- **The loops over the cells** make the surface. -/
theorem isoCells_surface (mem : RefGrid D) {ldim rank : Nat} (twod : Bool) {isoNode : RefNode D}
    {s : RefEdge} {newNode : Nat → Int} {inv : s.EdgeInv} (hmesh : IsoMesh g field)
    (hfit : IsoFits g ldim) (hnew : NewNodes g field s newNode inv)
    (hbij : Set.BijOn (RefEdge.pointOn inv newNode) (crossing g field)
      {x | 0 ≤ x ∧ isoNode.Live x.toNat})
    (hplace : ∀ e ∈ crossing g field, ∃ a b : Nat, e = s((a : Int), (b : Int)) ∧ ∀ i, i < 3 →
      isoNode.real (RefEdge.pointOn inv newNode e).toNat i =
        isoBlend (isoWeight field a b) (g.node.real a i) (g.node.real b i))
    (hroom : isoNode.max ≤ 3 * (RefEdge.gridEdges g).length + 5020) :
    ∃ iso, isoCells g twod s newNode { RefGrid.create mem rank with node := isoNode } = .ok iso ∧
      IsoSurface g field twod iso (RefEdge.pointOn inv newNode) := by
  cases twod with
  | true =>
      have htype := hmesh.cells.type .tri
      have hfield : ∀ c, (g.cell .tri).Live c → ∀ i, i < 3 →
          field ((g.cell .tri).c2n c i).toNat ≠ RefDbl.zero :=
        fun c hc i hi => hmesh.nonzero_at .tri hc hi
      have hfits := cellCutting_fits triEnds triCut 2 (by decide) htype (hmesh.simple .tri (by simp)) (by decide) hfield completeEnds_tri
        (fun sign => (triCut_sound sign).1) hbij.injOn
      obtain ⟨edg, hrun, hstore⟩ := surface_loop (u := .edg) (mem.cell .edg) hfit (by decide) htype
        (by decide) rfl (by decide) (fun sign => (triCut_sound sign).1) hfits hbij.mapsTo hroom
        (fun c hc acc => isoEdg_eq hnew htype hfield hfits hc acc)
      have hcell : ∀ iso : RefGrid D, (iso.setCell .edg edg).cell (surfaceType true) = edg :=
        fun iso => RefGrid.setCell_cell_self iso .edg edg
      refine ⟨({ RefGrid.create mem rank with node := isoNode } : RefGrid D).setCell .edg edg, ?_,
        ⟨hbij, hplace, ?_, fun hno => absurd hno (by decide), ?_, ?_⟩⟩
      · rw [isoCells, if_pos rfl, bind_eq_ok]
        exact ⟨edg, hrun, rfl⟩
      · intro c hc
        rw [hcell] at hc ⊢
        exact hstore.lies_in hfits hc
      · intro _ a b he
        rw [show (RefGrid.setCell _ .edg edg).cell .edg = edg from hcell _,
          ← tri_sides htype hfield hfits he, ← hstore.sharing]
        rfl
      · intro hdiff
        rw [hcell]
        exact hstore.distinct (pairwise_of_distinctSets hdiff)
  | false =>
      have htype := hmesh.cells.type .tet
      have hfield : ∀ c, (g.cell .tet).Live c → ∀ i, i < 4 →
          field ((g.cell .tet).c2n c i).toNat ≠ RefDbl.zero :=
        fun c hc i hi => hmesh.nonzero_at .tet hc hi
      have hfits := cellCutting_fits CellType.tet.e2n tetPieces 3 (by decide) htype (hmesh.simple .tet (by simp)) (by decide) hfield completeEnds_tet
        (fun sign => (tetCut_sound sign).2.1) hbij.injOn
      obtain ⟨tri, hrun, hstore⟩ := surface_loop (u := .tri) (mem.cell .tri) hfit (by decide) htype
        (by decide) rfl (by decide) (fun sign => (tetCut_sound sign).2.1) hfits hbij.mapsTo hroom
        (fun c hc acc => isoTri_eq hnew htype hfield hfits hc acc)
      have hcell : ∀ iso : RefGrid D, (iso.setCell .tri tri).cell (surfaceType false) = tri :=
        fun iso => RefGrid.setCell_cell_self iso .tri tri
      refine ⟨({ RefGrid.create mem rank with node := isoNode } : RefGrid D).setCell .tri tri, ?_,
        ⟨hbij, hplace, ?_, ?_, fun hno => absurd hno (by decide), ?_⟩⟩
      · rw [isoCells, if_neg (by decide), bind_eq_ok]
        exact ⟨tri, hrun, rfl⟩
      · intro c hc
        rw [hcell] at hc ⊢
        exact hstore.lies_in hfits hc
      · intro _ e he f hf hne F hF heF hfF
        rw [show (RefGrid.setCell _ .tri tri).cell .tri = tri from hcell _,
          ← tet_sides htype hfield hfits he hf hne hF heF hfF, ← hstore.sharing]
        simp only [List.map_cons, List.map_nil, List.toFinset_cons, List.toFinset_nil,
          insert_empty_eq]
        rfl
      · intro hdiff
        rw [hcell]
        exact hstore.distinct (pairwise_of_distinctSets hdiff)

end Surface

/-! ## The run on one rank -/

section Run

variable {g : RefGrid D} {field : Nat → D}

/-- The nodes of the edges of a grid are its nodes. -/
theorem IsoMesh.live_ends (h : IsoMesh g field) {a b : Int} (hin : (a, b) ∈ RefEdge.gridEdges g) :
    (0 ≤ a ∧ g.node.Live a.toNat) ∧ 0 ≤ b ∧ g.node.Live b.toNat := by
  obtain ⟨t, _, c, hc, e, he, rfl, rfl⟩ := exists_cell_of_gridEdges h.cells hin
  have hper : (g.cell t).nodePer = t.nodePer := by rw [RefCell.nodePer, h.cells.type]
  obtain ⟨h1, h2, _⟩ := t.e2n_lt e he
  exact ⟨h.nodes t c hc _ ((g.cell t).c2n_mem_nodeList c (hper ▸ h1)),
    h.nodes t c hc _ ((g.cell t).c2n_mem_nodeList c (hper ▸ h2))⟩

/-- The new node of an edge is between its ends. -/
theorem IsoMesh.pointOn_place (h : IsoMesh g field) {node isoNode : RefNode D} {s : RefEdge}
    {newNode : Nat → Int} (hcover : s.Covers (RefEdge.gridEdges g))
    (hpart : ∀ e, e < s.n → node.rank = s.edgePart node e)
    (hpoints : PointsOn s node field (fun e => e ∈ List.range s.n ∧ s.Cuts node field e) isoNode
      newNode) (hreal : node.real = g.node.real) :
    ∀ e ∈ crossing g field, ∃ a b : Nat, e = s((a : Int), (b : Int)) ∧ ∀ i, i < 3 →
      isoNode.real (RefEdge.pointOn hcover.inv newNode e).toNat i =
        isoBlend (isoWeight field a b) (g.node.real a i) (g.node.real b i) := by
  intro e he
  obtain ⟨pair, hin, rfl, hcross⟩ := he
  obtain ⟨e, he, hj⟩ := hcover.found pair hin
  obtain ⟨⟨h0, _⟩, h1, _⟩ := h.live_ends hin
  obtain ⟨k, hk, _, _, hplace⟩ := hpoints.made e
    ⟨List.mem_range.mpr he, hpart e he, (RefEdge.crosses_of_joins hj).mpr hcross⟩
  have hpoint : RefEdge.pointOn hcover.inv newNode s(pair.1, pair.2) = k := by
    rw [RefEdge.pointOn_joins hcover.inv he hj, hk]
  refine ⟨s.endNode e 0, s.endNode e 1, ?_, ?_⟩
  · unfold RefEdge.endNode
    rcases hj with ⟨h00, h01⟩ | ⟨h00, h01⟩
    · rw [h00, h01, Int.toNat_of_nonneg h0, Int.toNat_of_nonneg h1]
    · rw [h00, h01, Int.toNat_of_nonneg h0, Int.toNat_of_nonneg h1, Sym2.eq_swap]
  · intro i hi
    rw [hpoint, Int.toNat_natCast, hplace i hi, RefEdge.isoPoint, hreal]

/-- The steps of `ref_iso_insert` on one rank. -/
theorem isoInsert_alone {mem : IsoMemory D} {twod : Bool} {ldim : Nat} {input out : Nat → D}
    {node isoNode : RefNode D} {edge : RefEdge} {made : RefNode D × (Nat → Int)} {iso : RefGrid D}
    (hsync : (g.node.synchronizeGlobals 1 mem.unused).alone = some node)
    (hcreate : RefEdge.create mem.edge { g with node := node } = .ok edge)
    (hloop : (List.range edge.n).foldlM (edge.isoNode node field)
      ((RefGrid.create mem.grid node.rank).node.initializeNGlobal 0, fun _ => refEmpty) = .ok made)
    (hshift : (made.1.shiftNewGlobals 1).alone = some isoNode)
    (hghost : (edge.isoGhost 1 mem node isoNode made.2).alone = some (isoNode, made.2))
    (hinterp : (edge.isoInterp 1 mem node isoNode made.2 field ldim input).alone = some out)
    (hcells : isoCells { g with node := node } twod edge made.2
      { RefGrid.create mem.grid node.rank with node := isoNode } = .ok iso) :
    (isoInsert 1 mem g twod field ldim input).alone = some ⟨iso, out⟩ := by
  rw [isoInsert, Prog.alone_bind, hsync, Option.bind_some]
  dsimp only
  rw [Prog.alone_bind, Prog.alone_lift hcreate, Option.bind_some, Prog.alone_bind,
    Prog.alone_lift hloop, Option.bind_some, Prog.alone_bind, hshift,
    Option.bind_some, Prog.alone_bind, hghost, Option.bind_some, Prog.alone_bind, hinterp,
    Option.bind_some, Prog.alone_bind, Prog.alone_lift hcells, Option.bind_some, Prog.alone_ret]

/-- **The isosurface.**  On one rank `ref_iso_insert` succeeds; it makes one
node on each edge on which the field changes its sign, and the cells of the
surface meet along the facets of the grid as its cells do. -/
theorem iso_insert_closed (hmesh : IsoMesh g field) {ldim : Nat} (hfit : IsoFits g ldim)
    (hlog : RefNode.IdentityHasLog D) (mem : IsoMemory D) (twod : Bool) (input : Nat → D) :
    Yields 1 (fun _ => isoInsert 1 mem g twod field ldim input)
      fun out => ∃ point, IsoSurface g field twod (out 0).grid point := by
  obtain ⟨node, hsync, hsame⟩ := RefNode.synchronizeGlobals_alone hmesh.rank hfit.globals
    hfit.unused mem.unused
  set g1 : RefGrid D := { g with node := node } with hg1
  have hedges := hfit.edges
  have hrange : ∀ pair ∈ RefEdge.gridEdges g1, (0 ≤ pair.1 ∧ pair.1 + 100 ≤ refIntMax) ∧
      0 ≤ pair.2 ∧ pair.2 + 100 ≤ refIntMax := by
    intro pair hp
    obtain ⟨⟨h0, hlive0⟩, h1, hlive1⟩ := hmesh.live_ends hp
    have hslots := hfit.slots
    have hlt0 := hlive0.1
    have hlt1 := hlive1.1
    omega
  have hnodes1 : 16 * g1.node.n ≤ refIntMax := by
    change 16 * node.n ≤ refIntMax
    rw [hsame.n]
    exact hfit.nodes
  obtain ⟨edge, hcreate, hn⟩ := RefEdge.create_ok mem.edge hnodes1 hedges hrange
  have hn' : edge.n ≤ (RefEdge.gridEdges g).length := hn
  have hcover := RefEdge.create_covers hcreate
  have hpart : ∀ e, e < edge.n → g1.node.rank = edge.edgePart g1.node e := by
    intro e he
    obtain ⟨pair, hin, hj⟩ := hcover.joins e he
    obtain ⟨⟨_, hlive0⟩, _, hlive1⟩ := hmesh.live_ends hin
    change node.rank = edge.edgePart node e
    rw [hsame.rank, hmesh.rank]
    rcases RefEdge.edgePart_eq_or node hj with heq | heq
    · rw [heq, hsame.part, hmesh.part _ hlive0]
    · rw [heq, hsame.part, hmesh.part _ hlive1]
  obtain ⟨made, hloop, hmade⟩ := isoPoints_loop (m := edge.n)
    (isoPoints_start mem.grid.node edge g1.node field)
    (by unfold refIntMax at *; omega) hlog
  have hsize := hmade.size
  have hroom := hmade.room
  rw [List.length_range] at hsize hroom
  have hrank : made.1.rank = 0 := hmade.rank.trans (hsame.rank.trans hmesh.rank)
  have hshift : (made.1.shiftNewGlobals 1).alone =
      some (made.1.initializeNGlobal made.1.newNGlobal) := by
    apply RefNode.shiftNewGlobals_alone hrank
    rw [hmade.drawing.new, hmade.old]
    unfold refIntMax at *
    omega
  set isoNode := made.1.initializeNGlobal made.1.newNGlobal with hisoNode
  have hpoints : PointsOn edge g1.node field
      (fun e => e ∈ List.range edge.n ∧ edge.Cuts g1.node field e) isoNode made.2 :=
    ⟨hmade.points.blank, hmade.points.made, hmade.points.once, hmade.points.onto⟩
  have hinv : isoNode.Inv := by
    have h0 := hmade.drawing.inv
    exact ⟨h0.toSlotInv.congr rfl rfl rfl rfl, h0.ascending, h0.aligned, h0.covers⟩
  have hghost : (edge.isoGhost 1 mem g1.node isoNode made.2).alone = some (isoNode, made.2) := by
    apply RefEdge.isoGhost_alone mem hinv
    · unfold refNodeRealPer
      omega
    · intro e hne
      by_cases hcut : e ∈ List.range edge.n ∧ edge.Cuts g1.node field e
      · obtain ⟨k, hk, hlive, _⟩ := hpoints.made e hcut
        exact ⟨k, hk, hlive⟩
      · exact absurd (hpoints.blank e hcut) hne
  have hmax : isoNode.max ≤ 3 * (RefEdge.gridEdges g).length + 5020 := by
    change made.1.max ≤ _
    omega
  have hdata : ∀ m, m ≤ 3 * (RefEdge.gridEdges g).length + 5020 → ldim * m ≤ refIntMax :=
    fun m hm => (Nat.mul_le_mul_left ldim hm).trans hfit.data
  obtain ⟨out, hinterp⟩ :
      ∃ out, (edge.isoInterp 1 mem g1.node isoNode made.2 field ldim input).alone = some out :=
    RefEdge.isoInterp_alone mem field input (hdata _ hmax) (hdata _ (by omega))
  obtain ⟨iso, hcells, hsurface⟩ : ∃ iso, isoCells g twod edge made.2
      { RefGrid.create mem.grid g1.node.rank with node := isoNode } = .ok iso ∧
        IsoSurface g field twod iso (RefEdge.pointOn hcover.inv made.2) :=
    isoCells_surface mem.grid twod hmesh hfit ⟨fun a b hin => hcover.exists_iff.mpr hin,
      fun a b hin => RefEdge.pointOn_ne_iff hcover hpart hpoints hin⟩
      (RefEdge.pointOn_bijOn hcover hpart hpoints)
      (hmesh.pointOn_place hcover hpart hpoints hsame.real) hmax
  refine (Prog.runs_of_alone
    (isoInsert_alone hsync hcreate hloop hshift hghost hinterp hcells)).yields ?_
  intro out' heq
  rw [heq 0 Nat.one_pos]
  exact ⟨_, hsurface⟩

end Run

/-! ## Five nodes and two tets -/

instance : RefIsoDbl ℚ :=
  { (inferInstance : LinearOrder ℚ), (inferInstance : Add ℚ), (inferInstance : Sub ℚ),
    (inferInstance : Neg ℚ), (inferInstance : Mul ℚ), (inferInstance : Div ℚ) with
    zero := 0
    one := 1
    logM := fun _ => .ok fun _ => 0
    half := 1 / 2
    huge := 10 ^ 20
    filler := -999 }

/-- Five nodes on rank 0. -/
def fiveOnRank0 : RefNode ℚ :=
  { n := 5, max := 5, blank := refEmpty, global := fun k => k, sortedGlobal := fun k => k,
    sortedLocal := fun k => k, part := fun _ => 0, age := fun _ => 0,
    real := fun node i => if i = node then 1 else 0, naux := 0, aux := fun _ _ => 0, rank := 0,
    nUnused := 0, maxUnused := 0, unusedGlobal := fun _ => 0, oldNGlobal := 5, newNGlobal := 5 }

/-- A grid of tets on the five nodes. -/
def tetsOnRank0 (tets : List (List Int)) : RefGrid ℚ :=
  RefGrid.ofRows fiveOnRank0 noGeom fun t => if t = .tet then tets else []

/-- Node 0 is below the surface, the others are above it. -/
def belowAt0 (k : Nat) : ℚ := if k = 0 then -1 else 1

/-- Cleared memory. -/
def isoZero : IsoMemory ℚ :=
  let requests : RequestMemory Int := ⟨fun _ => 0, fun _ => 0, fun _ => 0, fun _ => 0, fun _ => 0⟩
  let reals : RequestMemory ℚ := ⟨fun _ => 0, fun _ => 0, fun _ => 0, fun _ => 0, fun _ => 0⟩
  { unused := fun _ => 0, grid := RefGrid.ofRows fiveOnRank0 noGeom fun _ => [], edge := noEdges,
    global := requests, part := requests, real := reals, interp := reals, out := fun _ => 0 }

theorem fiveOnRank0_live (k : Nat) : fiveOnRank0.Live k ↔ k < 5 := by
  unfold RefNode.Live
  exact ⟨fun h => h.1, fun h => ⟨h, Int.natCast_nonneg k⟩⟩

theorem tetsOnRank0_fit {tets : List (List Int)} (hfit : RefCell.RowsFit .tet tets) (t : CellType) :
    RefCell.RowsFit t (if t = .tet then tets else []) := by
  split
  · rename_i ht
    exact ht ▸ hfit
  · exact ⟨by simp, fun row hrow => absurd hrow List.not_mem_nil⟩

theorem tetsOnRank0_mesh {tets : List (List Int)} (hfit : RefCell.RowsFit .tet tets)
    (hnodup : ∀ row ∈ tets, (row.take 4).Nodup) (hrange : ∀ row ∈ tets, ∀ v ∈ row, 0 ≤ v ∧ v < 5) :
    IsoMesh (tetsOnRank0 tets) belowAt0 := by
  have hall := tetsOnRank0_fit hfit
  constructor
  · exact RefGrid.ofRows_inv hall
  · rfl
  · exact fun _ _ => rfl
  · intro t c hc v hv
    obtain ⟨row, hrow, hlist⟩ := RefGrid.exists_row_of_live (hall t) hc
    rw [tetsOnRank0, hlist] at hv
    have hin : row ∈ tets := by
      split at hrow
      · exact hrow
      · exact absurd hrow List.not_mem_nil
    obtain ⟨h0, h5⟩ := hrange row hin v (List.mem_of_mem_take hv)
    exact ⟨h0, (fiveOnRank0_live _).mpr (by omega)⟩
  · intro t ht
    apply RefGrid.ofRows_simple (hall t)
    intro row hrow
    split at hrow
    · rename_i ht
      subst ht
      exact hnodup row hrow
    · exact absurd hrow List.not_mem_nil
  · intro k _
    change belowAt0 k ≠ 0
    unfold belowAt0
    split <;> norm_num

theorem rat_identityHasLog : RefNode.IdentityHasLog ℚ := fun _ _ => ⟨_, rfl⟩

/-- Two tets with a common face satisfy the hypotheses. -/
theorem iso_insert_closed_two_tets :
    Yields 1 (fun _ => isoInsert 1 isoZero (tetsOnRank0 [[0, 1, 2, 3], [1, 2, 3, 4]]) false belowAt0 1
      fun _ => 0) fun out => ∃ point,
        IsoSurface (tetsOnRank0 [[0, 1, 2, 3], [1, 2, 3, 4]]) belowAt0 false (out 0).grid point :=
  iso_insert_closed (tetsOnRank0_mesh (by decide) (by decide) (by decide))
    ⟨by decide, by decide, by decide, by decide, by decide +kernel, by decide +kernel⟩
    rat_identityHasLog isoZero false fun _ => 0

/-- Two tets on the same four nodes: no face is in more than two tets, and the
surface has the same triangle twice. -/
theorem iso_insert_repeats_triangle :
    IsoMesh (tetsOnRank0 [[0, 1, 2, 3], [0, 1, 2, 3]]) belowAt0 ∧
    (∀ F : Finset Int, ((tetsOnRank0 [[0, 1, 2, 3], [0, 1, 2, 3]]).cell .tet).sharing F ≤ 2) ∧
    ∃ out, Runs 1 (fun _ => isoInsert 1 isoZero (tetsOnRank0 [[0, 1, 2, 3], [0, 1, 2, 3]]) false
      belowAt0 0 fun _ => 0) out ∧ ¬ ((out 0).grid.cell .tri).DistinctSets := by
  refine ⟨tetsOnRank0_mesh (by decide) (by decide) (by decide), ?_, ?_⟩
  · intro F
    have hlen : ((tetsOnRank0 [[0, 1, 2, 3], [0, 1, 2, 3]]).cell .tet).validCells.length = 2 := by
      decide +kernel
    rw [RefCell.sharing, ← hlen]
    exact List.length_filter_le _ _
  · have hcheck : ((isoInsert 1 isoZero (tetsOnRank0 [[0, 1, 2, 3], [0, 1, 2, 3]]) false belowAt0 0
        fun _ => 0).alone.map fun out => decide ((out.grid.cell .tri).Live 0 ∧
          (out.grid.cell .tri).Live 1 ∧
          (out.grid.cell .tri).nodeList 0 = (out.grid.cell .tri).nodeList 1)) = some true := by
      decide +kernel
    obtain ⟨out, hrun, htwice⟩ := Option.map_eq_some_iff.mp hcheck
    refine ⟨fun _ => out, Prog.runs_of_alone hrun, ?_⟩
    obtain ⟨h0, h1, heq⟩ := of_decide_eq_true htwice
    intro hdiff
    exact absurd (hdiff 0 1 h0 h1 fun x => by rw [heq]) (by decide)

end RefineMesh
