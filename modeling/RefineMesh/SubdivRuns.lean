import Mathlib.Tactic
import RefineMesh.ArrayLoops
import RefineMesh.Subdiv

/-!
# Subdivision is conforming

The marks and new nodes of a `REF_SUBDIV` are a marking of edges in the sense of
`RefineMesh.Subdivision`.  The pieces that the code writes for a cell are the
pieces of that marking, and each cell is replaced by its pieces.
-/

namespace RefineMesh

open Chains ArrayLoop

variable {D : Type}

namespace RefSubdiv

/-- The marks and new nodes as a marking. -/
def marking (s : RefSubdiv D) (h : s.edge.EdgeInv) : Marking Int where
  marked a b :=
    match s.edge.edgeWith a b with
    | .ok edge => s.mark edge ≠ 0
    | .error _ => false
  mid a b :=
    match s.edge.edgeWith a b with
    | .ok edge => s.node edge
    | .error _ => refEmpty
  marked_comm a b := by rw [RefEdge.edgeWith_comm h]
  mid_comm a b := by rw [RefEdge.edgeWith_comm h]

/-- The tet of a row. -/
def quad (nodes : Nat → Int) : Tet Int := (nodes 0, nodes 1, nodes 2, nodes 3)

section Pieces

variable {s : RefSubdiv D} {h : s.edge.EdgeInv}

theorem marked_of_edgeWith {a b : Int} {edge : Nat} (hrun : s.edge.edgeWith a b = .ok edge) :
    (s.marking h).marked a b = decide (s.mark edge ≠ 0) := by
  simp [marking, hrun]

theorem mid_of_edgeWith {a b : Int} {edge : Nat} (hrun : s.edge.edgeWith a b = .ok edge) :
    (s.marking h).mid a b = s.node edge := by
  simp [marking, hrun]

theorem nodeBetween_ok {a b x : Int} (hrun : s.nodeBetween a b = .ok x) :
    x = (s.marking h).mid a b := by
  simp only [nodeBetween, bind_eq_ok] at hrun
  obtain ⟨edge, hwith, hret⟩ := hrun
  rw [mid_of_edgeWith hwith]
  exact (Except.ok.inj hret).symm

theorem c2e_ok {refCell : RefCell} {cellEdge cell edge : Nat}
    (hrun : s.c2e refCell cellEdge cell = .ok edge) :
    ∃ ends, refCell.cellType.e2n[cellEdge]? = some ends ∧
      s.edge.edgeWith (refCell.c2n cell ends.1) (refCell.c2n cell ends.2) = .ok edge := by
  simp only [c2e] at hrun
  split at hrun
  · cases hrun
  · split at hrun
    · cases hrun
    · rename_i ends hends
      split at hrun
      · rename_i edge' hwith
        rw [Except.ok.injEq] at hrun
        exact ⟨ends, hends, hrun ▸ hwith⟩
      · cases hrun

/-- The six edges of a tet. -/
theorem c2e_tet {tet : RefCell} (htype : tet.cellType = .tet) {cell : Nat} {e : Nat → Nat}
    (hrun : ∀ k < 6, s.c2e tet k cell = .ok (e k)) :
    s.edge.edgeWith (tet.c2n cell 0) (tet.c2n cell 1) = .ok (e 0) ∧
      s.edge.edgeWith (tet.c2n cell 0) (tet.c2n cell 2) = .ok (e 1) ∧
      s.edge.edgeWith (tet.c2n cell 0) (tet.c2n cell 3) = .ok (e 2) ∧
      s.edge.edgeWith (tet.c2n cell 1) (tet.c2n cell 2) = .ok (e 3) ∧
      s.edge.edgeWith (tet.c2n cell 1) (tet.c2n cell 3) = .ok (e 4) ∧
      s.edge.edgeWith (tet.c2n cell 2) (tet.c2n cell 3) = .ok (e 5) := by
  have hk : ∀ k < 6, ∀ ends, CellType.tet.e2n[k]? = some ends →
      s.edge.edgeWith (tet.c2n cell ends.1) (tet.c2n cell ends.2) = .ok (e k) := by
    intro k hlt ends hends
    obtain ⟨ends', hends', hwith⟩ := c2e_ok (hrun k hlt)
    rw [htype, hends, Option.some.injEq] at hends'
    subst hends'
    exact hwith
  exact ⟨hk 0 (by decide) _ rfl, hk 1 (by decide) _ rfl, hk 2 (by decide) _ rfl,
    hk 3 (by decide) _ rfl, hk 4 (by decide) _ rfl, hk 5 (by decide) _ rfl⟩

/-- A loop over the six edges visits all of them. -/
theorem c2e_of_foldlM {β : Type} {tet : RefCell} (htype : tet.cellType = .tet) {cell : Nat}
    {f : β → Nat → Nat → β} {b b' : β}
    (hrun : (List.range tet.cellType.e2n.length).foldlM (fun b k => do
      let edge ← s.c2e tet k cell
      .ok (f b k edge)) b = Except.ok b') :
    ∃ e : Nat → Nat, (∀ k < 6, s.c2e tet k cell = .ok (e k)) ∧
      b' = f (f (f (f (f (f b 0 (e 0)) 1 (e 1)) 2 (e 2)) 3 (e 3)) 4 (e 4)) 5 (e 5) := by
  rw [htype, show List.range CellType.tet.e2n.length = [0, 1, 2, 3, 4, 5] from rfl] at hrun
  simp only [List.foldlM_cons, List.foldlM_nil, bind_eq_ok, Except.ok.injEq, pure,
    Except.pure] at hrun
  obtain ⟨_, ⟨e0, h0, rfl⟩, _, ⟨e1, h1, rfl⟩, _, ⟨e2, h2, rfl⟩, _, ⟨e3, h3, rfl⟩, _, ⟨e4, h4, rfl⟩,
    _, ⟨e5, h5, rfl⟩, rfl⟩ := hrun
  refine ⟨fun k => [e0, e1, e2, e3, e4, e5].getD k 0, ?_, rfl⟩
  intro k hk
  interval_cases k <;> assumption

/-- Every mark is 0 or 1. -/
def Marks (s : RefSubdiv D) : Prop := ∀ e, e < s.edge.n → s.mark e = 0 ∨ s.mark e = 1

theorem Marks.toNat (hmarks : s.Marks) {a b : Int} {edge : Nat}
    (hrun : s.edge.edgeWith a b = .ok edge) :
    s.mark edge = (((s.marking h).marked a b).toNat : Int) := by
  rw [marked_of_edgeWith hrun]
  rcases hmarks edge (RefEdge.edgeWith_lt h hrun).1 with hm | hm <;> simp [hm]

/-- **`ref_subdiv_map`** is the pattern of the marking. -/
theorem cellMap_ok {tet : RefCell} (htype : tet.cellType = .tet) (hmarks : s.Marks) {cell : Nat}
    {map : Int} (hrun : s.cellMap tet cell = .ok map) :
    map = ((s.marking h).tetMap (quad (tet.c2n cell)) : Nat) := by
  simp only [cellMap, bind_eq_ok] at hrun
  obtain ⟨mapBit, hloop, hret⟩ := hrun
  obtain ⟨e, he, rfl⟩ :=
    c2e_of_foldlM (f := fun acc _ edge => (acc.1 + acc.2 * s.mark edge, acc.2 * 2)) htype hloop
  obtain ⟨h0, h1, h2, h3, h4, h5⟩ := c2e_tet htype he
  rw [Except.ok.injEq] at hret
  rw [← hret]
  simp only [hmarks.toNat (h := h) h0, hmarks.toNat (h := h) h1, hmarks.toNat (h := h) h2,
    hmarks.toNat (h := h) h3, hmarks.toNat (h := h) h4, hmarks.toNat (h := h) h5, Marking.tetMap,
    quad]
  push_cast
  ring

theorem fourRows_ok {nodes : Nat → Int} {rows : List (Nat → Int)}
    (hrun : s.fourRows nodes = .ok rows) :
    rows.map quad = (s.marking h).fourPieces (quad nodes) := by
  simp only [fourRows, bind_eq_ok, Except.ok.injEq] at hrun
  obtain ⟨n01, h01, n02, h02, n10, h10, n12, h12, n20, h20, n21, h21, c0, hc0, c1, hc1, c2, hc2,
    rfl⟩ := hrun
  rw [nodeBetween_ok (h := h) h01, nodeBetween_ok (h := h) h02, nodeBetween_ok (h := h) h10,
    nodeBetween_ok (h := h) h12, nodeBetween_ok (h := h) h20, nodeBetween_ok (h := h) h21,
    nodeBetween_ok (h := h) hc0, nodeBetween_ok (h := h) hc1, nodeBetween_ok (h := h) hc2]
  rfl

theorem eightRows_ok {nodes : Nat → Int} {rows : List (Nat → Int)}
    (hrun : s.eightRows nodes = .ok rows) :
    rows.map quad = (s.marking h).eightPieces (quad nodes) := by
  simp only [eightRows, bind_eq_ok, Except.ok.injEq] at hrun
  obtain ⟨e0, h0, e1, h1, e2, h2, e3, h3, e4, h4, e5, h5, rfl⟩ := hrun
  rw [nodeBetween_ok (h := h) h0, nodeBetween_ok (h := h) h1, nodeBetween_ok (h := h) h2,
    nodeBetween_ok (h := h) h3, nodeBetween_ok (h := h) h4, nodeBetween_ok (h := h) h5]
  rfl

theorem oneEdgeRows_ok {tet : RefCell} (htype : tet.cellType = .tet) {cell : Nat}
    {rows : List (Nat → Int)}
    (hmap : (s.marking h).tetMap (quad (tet.c2n cell)) ∈ [1, 2, 4, 8, 16, 32])
    (hrun : s.oneEdgeRows tet cell (tet.c2n cell) = .ok rows) :
    rows.map quad = (s.marking h).tetPieces (quad (tet.c2n cell)) := by
  simp only [oneEdgeRows, bind_eq_ok] at hrun
  obtain ⟨splitEdge, hloop, hrun⟩ := hrun
  obtain ⟨e, he, hsplit⟩ := c2e_of_foldlM
    (f := fun splitEdge cellEdge edge => if s.mark edge ≠ 0 then some cellEdge else splitEdge)
    htype hloop
  obtain ⟨h0, h1, h2, h3, h4, h5⟩ := c2e_tet htype he
  have hm0 := marked_of_edgeWith (h := h) h0
  have hm1 := marked_of_edgeWith (h := h) h1
  have hm2 := marked_of_edgeWith (h := h) h2
  have hm3 := marked_of_edgeWith (h := h) h3
  have hm4 := marked_of_edgeWith (h := h) h4
  have hm5 := marked_of_edgeWith (h := h) h5
  -- the last marked edge is the only one
  simp only [List.mem_cons, List.not_mem_nil, or_false] at hmap
  rcases hmap with hk | hk | hk | hk | hk | hk <;>
    obtain ⟨k0, k1, k2, k3, k4, k5⟩ := Marking.marks_of_map hk <;>
    norm_num [quad] at k0 k1 k2 k3 k4 k5 <;>
    rw [k0] at hm0 <;> rw [k1] at hm1 <;> rw [k2] at hm2 <;> rw [k3] at hm3 <;>
    rw [k4] at hm4 <;> rw [k5] at hm5 <;>
    simp only [true_eq_decide_iff, false_eq_decide_iff, not_not, ne_eq] at hm0 hm1 hm2 hm3 hm4 hm5 <;>
    simp only [hm0, hm1, hm2, hm3, hm4, hm5, ne_eq, not_true, not_false_iff, if_true, if_false]
      at hsplit <;>
    subst hsplit <;>
    simp only [he _ (show 0 < 6 by decide), he _ (show 1 < 6 by decide),
      he _ (show 2 < 6 by decide), he _ (show 3 < 6 by decide), he _ (show 4 < 6 by decide),
      he _ (show 5 < 6 by decide), htype, bind_eq_ok, Except.ok.injEq, exists_eq_left'] at hrun <;>
    subst hrun <;>
    simp only [Marking.tetPieces, hk] <;>
    simp only [quad, mid_of_edgeWith h0, mid_of_edgeWith h1, mid_of_edgeWith h2,
      mid_of_edgeWith h3, mid_of_edgeWith h4, mid_of_edgeWith h5] <;>
    rfl

/-- **The pieces of a tet.** -/
theorem tetRows_ok {tet : RefCell} (htype : tet.cellType = .tet) {cell : Nat}
    {rows : List (Nat → Int)}
    (hrun : s.tetRows tet cell ((s.marking h).tetMap (quad (tet.c2n cell)) : Nat)
      (tet.c2n cell) = .ok rows) :
    (s.marking h).tetMap (quad (tet.c2n cell)) ∈ Marking.cuttable ∧
      ((s.marking h).tetMap (quad (tet.c2n cell)) = 0 → rows = []) ∧
      ((s.marking h).tetMap (quad (tet.c2n cell)) ≠ 0 →
        rows.map quad = (s.marking h).tetPieces (quad (tet.c2n cell))) := by
  generalize hmap : (s.marking h).tetMap (quad (tet.c2n cell)) = k at hrun ⊢
  have hone : (k : Int) ∈ [(1 : Int), 2, 4, 8, 16, 32] ↔ k ∈ [1, 2, 4, 8, 16, 32] := by
    simp only [List.mem_cons, List.not_mem_nil, or_false]
    omega
  by_cases h0 : k = 0
  · subst h0
    exact ⟨by decide, fun _ => (Except.ok.inj hrun).symm, fun hne => absurd rfl hne⟩
  by_cases h1 : k ∈ [1, 2, 4, 8, 16, 32]
  · rw [tetRows, if_neg (by omega), if_pos (hone.mpr h1)] at hrun
    refine ⟨?_, fun h => absurd h h0, fun _ => ?_⟩
    · simp only [Marking.cuttable, List.mem_cons, List.not_mem_nil, or_false] at h1 ⊢
      omega
    · exact oneEdgeRows_ok htype (hmap ▸ h1) hrun
  rw [tetRows, if_neg (by omega), if_neg (fun hc => h1 (hone.mp hc))] at hrun
  refine ⟨?_, fun h => absurd h h0, fun _ => ?_⟩
  · split_ifs at hrun with h11 h56 h38 h21 h63
    · obtain rfl : k = 11 := by omega
      decide
    · obtain rfl : k = 56 := by omega
      decide
    · obtain rfl : k = 38 := by omega
      decide
    · obtain rfl : k = 21 := by omega
      decide
    · obtain rfl : k = 63 := by omega
      decide
  · split_ifs at hrun with h11 h56 h38 h21 h63
    · obtain rfl : k = 11 := by omega
      rw [fourRows_ok (h := h) hrun, Marking.tetPieces, hmap]
      rfl
    · obtain rfl : k = 56 := by omega
      rw [fourRows_ok (h := h) hrun, Marking.tetPieces, hmap]
      rfl
    · obtain rfl : k = 38 := by omega
      rw [fourRows_ok (h := h) hrun, Marking.tetPieces, hmap]
      rfl
    · obtain rfl : k = 21 := by omega
      rw [fourRows_ok (h := h) hrun, Marking.tetPieces, hmap]
      rfl
    · obtain rfl : k = 63 := by omega
      rw [eightRows_ok (h := h) hrun, Marking.tetPieces, hmap]
      rfl

/-- The triangle of a row. -/
def corner3 (nodes : Nat → Int) : Tri Int := (nodes 0, nodes 1, nodes 2)

theorem cornerRow_ok {nodes row : Nat → Int} {corner after before : Nat}
    (hrun : s.cornerRow nodes corner after before = .ok row) :
    row = Function.update (Function.update nodes after
      ((s.marking h).mid (nodes corner) (nodes after))) before
        ((s.marking h).mid (nodes corner) (nodes before)) := by
  simp only [cornerRow, bind_eq_ok, Except.ok.injEq] at hrun
  obtain ⟨n0, h0, n1, h1, rfl⟩ := hrun
  rw [nodeBetween_ok (h := h) h0, nodeBetween_ok (h := h) h1]

theorem halves_ok {nodes : Nat → Int} {a b first second : Nat} {rows : List (Nat → Int)}
    (hrun : s.halves nodes a b first second = .ok rows) :
    rows = [Function.update nodes first ((s.marking h).mid (nodes a) (nodes b)),
      Function.update nodes second ((s.marking h).mid (nodes a) (nodes b))] := by
  simp only [halves, bind_eq_ok, Except.ok.injEq] at hrun
  obtain ⟨n0, h0, n1, h1, rfl⟩ := hrun
  rw [nodeBetween_ok (h := h) h0, nodeBetween_ok (h := h) h1]

/-- **The pieces of a triangle.**  Without two marked edges there is no
quadrilateral, and every piece has the id of the triangle. -/
theorem triRows_ok {nodes : Nat → Int} {rows : List (Nat → Int) × List (Nat → Int)}
    (htwo : ¬ (s.marking h).TwoMarked (corner3 nodes))
    (hrun : s.triRows nodes ((s.marking h).marked (nodes 0) (nodes 1))
      ((s.marking h).marked (nodes 1) (nodes 2)) ((s.marking h).marked (nodes 2) (nodes 0)) =
        .ok rows) :
    rows.2 = [] ∧ (rows.1 = [] → (s.marking h).triPieces (corner3 nodes) = [corner3 nodes]) ∧
      (rows.1 ≠ [] → rows.1.map corner3 = (s.marking h).triPieces (corner3 nodes) ∧
        (s.marking h).triPieces (corner3 nodes) ≠ [corner3 nodes]) ∧
      ∀ row ∈ rows.1, row 3 = nodes 3 := by
  simp only [Marking.TwoMarked, corner3] at htwo
  simp only [Marking.triPieces, corner3]
  generalize hm01 : (s.marking h).marked (nodes 0) (nodes 1) = m01 at hrun htwo ⊢
  generalize hm12 : (s.marking h).marked (nodes 1) (nodes 2) = m12 at hrun htwo ⊢
  generalize hm20 : (s.marking h).marked (nodes 2) (nodes 0) = m20 at hrun htwo ⊢
  cases m01 <;> cases m12 <;> cases m20 <;>
    first
    | exact absurd rfl htwo
    | simp only [triRows, Bool.false_eq_true, false_and, and_false, and_self, if_false, if_true,
        bind_eq_ok, Except.ok.injEq, exists_eq_left', not_true, not_false_iff] at hrun
  · subst hrun
    simp
  · obtain ⟨rows20, h20, rfl⟩ := hrun
    rw [halves_ok (h := h) h20]
    simp [corner3]
  · obtain ⟨rows12, h12, rfl⟩ := hrun
    rw [halves_ok (h := h) h12]
    simp [corner3]
  · obtain ⟨rows01, h01, rfl⟩ := hrun
    rw [halves_ok (h := h) h01]
    simp [corner3]
  · obtain ⟨near0, h0, near1, h1, near2, h2, c0, hc0, c1, hc1, c2, hc2, rfl⟩ := hrun
    rw [cornerRow_ok (h := h) h0, cornerRow_ok (h := h) h1, cornerRow_ok (h := h) h2,
      nodeBetween_ok (h := h) hc0, nodeBetween_ok (h := h) hc1, nodeBetween_ok (h := h) hc2]
    simp [corner3]

end Pieces

/-! ## One store -/

/-- A store whose cells are replaced by their pieces; a cell without pieces is
left alone. -/
structure Cut (pieces : List Int → List (List Int)) (r r' : RefCell) : Prop where
  inv : r'.CellInv
  type : r'.cellType = r.cellType
  keeps : ∀ c, r.Live c → pieces (r.cellRow c) = [] → r'.Live c ∧ r'.c2n c = r.c2n c
  cells : r'.cells = r.cells.bind fun row =>
    if pieces row = [] then {row} else (pieces row : Multiset (List Int))

section Store

variable {s : RefSubdiv D} {r r1 r2 : RefCell} {gone : List Nat} {fresh : Multiset (List Int)}

theorem replaced_addRows (h : r.Replaced r1 gone fresh)
    {rows : List (Nat → Int)} (hrun : addRows r1 rows = .ok r2) :
    r.Replaced r2 gone (fresh + (rows.map fun row => (List.range r.sizePer).map row :
      List (List Int))) := by
  induction rows generalizing r1 fresh with
  | nil =>
      obtain rfl : r1 = r2 := Except.ok.inj hrun
      simpa using h
  | cons row rest ih =>
      simp only [RefSubdiv.addRows, List.foldlM_cons, bind_eq_ok, Except.ok.injEq] at hrun
      obtain ⟨r1', ⟨⟨r1'', cell⟩, hadd, rfl⟩, hrest⟩ := hrun
      have hnext := ih (h.add hadd) hrest
      rw [List.map_cons, ← Multiset.cons_coe, Multiset.add_cons, ← Multiset.cons_add]
      exact hnext

/-- **The loop that collects the pieces.** -/
theorem collect_spec {σ : Type} (split : σ → RefCell) (removal : σ → Nat → Bool)
    {step : σ → Nat → Except Status σ} (pieces : List Int → List (List Int)) {mem : RefCell}
    (hstep : ∀ c, r.Live c → ∀ a a', step a c = .ok a' → ∃ rows,
      addRows (split a) rows = .ok (split a') ∧
      removal a' = (if rows.isEmpty then removal a else Function.update (removal a) c true) ∧
      (rows.map fun row => (List.range r.sizePer).map row) = pieces (r.cellRow c))
    {a a' : σ} (hsplit : split a = RefCell.create mem r.cellType)
    (hremoval : removal a = fun _ => false) (hrun : r.validCells.foldlM step a = .ok a') :
    (split a').CellInv ∧ (split a').cellType = r.cellType ∧
      (split a').cells = r.cells.bind (fun row => (pieces row : Multiset (List Int))) ∧
      ∀ c, removal a' c = true ↔ r.Live c ∧ pieces (r.cellRow c) ≠ [] := by
  have hloop := foldlM_inv (fun done rest b => done ++ rest = r.validCells ∧
      (RefCell.create mem r.cellType).Replaced (split b) []
        ((done.map r.cellRow : Multiset (List Int)).bind fun row =>
          (pieces row : Multiset (List Int))) ∧
      ∀ c, removal b c = true ↔ c ∈ done ∧ pieces (r.cellRow c) ≠ [])
    (by
      intro done c rest b b' hP hb
      obtain ⟨hlist, hrep, hrem⟩ := hP
      have hlive : r.Live c := by
        rw [← RefCell.mem_validCells, ← hlist]
        simp
      obtain ⟨rows, hadd, hrem', hrows⟩ := hstep c hlive b b' hb
      refine ⟨by simpa using hlist, ?_, ?_⟩
      · have hnext := replaced_addRows hrep hadd
        have hsize : (RefCell.create mem r.cellType).sizePer = r.sizePer := rfl
        rw [hsize, hrows] at hnext
        rw [List.map_append, ← Multiset.coe_add, Multiset.add_bind]
        simpa using hnext
      · intro x
        rw [hrem']
        have hempty : rows.isEmpty = true ↔ pieces (r.cellRow c) = [] := by
          rw [← hrows, List.isEmpty_iff, List.map_eq_nil_iff]
        by_cases hnone : pieces (r.cellRow c) = []
        · rw [if_pos (hempty.mpr hnone), hrem x, List.mem_append, List.mem_singleton]
          grind
        · rw [if_neg (fun he => hnone (hempty.mp he)), List.mem_append, List.mem_singleton]
          by_cases hxc : x = c
          · subst hxc
            simp [hnone]
          · rw [Function.update_of_ne hxc, hrem x]
            simp [hxc])
    ⟨List.nil_append _, by
      rw [hsplit]
      simpa using RefCell.Replaced.refl (RefCell.create_inv mem r.cellType), by
      intro c
      rw [hremoval]
      simp⟩ hrun
  obtain ⟨_, hrep, hrem⟩ := hloop
  refine ⟨hrep.inv, hrep.type, ?_, ?_⟩
  · have hcells := hrep.cells
    rw [RefCell.cells_create] at hcells
    simpa [RefCell.cells] using hcells
  · intro c
    rw [hrem c, RefCell.mem_validCells]

/-- The marked cells are removed. -/
theorem replaced_removeMarked (hinv : r.CellInv) {removal : Nat → Bool}
    (hlive : ∀ c, removal c = true → r.Live c) (hrun : removeMarked r removal = .ok r1) :
    ∃ gone : List Nat, gone.Nodup ∧ (∀ c, c ∈ gone ↔ removal c = true) ∧
      r.Replaced r1 gone 0 := by
  have hmem : ∀ c, c ∈ (List.range r.max).filter removal ↔ removal c = true := by
    intro c
    rw [List.mem_filter, List.mem_range]
    constructor
    · intro hc
      exact hc.2
    · intro hc
      exact ⟨(hlive c hc).1, hc⟩
  have hnodup : ((List.range r.max).filter removal).Nodup := List.nodup_range.filter _
  have hloop := foldlM_inv (fun done rest r1 => done ++ rest = (List.range r.max).filter removal ∧
      r.Replaced r1 done.reverse 0)
    (by
      intro done c rest r1 r2 hP hc
      obtain ⟨hlist, hrep⟩ := hP
      rw [← hlist] at hnodup
      have hin : c ∈ (List.range r.max).filter removal := by
        rw [← hlist]
        simp
      have hnot : c ∉ done.reverse := by
        rw [List.nodup_append] at hnodup
        intro hmem
        exact hnodup.2.2 c (List.mem_reverse.mp hmem) c List.mem_cons_self rfl
      obtain ⟨r2', hrun', hrep'⟩ := hrep.remove (hlive c ((hmem c).mp hin)) hnot
      obtain rfl : r2' = r2 := Except.ok.inj (hrun'.symm.trans hc)
      refine ⟨by simpa using hlist, ?_⟩
      rw [List.reverse_append]
      exact hrep')
    ⟨List.nil_append _, RefCell.Replaced.refl hinv⟩ hrun
  refine ⟨_, List.nodup_reverse.mpr hnodup, ?_, hloop.2⟩
  intro c
  rw [List.mem_reverse]
  exact hmem c

/-- A node of the row belongs to this rank. -/
def RowLocal (s : RefSubdiv D) (nodePer : Nat) (row : List Int) : Prop :=
  ∃ x ∈ row.take nodePer, s.grid.node.rank = s.grid.node.part x.toNat

/-- The pieces are added. -/
theorem replaced_addLocalCells (h : r.Replaced r1 gone fresh) {split : RefCell}
    (htype : split.cellType = r.cellType)
    (hlocal : ∀ row ∈ split.cells, s.RowLocal r.nodePer row)
    (hrun : s.addLocalCells r1 split = .ok r2) :
    r.Replaced r2 gone (fresh + split.cells) := by
  have hper : split.nodePer = r.nodePer := by rw [RefCell.nodePer, htype, RefCell.nodePer]
  have hsize : split.sizePer = r.sizePer := by rw [RefCell.sizePer, htype, RefCell.sizePer]
  have hloop := foldlM_inv (fun done rest r2 => done ++ rest = split.validCells ∧
      r.Replaced r2 gone (fresh + (done.map split.cellRow : List (List Int))))
    (by
      intro done c rest r2 r3 hP hc
      obtain ⟨hlist, hrep⟩ := hP
      have hlive : split.Live c := by
        rw [← RefCell.mem_validCells, ← hlist]
        simp
      have hany : ((List.range r2.nodePer).any fun node =>
          s.grid.node.rank = s.grid.node.part (split.c2n c node).toNat) = true := by
        obtain ⟨x, hx, hpart⟩ := hlocal _ (RefCell.mem_cells.mpr ⟨c, hlive, rfl⟩)
        rw [← hper, RefCell.take_cellRow, RefCell.mem_nodeList] at hx
        obtain ⟨i, hi, rfl⟩ := hx
        rw [List.any_eq_true]
        refine ⟨i, ?_, by simpa using hpart⟩
        rw [List.mem_range, hrep.nodePer, ← hper]
        exact hi
      simp only [addLocalCell, hany, if_true, bind_eq_ok, Except.ok.injEq] at hc
      obtain ⟨⟨r3', cell⟩, hadd, rfl⟩ := hc
      refine ⟨by simpa using hlist, ?_⟩
      have hnext := hrep.add hadd
      have hrow : (List.range r.sizePer).map (split.c2n c) = split.cellRow c := by
        rw [← hsize]
        rfl
      rw [hrow] at hnext
      rw [List.map_append, ← Multiset.coe_add, ← add_assoc, add_comm]
      exact hnext)
    ⟨List.nil_append _, by simpa using h⟩ hrun
  exact hloop.2

/-- **Cutting the cells of a store.** -/
theorem cut_of_collected {pieces : List Int → List (List Int)} {split : RefCell}
    {removal : Nat → Bool} (hinv : r.CellInv) (htype : split.cellType = r.cellType)
    (hcells : split.cells = r.cells.bind fun row => (pieces row : Multiset (List Int)))
    (hremoval : ∀ c, removal c = true ↔ r.Live c ∧ pieces (r.cellRow c) ≠ [])
    (hlocal : ∀ row ∈ r.cells, ∀ piece ∈ pieces row, s.RowLocal r.nodePer piece)
    (h1 : removeMarked r removal = .ok r1) (h2 : s.addLocalCells r1 split = .ok r2) :
    Cut pieces r r2 := by
  obtain ⟨gone, hnodup, hgone, hrep⟩ :=
    replaced_removeMarked hinv (fun c hc => ((hremoval c).mp hc).1) h1
  have hlocal' : ∀ row ∈ split.cells, s.RowLocal r.nodePer row := by
    intro piece hpiece
    rw [hcells, Multiset.mem_bind] at hpiece
    obtain ⟨row, hrow, hin⟩ := hpiece
    exact hlocal row hrow piece hin
  have hrep2 := replaced_addLocalCells hrep htype hlocal' h2
  constructor
  · exact hrep2.inv
  · exact hrep2.type
  · intro c hlive hnone
    apply hrep2.keeps c hlive
    intro hc
    exact ((hremoval c).mp ((hgone c).mp hc)).2 hnone
  · rw [hrep2.cells_eq hnodup (fun row => pieces row ≠ []) fun c => by rw [hgone c, hremoval c],
      zero_add, hcells]
    generalize r.cells = m
    induction m using Multiset.induction_on with
    | empty => rfl
    | cons row m ih =>
        simp only [Multiset.cons_bind, Multiset.filter_cons]
        rw [← ih]
        by_cases hnone : pieces row = []
        · simp [hnone]
        · simp only [hnone, ne_eq, not_false_iff, not_true, if_false, zero_add]
          exact add_left_comm _ _ _

end Store

/-! ## Both stores -/

/-- The rows of the pieces of a tet, none when no edge is marked. -/
def tetPieceRows (m : Marking Int) (row : List Int) : List (List Int) :=
  if m.tetMap (tetOf row) = 0 then [] else (m.tetPieces (tetOf row)).map Tet.corners

/-- The rows of the pieces of a triangle, each with its id; none when the
triangle is left alone. -/
def triPieceRows (m : Marking Int) (row : List Int) : List (List Int) :=
  if m.triPieces (triOf row) = [triOf row] then []
  else (m.triPieces (triOf row)).map fun f => f.corners ++ [row.getD 3 0]

section Split

variable {s s' : RefSubdiv D} {h : s.edge.EdgeInv} {mem : RefCell}

theorem map_range_tet (rows : List (Nat → Int)) :
    (rows.map fun row => (List.range 4).map row) = (rows.map quad).map Tet.corners := by
  rw [List.map_map]
  rfl

theorem map_range_tri {rows : List (Nat → Int)} {id : Int} (hid : ∀ row ∈ rows, row 3 = id) :
    (rows.map fun row => (List.range 4).map row) =
      (rows.map corner3).map fun f => f.corners ++ [id] := by
  rw [List.map_map]
  apply List.map_congr_left
  intro row hrow
  rw [← hid row hrow]
  rfl

theorem quad_c2n {tet : RefCell} (htype : tet.cellType = .tet) (c : Nat) :
    quad (tet.c2n c) = tetOf (tet.cellRow c) := (tetOf_cellRow htype c).symm

theorem corner3_c2n {tri : RefCell} (htype : tri.cellType = .tri) (c : Nat) :
    corner3 (tri.c2n c) = triOf (tri.cellRow c) := (triOf_cellRow htype c).symm

theorem splitTetCell_ok (htype : (s.grid.cell .tet).cellType = .tet) (hmarks : s.Marks) {c : Nat}
    {acc acc' : RefCell × (Nat → Bool)} (hrun : s.splitTetCell acc c = .ok acc') :
    (s.marking h).tetMap (tetOf ((s.grid.cell .tet).cellRow c)) ∈ Marking.cuttable ∧
    ∃ rows, addRows acc.1 rows = .ok acc'.1 ∧
      acc'.2 = (if rows.isEmpty then acc.2 else Function.update acc.2 c true) ∧
      (rows.map fun row => (List.range 4).map row) =
        tetPieceRows (s.marking h) ((s.grid.cell .tet).cellRow c) := by
  simp only [splitTetCell, bind_eq_ok, Except.ok.injEq] at hrun
  obtain ⟨map, hmap, nodes, hnodes, rows, hrows, split, hadd, rfl⟩ := hrun
  obtain rfl : (s.grid.cell .tet).c2n c = nodes := by
    simp only [RefCell.nodes] at hnodes
    split at hnodes
    · cases hnodes
    · exact Except.ok.inj hnodes
  rw [cellMap_ok (h := h) htype hmarks hmap] at hrows
  obtain ⟨hcut, hzero, hpieces⟩ := tetRows_ok (h := h) htype hrows
  rw [quad_c2n htype] at hcut hzero hpieces
  refine ⟨hcut, rows, hadd, rfl, ?_⟩
  rw [tetPieceRows]
  split
  · rename_i h0
    rw [hzero h0]
    rfl
  · rename_i h0
    rw [map_range_tet, hpieces h0]

/-- The loop passes only tets that can be cut. -/
theorem cuttable_of_splitTet (hinv : s.grid.CellsInv) (hmarks : s.Marks)
    (hrun : s.splitTet mem = .ok s') :
    ∀ t ∈ s.grid.tets, (s.marking h).tetMap t ∈ Marking.cuttable := by
  simp only [splitTet, bind_eq_ok] at hrun
  obtain ⟨acc, hloop, _⟩ := hrun
  intro t ht
  obtain ⟨row, hrow, rfl⟩ := Multiset.mem_map.mp ht
  obtain ⟨c, hlive, rfl⟩ := RefCell.mem_cells.mp hrow
  by_contra hbad
  obtain ⟨e, he⟩ := foldlM_error (f := s.splitTetCell) (RefCell.mem_validCells.mpr hlive)
    (by
      intro b
      cases hstep : s.splitTetCell b c with
      | error e => exact ⟨e, rfl⟩
      | ok b' => exact absurd (splitTetCell_ok (h := h) (hinv.type .tet) hmarks hstep).1 hbad)
    (RefCell.create mem (s.grid.cell .tet).cellType, fun _ => false)
  rw [hloop] at he
  cases he

/-- **`ref_subdiv_split_tet`** cuts every tet. -/
theorem splitTet_ok (hinv : s.grid.CellsInv) (hmarks : s.Marks)
    (hlocal : ∀ row ∈ (s.grid.cell .tet).cells, ∀ piece ∈ tetPieceRows (s.marking h) row,
      s.RowLocal 4 piece)
    (hrun : s.splitTet mem = .ok s') :
    ∃ tet', s' = { s with grid := s.grid.setCell .tet tet' } ∧
      Cut (tetPieceRows (s.marking h)) (s.grid.cell .tet) tet' := by
  have htype := hinv.type .tet
  have hsize : (s.grid.cell .tet).sizePer = 4 := by rw [RefCell.sizePer, htype]; rfl
  have hper : (s.grid.cell .tet).nodePer = 4 := by rw [RefCell.nodePer, htype]; rfl
  simp only [splitTet, bind_eq_ok, Except.ok.injEq] at hrun
  obtain ⟨acc, hloop, tet1, hremove, tet2, hadd, rfl⟩ := hrun
  obtain ⟨_, hstype, hcells, hremoval⟩ := collect_spec (r := s.grid.cell .tet) Prod.fst
    Prod.snd (tetPieceRows (s.marking h))
    (by
      intro c _ a a' hstep
      rw [hsize]
      exact (splitTetCell_ok (h := h) htype hmarks hstep).2)
    rfl rfl hloop
  refine ⟨tet2, rfl, ?_⟩
  apply cut_of_collected (s := s) (hinv.inv .tet) hstype hcells hremoval _ hremove hadd
  rw [hper]
  exact hlocal

theorem splitTriCell_ok (htype : (s.grid.cell .tri).cellType = .tri) {c : Nat}
    (htwo : ¬ (s.marking h).TwoMarked (triOf ((s.grid.cell .tri).cellRow c)))
    {acc acc' : RefCell × RefCell × (Nat → Bool)} (hrun : s.splitTriCell acc c = .ok acc') :
    acc'.2.1 = acc.2.1 ∧ ∃ rows, addRows acc.1 rows = .ok acc'.1 ∧
      acc'.2.2 = (if rows.isEmpty then acc.2.2 else Function.update acc.2.2 c true) ∧
      (rows.map fun row => (List.range 4).map row) =
        triPieceRows (s.marking h) ((s.grid.cell .tri).cellRow c) := by
  simp only [splitTriCell, bind_eq_ok, Except.ok.injEq] at hrun
  obtain ⟨nodes, hnodes, edge01, h01, edge12, h12, edge20, h20, rows, hrows, triSplit, hadd,
    quaSplit, hqua, rfl⟩ := hrun
  obtain rfl : (s.grid.cell .tri).c2n c = nodes := by
    simp only [RefCell.nodes] at hnodes
    split at hnodes
    · cases hnodes
    · exact Except.ok.inj hnodes
  rw [← marked_of_edgeWith (h := h) h01, ← marked_of_edgeWith (h := h) h12,
    ← marked_of_edgeWith (h := h) h20] at hrows
  rw [← corner3_c2n htype] at htwo
  obtain ⟨hnoQua, hnone, hsome, hid⟩ := triRows_ok (h := h) htwo hrows
  rw [corner3_c2n htype] at hnone hsome
  rw [hnoQua] at hqua
  refine ⟨(Except.ok.inj hqua).symm, rows.1, hadd, rfl, ?_⟩
  have hlast : ((s.grid.cell .tri).cellRow c).getD 3 0 = (s.grid.cell .tri).c2n c 3 := by
    have hsize : (s.grid.cell .tri).sizePer = 4 := by rw [RefCell.sizePer, htype]; rfl
    simp [RefCell.cellRow, hsize, List.getD_eq_getElem?_getD]
  rw [triPieceRows]
  by_cases hempty : rows.1 = []
  · rw [if_pos (hnone hempty), hempty]
    rfl
  · rw [if_neg (hsome hempty).2, map_range_tri hid, (hsome hempty).1, hlast]

/-- **`ref_subdiv_split_tri`** cuts every triangle. -/
theorem splitTri_ok (hinv : s.grid.CellsInv)
    (htwo : ∀ f ∈ s.grid.tris, ¬ (s.marking h).TwoMarked f)
    (hlocal : ∀ row ∈ (s.grid.cell .tri).cells, ∀ piece ∈ triPieceRows (s.marking h) row,
      s.RowLocal 3 piece)
    (hrun : s.splitTri mem = .ok s') :
    ∃ tri', s' = { s with grid := s.grid.setCell .tri tri' } ∧
      Cut (triPieceRows (s.marking h)) (s.grid.cell .tri) tri' := by
  have htype := hinv.type .tri
  have hsize : (s.grid.cell .tri).sizePer = 4 := by rw [RefCell.sizePer, htype]; rfl
  have hper : (s.grid.cell .tri).nodePer = 3 := by rw [RefCell.nodePer, htype]; rfl
  have hface : ∀ c, (s.grid.cell .tri).Live c →
      ¬ (s.marking h).TwoMarked (triOf ((s.grid.cell .tri).cellRow c)) := by
    intro c hlive
    exact htwo _ (Multiset.mem_map_of_mem _ (RefCell.mem_cells.mpr ⟨c, hlive, rfl⟩))
  simp only [splitTri, bind_eq_ok, Except.ok.injEq] at hrun
  obtain ⟨acc, hloop, tri1, hremove, tri2, hadd, qua, hqua, rfl⟩ := hrun
  obtain ⟨_, hstype, hcells, hremoval⟩ := collect_spec (r := s.grid.cell .tri) Prod.fst
    (fun a => a.2.2) (triPieceRows (s.marking h))
    (by
      intro c hlive a a' hstep
      rw [hsize]
      exact (splitTriCell_ok (h := h) htype (hface c hlive) hstep).2)
    rfl rfl hloop
  have hsame : qua = s.grid.cell .qua := by
    have hempty := foldlM_inv (fun _ rest b => (∀ c ∈ rest, (s.grid.cell .tri).Live c) ∧
        b.2.1 = RefCell.create mem (s.grid.cell .qua).cellType)
      (by
        intro done c rest b b' hP hstep
        obtain ⟨hrest, hb⟩ := hP
        refine ⟨fun x hx => hrest x (List.mem_cons_of_mem c hx), ?_⟩
        rw [(splitTriCell_ok (h := h) htype (hface c (hrest c List.mem_cons_self)) hstep).1]
        exact hb)
      ⟨fun c hc => RefCell.mem_validCells.mp hc, rfl⟩ hloop
    have hvalid : acc.2.1.validCells = [] := by
      have hnone := RefCell.cells_create mem (s.grid.cell .qua).cellType
      rw [hempty.2]
      simpa [RefCell.cells] using hnone
    rw [addLocalCells, hvalid] at hqua
    exact (Except.ok.inj hqua).symm
  refine ⟨tri2, ?_, ?_⟩
  · rw [hsame]
    congr 1
    simp only [RefGrid.setCell]
    congr 1
    funext t
    by_cases ht : t = .qua
    · subst ht
      simp
    · simp [Function.update_of_ne ht]
  · apply cut_of_collected (s := s) (hinv.inv .tri) hstype hcells hremoval _ hremove hadd
    rw [hper]
    exact hlocal

end Split

/-! ## The mesh -/

section Mesh

variable {s s1 s2 : RefSubdiv D} {h : s.edge.EdgeInv}

/-- Every node of a cell and every new node belongs to this rank: a run on one
processor. -/
structure AllLocal (s : RefSubdiv D) : Prop where
  cells : ∀ t c, (s.grid.cell t).Live c → ∀ v ∈ (s.grid.cell t).nodeList c,
    s.grid.node.rank = s.grid.node.part v.toNat
  new : ∀ e, e < s.edge.n → s.mark e ≠ 0 → s.grid.node.rank = s.grid.node.part (s.node e).toNat

/-- A marked pair is a marked edge. -/
theorem exists_edge_of_marked {a b : Int} (hm : (s.marking h).marked a b = true) :
    ∃ e, e < s.edge.n ∧ s.mark e ≠ 0 ∧ s.edge.Joins e a b ∧ (s.marking h).mid a b = s.node e := by
  rcases RefEdge.edgeWith_spec h a b with ⟨e, hwith, he, hj⟩ | ⟨hwith, _⟩
  · rw [marked_of_edgeWith hwith] at hm
    exact ⟨e, he, by simpa using hm, hj, mid_of_edgeWith hwith⟩
  · simp [marking, hwith] at hm

theorem AllLocal.of_oldOrMid (hlocal : s.AllLocal) {t : CellType} {c : Nat}
    (hlive : (s.grid.cell t).Live c) {x : Int}
    (hx : (s.marking h).OldOrMid ((s.grid.cell t).nodeList c) x) :
    s.grid.node.rank = s.grid.node.part x.toNat := by
  rcases hx with hold | ⟨a, b, hm, rfl⟩
  · exact hlocal.cells t c hlive x hold
  · obtain ⟨e, he, hmark, _, hmid⟩ := exists_edge_of_marked hm
    rw [hmid]
    exact hlocal.new e he hmark

theorem cut_tets {tet' : RefCell}
    (hcut : Cut (tetPieceRows (s.marking h)) (s.grid.cell .tet) tet')
    (hmap : ∀ t ∈ s.grid.tets, (s.marking h).tetMap t ∈ Marking.cuttable) :
    tet'.cells.map tetOf =
      s.grid.tets.bind fun t => ((s.marking h).tetPieces t : Multiset (Tet Int)) := by
  rw [hcut.cells, Multiset.map_bind, RefGrid.tets, Multiset.bind_map]
  apply Multiset.bind_congr
  intro row hrow
  rw [tetPieceRows]
  by_cases h0 : (s.marking h).tetMap (tetOf row) = 0
  · simp [h0, Marking.tetPieces]
  · have hlen := Marking.length_tetPieces _ (hmap _ (Multiset.mem_map_of_mem _ hrow)) h0
    have hne : (s.marking h).tetPieces (tetOf row) ≠ [] := by
      intro hnil
      simp [hnil] at hlen
    rw [if_neg h0, if_neg (by simpa using hne), Multiset.map_coe, List.map_map]
    congr 1
    exact List.map_id _

theorem triPieces_ne_nil (m : Marking Int) (f : Tri Int) : m.triPieces f ≠ [] := by
  simp only [Marking.triPieces]
  split <;> simp

theorem cut_tris {tri' : RefCell}
    (hlen : ∀ row ∈ (s.grid.cell .tri).cells, row.length = 4)
    (hcut : Cut (triPieceRows (s.marking h)) (s.grid.cell .tri) tri') :
    tri'.cells = (s.grid.cell .tri).cells.bind fun row =>
      (((s.marking h).triPieces (triOf row)).map fun f => f.corners ++ [row.getD 3 0] :
        List (List Int)) := by
  rw [hcut.cells]
  apply Multiset.bind_congr
  intro row hrow
  rw [triPieceRows]
  by_cases hone : (s.marking h).triPieces (triOf row) = [triOf row]
  · match row, hlen row hrow with
    | [a, b, c, d], _ =>
        rw [if_pos hone, if_pos rfl, hone]
        rfl
  · rw [if_neg hone, if_neg (by simpa using triPieces_ne_nil _ _)]

/-- The ends of an edge are two nodes of a cell. -/
theorem ends_of_covers (hinv : s.grid.CellsInv)
    (hsimple : ∀ t ∈ types3d ++ types2d, (s.grid.cell t).Simple)
    (hcovers : s.edge.Covers (RefEdge.gridEdges s.grid)) {e : Nat} (he : e < s.edge.n) :
    s.edge.e2n e 0 ≠ s.edge.e2n e 1 ∧ ∃ t c, (s.grid.cell t).Live c ∧
      s.edge.e2n e 0 ∈ (s.grid.cell t).nodeList c ∧
      s.edge.e2n e 1 ∈ (s.grid.cell t).nodeList c := by
  obtain ⟨⟨a, b⟩, hpair, hj⟩ := hcovers.joins e he
  obtain ⟨t, ht, hedge⟩ := List.mem_flatMap.mp hpair
  obtain ⟨c, hlive, ends, hends, ha, hb⟩ := RefEdge.mem_cellEdges.mp hedge
  rw [hinv.type t] at hends
  have htable : ∀ t : CellType, ∀ ends ∈ t.e2n, ends.1 < t.nodePer ∧ ends.2 < t.nodePer ∧
      ends.1 ≠ ends.2 := by
    intro t
    cases t <;> decide
  obtain ⟨h1, h2, hne⟩ := htable t ends hends
  have hper : (s.grid.cell t).nodePer = t.nodePer := by rw [RefCell.nodePer, hinv.type t]
  have hab : a ≠ b := by
    intro hab
    have hnodup := hsimple t ht c hlive
    rw [RefCell.nodeList, hper] at hnodup
    apply hne
    exact List.inj_on_of_nodup_map hnodup (List.mem_range.mpr h1) (List.mem_range.mpr h2)
      (by rw [ha, hb, hab])
  have hina : a ∈ (s.grid.cell t).nodeList c :=
    RefCell.mem_nodeList.mpr ⟨ends.1, hper ▸ h1, ha⟩
  have hinb : b ∈ (s.grid.cell t).nodeList c :=
    RefCell.mem_nodeList.mpr ⟨ends.2, hper ▸ h2, hb⟩
  rcases hj with ⟨h0, h1⟩ | ⟨h0, h1⟩
  · exact ⟨by rw [h0, h1]; exact hab, t, c, hlive, h0 ▸ hina, h1 ▸ hinb⟩
  · exact ⟨by rw [h0, h1]; exact hab.symm, t, c, hlive, h0 ▸ hinb, h1 ▸ hina⟩

/-- A piece without two old corners on a marked edge has no marked edge. -/
theorem not_both_ends (hinv : s.grid.CellsInv)
    (hsimple : ∀ t ∈ types3d ++ types2d, (s.grid.cell t).Simple)
    (hcovers : s.edge.Covers (RefEdge.gridEdges s.grid))
    (hnew : ∀ e, e < s.edge.n → s.mark e ≠ 0 → s.grid.Unused (s.node e)) {old corners : List Int}
    (hcorner : ∀ x ∈ corners, (s.marking h).OldOrMid old x)
    (hmarked : ∀ x ∈ corners, ∀ y ∈ corners, x ∈ old → y ∈ old → x ≠ y →
      (s.marking h).marked x y = false)
    {e : Nat} (he : e < s.edge.n) (hmark : s.mark e ≠ 0) :
    ¬ (s.edge.e2n e 0 ∈ corners ∧ s.edge.e2n e 1 ∈ corners) := by
  intro hboth
  obtain ⟨hne, t, c, hlive, h0, h1⟩ := ends_of_covers hinv hsimple hcovers he
  have hold : ∀ x ∈ corners, x ∈ (s.grid.cell t).nodeList c → x ∈ old := by
    intro x hx hin
    rcases hcorner x hx with hold | ⟨a, b, hm, rfl⟩
    · exact hold
    · obtain ⟨e', he', hmark', _, hmid⟩ := exists_edge_of_marked hm
      rw [hmid] at hin
      exact absurd hin (hnew e' he' hmark' t c hlive)
  have hfalse := hmarked _ hboth.1 _ hboth.2 (hold _ hboth.1 h0) (hold _ hboth.2 h1) hne
  have hwith : s.edge.edgeWith (s.edge.e2n e 0) (s.edge.e2n e 1) = .ok e :=
    RefEdge.edgeWith_of_joins h he (Or.inl ⟨rfl, rfl⟩)
  rw [marked_of_edgeWith hwith] at hfalse
  exact hmark (by simpa using hfalse)

/-- The new node of a marked edge is no node of a cell. -/
theorem mid_notMem (hnew : ∀ e, e < s.edge.n → s.mark e ≠ 0 → s.grid.Unused (s.node e))
    {t : CellType} {c : Nat} (hlive : (s.grid.cell t).Live c) :
    ∀ x y, (s.marking h).marked x y = true →
      (s.marking h).mid x y ∉ (s.grid.cell t).nodeList c := by
  intro x y hm
  obtain ⟨e, he, hmark, _, hmid⟩ := exists_edge_of_marked hm
  rw [hmid]
  exact hnew e he hmark t c hlive

/-- Every piece of a tet has a node of this rank. -/
theorem AllLocal.tetPieceRows (hlocal : s.AllLocal) (htype : (s.grid.cell .tet).cellType = .tet)
    (hmap : ∀ t ∈ s.grid.tets, (s.marking h).tetMap t ∈ Marking.cuttable) :
    ∀ row ∈ (s.grid.cell .tet).cells, ∀ piece ∈ tetPieceRows (s.marking h) row,
      s.RowLocal 4 piece := by
  intro row hrow piece hpiece
  have hcut := hmap _ (Multiset.mem_map_of_mem _ hrow)
  obtain ⟨c, hlive, rfl⟩ := RefCell.mem_cells.mp hrow
  rw [RefSubdiv.tetPieceRows] at hpiece
  split at hpiece
  · cases hpiece
  · obtain ⟨t', ht', rfl⟩ := List.mem_map.mp hpiece
    have hin : t'.1 ∈ t'.corners := List.mem_cons_self
    have hx := Marking.oldOrMid_of_tetPieces _ hcut t' ht' t'.1 hin
    rw [corners_tetOf htype] at hx
    exact ⟨t'.1, hin, hlocal.of_oldOrMid hlive hx⟩

/-- Every piece of a triangle has a node of this rank. -/
theorem AllLocal.triPieceRows (hlocal : s.AllLocal) (htype : (s.grid.cell .tri).cellType = .tri) :
    ∀ row ∈ (s.grid.cell .tri).cells, ∀ piece ∈ triPieceRows (s.marking h) row,
      s.RowLocal 3 piece := by
  intro row hrow piece hpiece
  obtain ⟨c, hlive, rfl⟩ := RefCell.mem_cells.mp hrow
  rw [RefSubdiv.triPieceRows] at hpiece
  split at hpiece
  · cases hpiece
  · obtain ⟨f', hf', rfl⟩ := List.mem_map.mp hpiece
    have hin : f'.1 ∈ f'.corners := List.mem_cons_self
    have hx := Marking.oldOrMid_of_triPieces _ f' hf' f'.1 hin
    rw [corners_triOf htype] at hx
    exact ⟨f'.1, hin, hlocal.of_oldOrMid hlive hx⟩

end Mesh

end RefSubdiv

open RefSubdiv in
/-- **Subdivision of a tet mesh is conforming and watertight.**  The boundary
of the new tets is the new triangles; a tet with marked edges is replaced by 2,
4 or 8 that share its signed volume evenly and have its subdivided faces as
their boundary; the triangles keep their ids; and no tet or triangle has both
ends of a marked edge. -/
theorem subdivision_conforming (s s1 s2 : RefSubdiv D) (mem mem' : RefCell)
    (hg : s.grid.Conforming) (hsimple : ∀ t ∈ types3d ++ types2d, (s.grid.cell t).Simple)
    (hcovers : s.edge.Covers (RefEdge.gridEdges s.grid)) (hmarks : s.Marks)
    (hnew : ∀ e, e < s.edge.n → s.mark e ≠ 0 → s.grid.Unused (s.node e)) (hlocal : s.AllLocal)
    (h1 : s.splitTet mem = .ok s1) (h2 : s1.splitTri mem' = .ok s2) :
    let m := s.marking hcovers.inv
    boundary s2.grid.tets = chain s2.grid.tris ∧
    (s2.grid.tets = s.grid.tets.bind (fun t => (m.tetPieces t : Multiset (Tet Int))) ∧
      ∀ t ∈ s.grid.tets, (m.tetMap t = 0 → m.tetPieces t = [t]) ∧
        (m.tetMap t ≠ 0 → (m.tetPieces t).length ∈ [2, 4, 8]) ∧
        boundary (m.tetPieces t : Multiset (Tet Int)) = ((faces t).map m.cutTri).sum ∧
        ∀ p : Int → ℝ × ℝ × ℝ, m.HalfWay p → ∀ t' ∈ m.tetPieces t,
          (m.tetPieces t).length * Marking.volume6 p t' = Marking.volume6 p t) ∧
    (s2.grid.cell .tri).cells = ((s.grid.cell .tri).cells.bind fun row =>
      ((m.triPieces (triOf row)).map fun f => f.corners ++ [row.getD 3 0] : List (List Int))) ∧
    ∀ e, e < s.edge.n → s.mark e ≠ 0 → ∀ t ∈ [CellType.tet, .tri], ∀ c, (s2.grid.cell t).Live c →
      ¬ (s.edge.e2n e 0 ∈ (s2.grid.cell t).nodeList c ∧
        s.edge.e2n e 1 ∈ (s2.grid.cell t).nodeList c) := by
  intro m
  have htet := hg.inv.type .tet
  have htri := hg.inv.type .tri
  have hmap : ∀ t ∈ s.grid.tets, m.tetMap t ∈ Marking.cuttable :=
    cuttable_of_splitTet hg.inv hmarks h1
  have htwo : ∀ f ∈ s.grid.tris, ¬ m.TwoMarked f :=
    fun f hf => m.not_twoMarked_of_unshared hg.faces hmap hf
  obtain ⟨tet', rfl, hcut⟩ := splitTet_ok hg.inv hmarks (hlocal.tetPieceRows htet hmap) h1
  have hside : (s.grid.setCell .tet tet').cell .tri = s.grid.cell .tri :=
    s.grid.setCell_cell_of_ne tet' (by decide)
  have htris : (s.grid.setCell .tet tet').tris = s.grid.tris := by rw [RefGrid.tris, hside]; rfl
  obtain ⟨tri', rfl, hcutTri⟩ := splitTri_ok
    (s := { s with grid := s.grid.setCell .tet tet' }) (h := hcovers.inv)
    (hg.inv.setCell (hcut.type.trans htet) hcut.inv) (fun f hf => htwo f (htris ▸ hf))
    (by
      intro row hrow
      exact hlocal.triPieceRows (h := hcovers.inv) htri row (hside ▸ hrow)) h2
  replace hcutTri : Cut (triPieceRows m) (s.grid.cell .tri) tri' := by
    rw [← hside]
    exact hcutTri
  have hlen : ∀ row ∈ (s.grid.cell .tri).cells, row.length = 4 := by
    intro row hrow
    obtain ⟨c, _, rfl⟩ := RefCell.mem_cells.mp hrow
    rw [RefCell.length_cellRow, RefCell.sizePer, htri]
    rfl
  have hcells := cut_tris (h := hcovers.inv) hlen hcutTri
  have hcellTet : ((s.grid.setCell .tet tet').setCell .tri tri').cell .tet = tet' := by
    rw [RefGrid.setCell_cell_of_ne _ _ (by decide), RefGrid.setCell_cell_self]
  have hcellTri : ((s.grid.setCell .tet tet').setCell .tri tri').cell .tri = tri' :=
    RefGrid.setCell_cell_self _ _ _
  have hnewTets : ((s.grid.setCell .tet tet').setCell .tri tri').tets =
      s.grid.tets.bind fun t => (m.tetPieces t : Multiset (Tet Int)) := by
    rw [RefGrid.tets, hcellTet]
    exact cut_tets hcut hmap
  have hnewTris : ((s.grid.setCell .tet tet').setCell .tri tri').tris =
      s.grid.tris.bind fun f => (m.triPieces f : Multiset (Tri Int)) := by
    rw [RefGrid.tris, hcellTri, hcells, Multiset.map_bind, RefGrid.tris, Multiset.bind_map]
    apply Multiset.bind_congr
    intro row _
    rw [Multiset.map_coe, List.map_map]
    congr 1
    exact List.map_id _
  refine ⟨?_, ⟨hnewTets, ?_⟩, ?_, ?_⟩
  · rw [hnewTets, hnewTris]
    exact m.boundary_subdivided hg.faces.boundary_eq hmap
  · intro t ht
    refine ⟨?_, m.length_tetPieces (hmap t ht), m.boundary_tetPieces (hmap t ht), ?_⟩
    · intro h0
      simp [Marking.tetPieces, h0]
    · intro p hp
      exact m.volume6_tetPieces hp (hmap t ht)
  · rw [hcellTri, hcells]
  · intro e he hmark t ht c hlive
    rcases List.mem_pair.mp ht with rfl | rfl
    · rw [hcellTet] at hlive ⊢
      have hin : tetOf (tet'.cellRow c) ∈ tet'.cells.map tetOf :=
        Multiset.mem_map_of_mem _ (RefCell.mem_cells.mpr ⟨c, hlive, rfl⟩)
      rw [cut_tets hcut hmap, Multiset.mem_bind] at hin
      obtain ⟨told, htold, hpiece⟩ := hin
      have hold := hmap told htold
      obtain ⟨row, hrow, rfl⟩ := Multiset.mem_map.mp htold
      obtain ⟨cold, hliveold, rfl⟩ := RefCell.mem_cells.mp hrow
      have hmid := mid_notMem (h := hcovers.inv) hnew hliveold
      rw [← corners_tetOf htet] at hmid
      rw [← corners_tetOf (hcut.type.trans htet)]
      exact not_both_ends hg.inv hsimple hcovers hnew (m.oldOrMid_of_tetPieces hold _ hpiece)
        (m.not_marked_of_tetPieces hold hmid _ hpiece) he hmark
    · rw [hcellTri] at hlive ⊢
      have hin : tri'.cellRow c ∈ tri'.cells := RefCell.mem_cells.mpr ⟨c, hlive, rfl⟩
      rw [hcells, Multiset.mem_bind] at hin
      obtain ⟨row, hrow, hpiece⟩ := hin
      have hface := htwo _ (Multiset.mem_map_of_mem _ hrow)
      obtain ⟨f', hf', hrow'⟩ := List.mem_map.mp (Multiset.mem_coe.mp hpiece)
      obtain ⟨cold, hliveold, rfl⟩ := RefCell.mem_cells.mp hrow
      have hmid := mid_notMem (h := hcovers.inv) hnew hliveold
      rw [← corners_triOf htri] at hmid
      have hcorners : f'.corners = tri'.nodeList c := by
        rw [← corners_triOf (hcutTri.type.trans htri), ← hrow']
        rfl
      rw [← hcorners]
      exact not_both_ends hg.inv hsimple hcovers hnew (m.oldOrMid_of_triPieces f' hf')
        (m.not_marked_of_triPieces hface hmid f' hf') he hmark

/-! ## Two tets -/

/-- Two tets on one face and the triangles around them. -/
def twoTetRows : CellType → List (List Int)
  | .tet => [[0, 1, 2, 3], [0, 2, 1, 4]]
  | .tri => [[1, 3, 2, 7], [0, 2, 3, 7], [0, 3, 1, 7], [2, 4, 1, 8], [0, 1, 4, 8], [0, 4, 2, 8]]
  | _ => []

/-- Nodes for the corners and the edges of the first tet. -/
def elevenNodes : RefNode Int :=
  (afterCalls ((List.range 11).map fun k => NodeCall.add k)).store

/-- The grid of the two tets. -/
def twoTetGrid : RefGrid Int := RefGrid.ofRows elevenNodes noGeom twoTetRows

/-- The edges of the two tets. -/
def twoTetEdges : RefEdge := (RefEdge.create noEdges twoTetGrid).toOption.getD noEdges

/-- The edges of the first tet marked: it is cut into eight, the other into four. -/
def markedTet : RefSubdiv Int :=
  { grid := twoTetGrid
    edge := twoTetEdges
    mark := fun e => if e < 6 then 1 else 0
    node := fun e => if e < 6 then e + 5 else refEmpty }

theorem twoTetRows_fit (t : CellType) : RefCell.RowsFit t (twoTetRows t) := by
  cases t <;> decide

theorem twoTetGrid_conforming : twoTetGrid.Conforming := by
  apply RefGrid.ofRows_conforming twoTetRows_fit
  · decide
  · decide

theorem markedTet_covers : markedTet.edge.Covers (RefEdge.gridEdges markedTet.grid) := by
  obtain ⟨edge, hrun⟩ : ∃ edge, RefEdge.create noEdges twoTetGrid = .ok edge :=
    exists_ok_of_succeeds (by decide +kernel)
  have hedge : twoTetEdges = edge := by rw [twoTetEdges, hrun]; rfl
  have hcovers := RefEdge.create_covers hrun
  rw [← hedge] at hcovers
  dsimp only [markedTet]
  exact hcovers

theorem markedTet_local : markedTet.AllLocal := by
  constructor
  · intro t c hlive v hv
    obtain ⟨row, hrow, hlist⟩ := RefGrid.exists_row_of_live (twoTetRows_fit t) hlive
    change v ∈ ((RefGrid.ofRows elevenNodes noGeom twoTetRows).cell t).nodeList c at hv
    rw [hlist] at hv
    have hall : ∀ t : CellType, ∀ row ∈ twoTetRows t, ∀ v ∈ row.take t.nodePer,
        elevenNodes.rank = elevenNodes.part v.toNat := by
      intro t
      cases t <;> decide
    exact hall t row hrow v hv
  · intro e _ hmark
    have he : e < 6 := by
      by_contra hge
      exact hmark (if_neg hge)
    have hall : ∀ e < 6, elevenNodes.rank = elevenNodes.part (markedTet.node e).toNat := by
      decide
    exact hall e he

theorem subdivision_conforming_two_tets :
    ∃ s1 s2, markedTet.splitTet ((twoTetGrid).cell .tet) = .ok s1 ∧
      s1.splitTri (twoTetGrid.cell .tri) = .ok s2 ∧ s2.grid.tets.card = 12 ∧
      boundary s2.grid.tets = chain s2.grid.tris := by
  obtain ⟨s1, h1⟩ : ∃ s1, markedTet.splitTet (twoTetGrid.cell .tet) = .ok s1 :=
    exists_ok_of_succeeds (by decide +kernel)
  obtain ⟨s2, hboth⟩ : ∃ s2, markedTet.splitTet (twoTetGrid.cell .tet) >>=
      (fun s1 => s1.splitTri (twoTetGrid.cell .tri)) = .ok s2 :=
    exists_ok_of_succeeds (by decide +kernel)
  obtain ⟨_, h1', h2⟩ := bind_eq_ok.mp hboth
  rw [h1, Except.ok.injEq] at h1'
  subst h1'
  have hmain := subdivision_conforming markedTet s1 s2 _ _ twoTetGrid_conforming
    (by
      intro t _
      apply RefGrid.ofRows_simple (twoTetRows_fit t)
      cases t <;> decide)
    markedTet_covers
    (by
      intro e _
      by_cases he : e < 6
      · exact Or.inr (if_pos he)
      · exact Or.inl (if_neg he))
    (by
      intro e _ hmark
      have he : e < 6 := by
        by_contra hge
        exact hmark (if_neg hge)
      apply RefGrid.ofRows_unused twoTetRows_fit
      intro t row hrow
      have hall : ∀ e < 6, ∀ t : CellType, ∀ row ∈ twoTetRows t,
          markedTet.node e ∉ row.take t.nodePer := by
        intro e he t
        interval_cases e <;> cases t <;> decide
      exact hall e he t row hrow)
    markedTet_local h1 h2
  refine ⟨s1, s2, h1, h2, ?_, hmain.1⟩
  rw [hmain.2.1.1]
  decide +kernel

end RefineMesh
