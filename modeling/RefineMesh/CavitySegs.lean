import Mathlib.Tactic
import RefineMesh.ChainCavity
import RefineMesh.CavityFaces

/-!
# The segments of a cavity bound its triangles

The same as for the faces, one dimension lower: `SegInv` says that the rows of
the segment array are the reduced boundary of the triangles in the list, and the
enlargement over a segment adds the one of its two triangles that is not in the
list.  What the segments do to the faces and the tets plays no part in it.
-/

namespace RefineMesh

open SlotList Chains

variable {D : Type} {g : RefGrid D}

namespace RefCavity

variable {c c' c'' : RefCavity} {nodes : Nat → Int}

/-- The triangles of a cavity. -/
def tris (g : RefGrid D) (c : RefCavity) : Multiset (Tri Int) :=
  c.triList.map fun tri => triOf ((g.cell .tri).cellRow tri)

/-- The segments without their ids. -/
def segEdges (c : RefCavity) : Multiset (Int × Int) := c.segs.rows.map fun row => (row.1, row.2.1)

/-- The segments of a cavity are the reduced boundary of its triangles. -/
structure SegInv (g : RefGrid D) (c : RefCavity) : Prop where
  slots : c.segs.RowsInv
  live : ∀ tri ∈ c.triList, (g.cell .tri).Live tri
  nodup : c.triList.Nodup
  reduced : EdgesReduced c.segEdges
  boundary : edgeChain ((c.tris g).bind sides) = edgeChain c.segEdges

theorem mem_segEdges {e : Int × Int} :
    e ∈ c.segEdges ↔ ∃ seg, c.segs.Live seg ∧ (c.s2n seg 0, c.s2n seg 1) = e := by
  simp only [segEdges, Multiset.mem_map, CavityRows.mem_rows]
  constructor
  · intro h
    obtain ⟨row, ⟨seg, hlive, rfl⟩, rfl⟩ := h
    exact ⟨seg, hlive, rfl⟩
  · intro h
    obtain ⟨seg, hlive, rfl⟩ := h
    exact ⟨_, ⟨seg, hlive, rfl⟩, rfl⟩

theorem formEmpty_segInv (g : RefGrid D) (node : Int) : SegInv g (formEmpty node) := by
  have hrows : (formEmpty node).segEdges = 0 := by
    rw [segEdges, show (formEmpty node).segs = CavityRows.create from rfl, CavityRows.rows_create,
      Multiset.map_zero]
  constructor
  · exact CavityRows.create_inv
  · intro tri htri
    cases htri
  · exact List.nodup_nil
  · rw [hrows]
    exact edgesReduced_zero
  · rw [hrows]
    rfl

/-! ## What leaves the segments alone -/

/-- The segments and the triangles are as they were, and no constraint was
lifted. -/
structure SameSegs (c c' : RefCavity) : Prop where
  segs : c'.segs = c.segs
  triList : c'.triList = c.triList
  unknown : c'.state = .unknown → c.state = .unknown

theorem SameSegs.refl (c : RefCavity) : SameSegs c c := ⟨rfl, rfl, id⟩

theorem SameSegs.trans (h : SameSegs c c') (h' : SameSegs c' c'') : SameSegs c c'' :=
  ⟨h'.segs.trans h.segs, h'.triList.trans h.triList, fun hstate => h.unknown (h'.unknown hstate)⟩

theorem sameSegs_insertFace (hrun : c.insertFace nodes = .ok c') : SameSegs c c' := by
  rw [insertFace_frame hrun]
  exact ⟨rfl, rfl, id⟩

theorem sameSegs_removeSegFace (hrun : c.removeSegFace nodes = .ok c') : SameSegs c c' := by
  rw [removeSegFace] at hrun
  split at hrun
  · rw [← Except.ok.inj hrun]
    exact SameSegs.refl c
  · split at hrun
    · cases hrun
    · cases hrun
    · rw [← Except.ok.inj hrun]
      exact ⟨rfl, rfl, id⟩

theorem sameSegs_addSegFace (hrun : c.addSegFace nodes = .ok c') : SameSegs c c' := by
  rw [addSegFace] at hrun
  split at hrun
  · rw [← Except.ok.inj hrun]
    exact SameSegs.refl c
  · split at hrun
    · rw [← Except.ok.inj hrun]
      exact SameSegs.refl c
    · exact sameSegs_insertFace hrun

theorem sameSegs_insertFacesBut {tris : List Nat} {tet : Nat}
    (hrun : c.insertFacesBut g tris tet = .ok c') : SameSegs c c' := by
  refine ArrayLoop.foldlM_inv (fun _ _ c1 => SameSegs c c1) ?_ (SameSegs.refl c) hrun
  intro done face rest c1 c2 h hstep
  simp only at hstep
  split at hstep
  · split at hstep
    · rw [← Except.ok.inj hstep]
      exact h
    · exact h.trans (sameSegs_insertFace hstep)
  · exact h.trans (sameSegs_insertFace hstep)
  · cases hstep

theorem sameSegs_addSegTets {tris l : List Nat} (hrun : addSegTets g tris l c = .ok c') :
    SameSegs c c' := by
  induction l generalizing c with
  | nil =>
      rw [← Except.ok.inj hrun]
      exact SameSegs.refl c
  | cons tet rest ih =>
      rw [addSegTets] at hrun
      split at hrun
      · exact ih hrun
      · have hpush : SameSegs c { c with tetList := c.tetList ++ [tet] } := ⟨rfl, rfl, id⟩
        split at hrun
        · rw [← Except.ok.inj hrun]
          refine ⟨rfl, rfl, ?_⟩
          intro hstate
          cases hstate
        · obtain ⟨c1, hinsert, hrest⟩ := bind_eq_ok.mp hrun
          exact hpush.trans ((sameSegs_insertFacesBut hinsert).trans (ih hrest))

theorem sameSegs_removeSegAddTets (hrun : c.removeSegAddTets g nodes = .ok c') :
    SameSegs c c' := by
  rw [removeSegAddTets] at hrun
  split at hrun
  · rw [← Except.ok.inj hrun]
    exact SameSegs.refl c
  · obtain ⟨tris, -, hrest⟩ := bind_eq_ok.mp hrun
    split at hrest
    · cases hrest
    · exact sameSegs_addSegTets hrest

/-! ## Inserting a segment -/

/-- A segment that is not found is in the array with neither direction. -/
theorem findSeg_none (hnone : c.findSeg nodes = none) :
    (nodes 0, nodes 1) ∉ c.segEdges ∧ (nodes 1, nodes 0) ∉ c.segEdges := by
  rw [findSeg, Option.map_eq_none_iff, List.find?_eq_none] at hnone
  simp only [mem_segEdges, not_exists, not_and, Prod.mk.injEq]
  constructor
  · intro seg hlive h0 h1
    have hseg := hnone seg (CavityRows.mem_valid.mpr hlive)
    simp [h0, h1] at hseg
  · intro seg hlive h1 h0
    have hseg := hnone seg (CavityRows.mem_valid.mpr hlive)
    simp [h0, h1] at hseg

/-- A segment that is found reversed cancels the new one. -/
theorem findSeg_reversed {seg : Nat} (hfound : c.findSeg nodes = some (seg, true)) :
    c.segs.Live seg ∧ c.s2n seg 0 = nodes 1 ∧ c.s2n seg 1 = nodes 0 := by
  rw [findSeg, Option.map_eq_some_iff] at hfound
  obtain ⟨seg', hfind, heq⟩ := hfound
  rw [Prod.mk.injEq, decide_eq_true_eq] at heq
  obtain ⟨rfl, hsame⟩ := heq
  refine ⟨CavityRows.mem_valid.mp (List.mem_of_find?_eq_some hfind), ?_⟩
  have hor := List.find?_some hfind
  simp only [decide_eq_true_eq] at hor
  obtain ⟨h1, h0⟩ := hor.resolve_left hsame
  exact ⟨h1.symm, h0.symm⟩

/-- **`ref_cavity_insert_seg`** that leaves the state unknown adds the segment to
the chain of the segments. -/
theorem insertSeg_spec (hslots : c.segs.RowsInv) (hreduced : EdgesReduced c.segEdges)
    (hproper : nodes 0 ≠ nodes 1) (hnode : nodes 0 ≠ refEmpty)
    (hrun : c.insertSeg g nodes = .ok c') (hstate : c'.state = .unknown) :
    c.state = .unknown ∧ c'.triList = c.triList ∧ c'.segs.RowsInv ∧ EdgesReduced c'.segEdges ∧
      edgeChain c'.segEdges = side (nodes 0, nodes 1) + edgeChain c.segEdges := by
  rw [insertSeg] at hrun
  split at hrun
  · rename_i seg hfound
    obtain ⟨hlive, h0, h1⟩ := findSeg_reversed hfound
    split at hrun
    · rw [← Except.ok.inj hrun] at hstate
      cases hstate
    · obtain ⟨hslots', hrows⟩ := CavityRows.erase_spec hslots hlive
      obtain ⟨c1, hremove, htets⟩ := bind_eq_ok.mp hrun
      have hsame := (sameSegs_removeSegFace hremove).trans (sameSegs_removeSegAddTets htets)
      have hedges : c.segEdges = (nodes 1, nodes 0) ::ₘ c'.segEdges := by
        rw [segEdges, hrows, Multiset.map_cons, segEdges, hsame.segs, ← h0, ← h1]
        rfl
      have hslots1 : c'.segs.RowsInv := by
        rw [hsame.segs]
        exact hslots'
      rw [hedges] at hreduced
      refine ⟨hsame.unknown hstate, hsame.triList, hslots1, hreduced.of_cons, ?_⟩
      rw [hedges, edgeChain_cons, side, side, Prod.swap_prod_mk, Prod.swap_prod_mk]
      abel
  · cases hrun
  · rename_i hnone
    obtain ⟨segs, hadd, hrest⟩ := bind_eq_ok.mp hrun
    obtain ⟨hslots', hrows⟩ := CavityRows.add_spec hslots hnode hadd
    obtain ⟨hfresh, hmirror⟩ := findSeg_none hnone
    have hsame := sameSegs_addSegFace hrest
    have hedges : c'.segEdges = (nodes 0, nodes 1) ::ₘ c.segEdges := by
      rw [segEdges, hsame.segs, hrows, Multiset.map_cons, segEdges]
    have hslots1 : c'.segs.RowsInv := by
      rw [hsame.segs]
      exact hslots'
    refine ⟨hsame.unknown hstate, hsame.triList, hslots1, ?_, ?_⟩
    · rw [hedges]
      exact hreduced.cons hproper hfresh hmirror
    · rw [hedges, edgeChain_cons]

/-! ## Adding a triangle -/

/-- A side of a triangle. -/
def sideOf (s : RefCell) (tri : Nat) (edge : Nat × Nat) : Int × Int :=
  (s.c2n tri edge.1, s.c2n tri edge.2)

theorem addTriSides_spec {tri : Nat} {l : List (Nat × Nat)} (hl : l ≠ [])
    (hproper : ∀ edge ∈ l, (g.cell .tri).c2n tri edge.1 ≠ (g.cell .tri).c2n tri edge.2 ∧
      (g.cell .tri).c2n tri edge.1 ≠ refEmpty)
    (hslots : c.segs.RowsInv) (hreduced : EdgesReduced c.segEdges)
    (hrun : addTriSides g tri l c = .ok c') (hstate : c'.state = .unknown) :
    c.state = .unknown ∧ c'.triList = c.triList ∧ c'.segs.RowsInv ∧ EdgesReduced c'.segEdges ∧
      edgeChain c'.segEdges =
        edgeChain (l.map (sideOf (g.cell .tri) tri) : Multiset (Int × Int)) +
          edgeChain c.segEdges := by
  induction l generalizing c with
  | nil => exact absurd rfl hl
  | cons edge rest ih =>
      rw [addTriSides] at hrun
      obtain ⟨c1, hinsert, hrest⟩ := bind_eq_ok.mp hrun
      obtain ⟨hne, hnode⟩ := hproper edge List.mem_cons_self
      split at hrest
      · rename_i hknown
        rw [← Except.ok.inj hrest] at hstate
        exact absurd hstate hknown
      · rename_i hunknown
        rw [not_not] at hunknown
        obtain ⟨hunknown0, hlist1, hslots1, hreduced1, hchain1⟩ :=
          insertSeg_spec hslots hreduced hne hnode hinsert hunknown
        rw [List.map_cons, ← Multiset.cons_coe, edgeChain_cons]
        by_cases hnil : rest = []
        · subst hnil
          rw [← Except.ok.inj hrest]
          refine ⟨hunknown0, hlist1, hslots1, hreduced1, ?_⟩
          rw [hchain1, List.map_nil, Multiset.coe_nil, edgeChain_zero, add_zero]
          rfl
        · obtain ⟨-, hlist', hslots', hreduced', hchain'⟩ :=
            ih hnil (fun edge hedge => hproper edge (List.mem_cons_of_mem _ hedge)) hslots1
              hreduced1 hrest
          refine ⟨hunknown0, hlist'.trans hlist1, hslots', hreduced', ?_⟩
          rw [hchain', hchain1, show side (sideOf (g.cell .tri) tri edge) =
            side (nodeRow ((g.cell .tri).c2n tri edge.1) ((g.cell .tri).c2n tri edge.2)
              ((g.cell .tri).c2n tri (g.cell .tri).nodePer) 0,
              nodeRow ((g.cell .tri).c2n tri edge.1) ((g.cell .tri).c2n tri edge.2)
                ((g.cell .tri).c2n tri (g.cell .tri).nodePer) 1) from rfl]
          abel

/-- The sides of a proper triangle are proper edges. -/
theorem proper_sideOf (hinv : g.CellsInv) (hsimple : (g.cell .tri).Simple) {tri : Nat}
    (hlive : (g.cell .tri).Live tri) {edge : Nat × Nat} (hedge : edge ∈ CellType.tri.e2n) :
    (g.cell .tri).c2n tri edge.1 ≠ (g.cell .tri).c2n tri edge.2 ∧
      (g.cell .tri).c2n tri edge.1 ≠ refEmpty := by
  have hper : (g.cell .tri).nodePer = 3 := by rw [RefCell.nodePer, hinv.type .tri]; rfl
  have hnodup := hsimple tri hlive
  have hnonneg := (hinv.inv .tri).nonneg tri hlive
  simp only [RefCell.nodeList, hper, List.range_succ, List.range_zero, List.nil_append,
    List.cons_append, List.map_cons, List.map_nil, List.nodup_cons, List.mem_cons,
    List.not_mem_nil, or_false, not_or, List.nodup_nil, not_false_iff, and_true,
    forall_eq_or_imp, forall_eq] at hnodup hnonneg
  obtain ⟨⟨h01, h02⟩, h12⟩ := hnodup
  obtain ⟨h0, h1, h2⟩ := hnonneg
  simp only [CellType.e2n, List.mem_cons, List.not_mem_nil, or_false] at hedge
  rcases hedge with rfl | rfl | rfl
  · exact ⟨h01, by simp only [refEmpty]; omega⟩
  · exact ⟨h12, by simp only [refEmpty]; omega⟩
  · exact ⟨Ne.symm h02, by simp only [refEmpty]; omega⟩

/-- **`ref_cavity_add_tri`** appends a triangle that was not in the list; with
the state unknown the segments are again those of the triangles. -/
theorem addTri_spec (hinv : g.CellsInv) (hsimple : (g.cell .tri).Simple) (h : SegInv g c)
    {tri : Nat} (hnot : tri ∉ c.triList) (hrun : c.addTri g tri = .ok c')
    (hstate : c'.state = .unknown) :
    (g.cell .tri).Live tri ∧ c.state = .unknown ∧ SegInv g c' ∧
      c'.triList = c.triList ++ [tri] := by
  rw [addTri] at hrun
  split at hrun
  · cases hrun
  rename_i hlive
  rw [not_not] at hlive
  split at hrun
  · rw [← Except.ok.inj hrun] at hstate
    cases hstate
  obtain ⟨hunknown, hlist, hslots, hreduced, hchain⟩ := addTriSides_spec
    (c := { c with triList := c.triList ++ [tri] }) (by decide)
    (fun edge hedge => proper_sideOf hinv hsimple hlive hedge) h.slots h.reduced hrun hstate
  refine ⟨hlive, hunknown, ⟨hslots, ?_, ?_, hreduced, ?_⟩, hlist⟩
  · intro other hother
    rw [hlist, List.mem_append, List.mem_singleton] at hother
    rcases hother with hother | rfl
    · exact h.live other hother
    · exact hlive
  · rw [hlist]
    exact List.Nodup.append h.nodup (List.nodup_singleton tri) (by simpa using hnot)
  · have hsides : sides (triOf ((g.cell .tri).cellRow tri)) =
        (CellType.tri.e2n.map (sideOf (g.cell .tri) tri) : Multiset (Int × Int)) := by
      rw [triOf_cellRow (hinv.type .tri)]
      rfl
    rw [hchain, tris, hlist, List.map_append, ← Multiset.coe_add, Multiset.add_bind,
      edgeChain_add, List.map_singleton, Multiset.coe_singleton, Multiset.singleton_bind, hsides]
    change edgeChain ((c.tris g).bind sides) + _ = _ + edgeChain c.segEdges
    rw [h.boundary]
    abel

/-! ## The enlargement over a segment -/

/-- **One side.**  Of the two triangles at a segment of the cavity exactly one
is in the list: the state that `ref_cavity_enlarge_seg` throws on is never
met. -/
theorem SegInv.one_side (hinv : g.CellsInv) (hsimple : (g.cell .tri).Simple) (h : SegInv g c)
    {seg : Nat} (hlive : c.segs.Live seg) {tri0 tri1 : Nat}
    (htris : (g.cell .tri).listWith2 (c.s2n seg 0) (c.s2n seg 1) 2 = .ok [tri0, tri1]) :
    tri0 ∈ c.triList ↔ tri1 ∉ c.triList := by
  have hlist : (g.cell .tri).having2 (c.s2n seg 0) (c.s2n seg 1) = [tri0, tri1] := by
    rw [RefCell.listWith2] at htris
    split at htris
    · cases htris
    · exact Except.ok.inj htris
  have hnodup := (hinv.inv .tri).nodup_having2 hsimple (c.s2n seg 0) (c.s2n seg 1)
  have hmem : ∀ tri, tri ∈ [tri0, tri1] ↔ (g.cell .tri).Live tri ∧
      c.s2n seg 0 ∈ (g.cell .tri).nodeList tri ∧ c.s2n seg 1 ∈ (g.cell .tri).nodeList tri := by
    intro tri
    rw [← hlist]
    exact (hinv.inv .tri).mem_having2
  rw [hlist] at hnodup
  have hproper : ∀ f ∈ c.tris g, f.corners.Nodup := by
    intro f hf
    obtain ⟨tri, htri, rfl⟩ := List.mem_map.mp (Multiset.mem_coe.mp hf)
    rw [corners_triOf (hinv.type .tri)]
    exact hsimple tri (h.live tri htri)
  have hodd := h.reduced.odd_beside h.boundary hproper (mem_segEdges.mpr ⟨seg, hlive, rfl⟩)
  have hcount : ((c.tris g).filter fun f => c.s2n seg 0 ∈ f.corners ∧
      c.s2n seg 1 ∈ f.corners).card = ([tri0, tri1].filter fun tri => tri ∈ c.triList).length := by
    rw [tris, Multiset.filter_coe, Multiset.coe_card, List.filter_map, List.length_map]
    apply List.Perm.length_eq
    apply (List.perm_ext_iff_of_nodup (h.nodup.filter _) (hnodup.filter _)).mpr
    intro tri
    simp only [List.mem_filter, Function.comp_apply, decide_eq_true_eq,
      corners_triOf (hinv.type .tri)]
    constructor
    · intro htri
      exact ⟨(hmem tri).mpr ⟨h.live tri htri.1, htri.2⟩, htri.1⟩
    · intro htri
      exact ⟨htri.2, ((hmem tri).mp htri.1).2⟩
  rw [hcount] at hodd
  by_cases h0 : tri0 ∈ c.triList
  · by_cases h1 : tri1 ∈ c.triList
    · simp [h0, h1, Nat.odd_iff] at hodd
    · simp [h0, h1]
  · by_cases h1 : tri1 ∈ c.triList
    · simp [h0, h1]
    · simp [h0, h1] at hodd

/-- **`ref_cavity_enlarge_seg`** that leaves the state unknown adds exactly one
triangle, and the segments bound the triangles again. -/
theorem enlargeSeg_spec (hinv : g.CellsInv) (hsimple : (g.cell .tri).Simple) (h : SegInv g c)
    {seg : Nat} (hrun : c.enlargeSeg g seg = .ok c') (hstate : c'.state = .unknown) :
    ∃ tri, (g.cell .tri).Live tri ∧ tri ∉ c.triList ∧ c.state = .unknown ∧ SegInv g c' ∧
      c'.triList = c.triList ++ [tri] := by
  rw [enlargeSeg] at hrun
  split at hrun
  · cases hrun
  rename_i hlive
  rw [not_not] at hlive
  obtain ⟨l, hwith, hrest⟩ := bind_eq_ok.mp hrun
  split at hrest
  · rename_i tri0 tri1
    have hone := h.one_side hinv hsimple hlive hwith
    split at hrest
    · cases hrest
    split at hrest
    · rename_i h0
      have h1 := hone.mp h0
      obtain ⟨hlive1, hunknown, hinv', hlist⟩ := addTri_spec hinv hsimple h h1 hrest hstate
      exact ⟨tri1, hlive1, h1, hunknown, hinv', hlist⟩
    · rename_i h0
      obtain ⟨hlive0, hunknown, hinv', hlist⟩ := addTri_spec hinv hsimple h h0 hrest hstate
      exact ⟨tri0, hlive0, h0, hunknown, hinv', hlist⟩
  · rw [← Except.ok.inj hrest] at hstate
    cases hstate

end RefCavity

end RefineMesh
