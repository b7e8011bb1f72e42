import Mathlib.Tactic
import RefineMesh.ArrayLoops
import RefineMesh.ChainCollapse
import RefineMesh.Collapse

/-!
# Collapses keep the mesh closed

What each question of the caller rules out, what `ref_collapse_edge` does to one
store, and from both that a collapse that is allowed leaves a closed mesh with a
manifold surface.
-/

namespace RefineMesh

open Chains ArrayLoop

variable {D : Type}

/-! ## Lists of distinct values -/

theorem insertNew_ok {limit : Nat} {full : Status} {haves haves' : List Int} {x : Int}
    (h : insertNew limit full haves x = .ok haves') :
    ∀ y, y ∈ haves' ↔ y ∈ haves ∨ y = x := by
  intro y
  simp only [insertNew] at h
  split at h
  · rename_i hin
    obtain rfl : haves = haves' := Except.ok.inj h
    grind
  · split at h
    · obtain rfl : haves ++ [x] = haves' := Except.ok.inj h
      simp
    · cases h

theorem insertNew_error {limit : Nat} {full status : Status} {haves haves' : List Int} {x : Int}
    (h : insertNew limit full haves x = .error (status, haves')) : limit ≤ haves'.length := by
  simp only [insertNew] at h
  split at h
  · cases h
  · split at h
    · cases h
    · rename_i hfull
      simp only [Except.error.injEq, Prod.mk.injEq] at h
      rw [← h.2]
      omega

/-- A loop whose rounds each collect some values collects all of them. -/
theorem mem_collected {α ε : Type} {step : List Int → α → Except ε (List Int)}
    (values : α → Int → Prop) {l : List α}
    (hstep : ∀ a ∈ l, ∀ haves haves', step haves a = .ok haves' →
      ∀ y, y ∈ haves' ↔ y ∈ haves ∨ values a y)
    {haves haves' : List Int} (hrun : l.foldlM step haves = .ok haves') :
    ∀ y, y ∈ haves' ↔ y ∈ haves ∨ ∃ a ∈ l, values a y := by
  induction l generalizing haves with
  | nil =>
      obtain rfl : haves = haves' := Except.ok.inj hrun
      simp
  | cons a rest ih =>
      rw [List.foldlM_cons, bind_eq_ok] at hrun
      obtain ⟨haves1, h1, hrest⟩ := hrun
      intro y
      rw [ih (fun b hb => hstep b (List.mem_cons_of_mem a hb)) hrest y,
        hstep a List.mem_cons_self haves haves1 h1 y]
      simp only [List.mem_cons, exists_eq_or_imp]
      tauto

namespace RefCell

variable {s : RefCell}

theorem nodes_eq_ok {cell : Nat} {nodes : Nat → Int} (h : s.nodes cell = .ok nodes) :
    nodes = s.c2n cell := by
  simp only [RefCell.nodes] at h
  split at h
  · cases h
  · exact (Except.ok.inj h).symm

theorem nodes_of_live {cell : Nat} (h : s.Live cell) : s.nodes cell = .ok (s.c2n cell) := by
  rw [RefCell.nodes, if_neg (not_not.mpr h)]

/-- **`ref_cell_node_list_around`** lists the neighbors of a node. -/
theorem mem_nodeListAround (hinv : s.CellInv) {node : Int} {maxNode : Nat} {l : List Int}
    (hrun : s.nodeListAround node maxNode = .ok l) (y : Int) :
    y ∈ l ↔ y ≠ node ∧ ∃ c, s.Live c ∧ node ∈ s.nodeList c ∧ y ∈ s.nodeList c := by
  have hcells := mem_collected (fun c y => y ≠ node ∧ y ∈ s.nodeList c)
    (by
      intro c _ haves haves' hcell x
      have hnodes := mem_collected (fun i y => y ≠ node ∧ y = s.c2n c i)
        (by
          intro i _ haves haves' hi x
          by_cases hnode : node = s.c2n c i
          · rw [if_pos hnode] at hi
            obtain rfl : haves = haves' := Except.ok.inj hi
            grind
          · rw [if_neg hnode] at hi
            rw [insertNew_ok hi x]
            grind)
        hcell x
      rw [hnodes, mem_nodeList]
      simp only [List.mem_range]
      grind)
    hrun y
  rw [hcells]
  simp only [List.not_mem_nil, false_or, hinv.mem_having]
  grind

/-- A node of a cell has an id around it. -/
theorem idListAround_ne_nil (hinv : s.CellInv) {node : Int} {maxIds : Nat} {ids : List Int}
    (hrun : s.idListAround node maxIds = .ok ids) {c : Nat} (hlive : s.Live c)
    (hnode : node ∈ s.nodeList c) : ids ≠ [] := by
  have hids := mem_collected (fun c y => y = s.c2n c s.nodePer)
    (by
      intro c _ haves haves' hcell x
      simp only [bind_eq_ok, mapError_eq_ok] at hcell
      obtain ⟨nodes, hnodes, hcell⟩ := hcell
      rw [nodes_eq_ok hnodes] at hcell
      exact insertNew_ok hcell x)
    hrun (s.c2n c s.nodePer)
  intro hnil
  rw [hnil] at hids
  exact absurd (hids.mpr (Or.inr ⟨c, hinv.mem_having.mpr ⟨hlive, hnode⟩, rfl⟩)) List.not_mem_nil

/-- When the ids do not fit, the list is full. -/
theorem idListAround_full {node : Int} {maxIds : Nat} {ids : List Int}
    (hrun : s.idListAround node maxIds = .error (.increaseLimit, ids)) :
    maxIds ≤ ids.length := by
  obtain ⟨haves, c, hstep⟩ := exists_of_foldlM_error hrun
  rw [bind_eq_error] at hstep
  rcases hstep with hnodes | ⟨nodes, _, hstep⟩
  · cases hc : s.nodes c with
    | ok nodes =>
        rw [hc] at hnodes
        cases hnodes
    | error status =>
        rw [hc] at hnodes
        simp only [Except.mapError, Except.error.injEq, Prod.mk.injEq] at hnodes
        rw [hnodes.1] at hc
        exact absurd hc (s.nodes_ne_increaseLimit c)
  · exact insertNew_error hstep

/-- A side of a triangle or an edg has its ends in one cell. -/
theorem hasSide_true (hinv : s.CellInv) (htype : s.cellType = .tri ∨ s.cellType = .edg)
    {node0 node1 : Int} (h : s.hasSide node0 node1 = true) :
    ∃ c, s.Live c ∧ node0 ∈ s.nodeList c ∧ node1 ∈ s.nodeList c := by
  simp only [hasSide, List.any_eq_true, decide_eq_true_eq] at h
  obtain ⟨c, hc, edge, hedge, hends⟩ := h
  have hlive := (hinv.mem_having.mp hc).1
  have hin : edge.1 < s.nodePer ∧ edge.2 < s.nodePer := by
    have hper : ∀ t : CellType, t = .tri ∨ t = .edg → ∀ e ∈ t.e2n, e.1 < t.nodePer ∧ e.2 < t.nodePer := by
      rintro t (rfl | rfl) <;> decide
    exact hper s.cellType htype edge hedge
  refine ⟨c, hlive, ?_⟩
  rcases hends with ⟨h0, h1⟩ | ⟨h0, h1⟩
  · rw [h0, h1]
    exact ⟨s.c2n_mem_nodeList c hin.1, s.c2n_mem_nodeList c hin.2⟩
  · rw [h0, h1]
    exact ⟨s.c2n_mem_nodeList c hin.2, s.c2n_mem_nodeList c hin.1⟩

end RefCell

/-! ## What the questions rule out -/

section Questions

variable {g : RefGrid D} {node0 node1 : Int}

/-- A node without cells of a type has an empty list there. -/
theorem RefCell.notMem_of_firstItem {s : RefCell} (hinv : s.CellInv) {node : Int}
    (h : s.adj.firstItem node = refEmpty) {c : Nat} (hlive : s.Live c) : node ∉ s.nodeList c := by
  intro hnode
  have hrefs : (c : Int) ∈ s.adj.refs node := hinv.mem_refs_iff.mpr ⟨c, rfl, hlive, hnode⟩
  rw [RefAdj.refs, RefAdj.items_eq_nil_of_first h] at hrefs
  cases hrefs

theorem collapseEdgeMixed_true (hinv : g.CellsInv) (h : collapseEdgeMixed g node0 node1 = true) :
    ∀ t ∈ [CellType.pyr, .pri, .hex, .qua], ∀ c, (g.cell t).Live c →
      node1 ∉ (g.cell t).nodeList c := by
  simp only [collapseEdgeMixed, decide_eq_true_eq] at h
  intro t ht c hlive
  simp only [List.mem_cons, List.not_mem_nil, or_false] at ht
  rcases ht with rfl | rfl | rfl | rfl
  · exact RefCell.notMem_of_firstItem (hinv.inv _) h.1 hlive
  · exact RefCell.notMem_of_firstItem (hinv.inv _) h.2.1 hlive
  · exact RefCell.notMem_of_firstItem (hinv.inv _) h.2.2.1 hlive
  · exact RefCell.notMem_of_firstItem (hinv.inv _) h.2.2.2 hlive

/-- A node with ids around it moves only along a side of a triangle. -/
theorem collapseByDegree_true {tri : RefCell} {ids1 : List Int} (hinv : tri.CellInv)
    (htype : tri.cellType = .tri) (hids : ids1 ≠ [])
    (h : collapseByDegree tri node0 node1 ids1 = .ok true) :
    ∃ c, tri.Live c ∧ node0 ∈ tri.nodeList c ∧ node1 ∈ tri.nodeList c := by
  simp only [collapseByDegree] at h
  split at h
  · rename_i hlen
    exact absurd (List.length_eq_zero_iff.mp hlen) hids
  · exact RefCell.hasSide_true hinv (Or.inl htype) (Except.ok.inj h)
  · simp only [collapseOnTwoFaces, bind_eq_ok] at h
    obtain ⟨l, hlist, h⟩ := h
    obtain ⟨rfl, -⟩ := RefCell.listWith2_eq_ok hlist
    split at h
    · rename_i cell0 cell1 hcells
      have hin : cell0 ∈ tri.having2 node0 node1 := by
        rw [hcells]
        exact List.mem_cons_self
      exact ⟨cell0, hinv.mem_having2.mp hin⟩
    · cases h
  · cases h

/-- **The geometry check.**  When `node1` is on the surface, the edge is a side
of a triangle. -/
theorem collapseEdgeGeometry_true (hinv : g.CellsInv)
    (hedg : ∀ c, (g.cell .edg).Live c → ∃ f, (g.cell .tri).Live f ∧
      ∀ x ∈ (g.cell .edg).nodeList c, x ∈ (g.cell .tri).nodeList f)
    (h : collapseEdgeGeometry g node0 node1 = .ok true) {f : Nat} (hf : (g.cell .tri).Live f)
    (hnode1 : node1 ∈ (g.cell .tri).nodeList f) :
    ∃ c, (g.cell .tri).Live c ∧ node0 ∈ (g.cell .tri).nodeList c ∧
      node1 ∈ (g.cell .tri).nodeList c := by
  simp only [collapseEdgeGeometry] at h
  split at h
  · cases h
  · split at h
    · obtain ⟨c, hc, h0, h1⟩ :=
        RefCell.hasSide_true (hinv.inv .edg) (Or.inr (hinv.type .edg)) (Except.ok.inj h)
      obtain ⟨f, hf, hside⟩ := hedg c hc
      exact ⟨f, hf, hside _ h0, hside _ h1⟩
    · split at h
      · rename_i ids1 hids
        exact collapseByDegree_true (hinv.inv .tri) (hinv.type .tri)
          (RefCell.idListAround_ne_nil (hinv.inv .tri) hids hf hnode1) h
      · rename_i ids1 hids
        have hfull := RefCell.idListAround_full hids
        apply collapseByDegree_true (hinv.inv .tri) (hinv.type .tri) _ h
        intro hnil
        rw [hnil] at hfull
        simp at hfull
      · cases h

theorem willBeCollapsed_iff {s : RefCell} {c : Nat} :
    willBeCollapsed node0 s.nodePer (s.c2n c) = true ↔ node0 ∈ s.nodeList c := by
  simp only [willBeCollapsed, List.any_eq_true, List.mem_range, decide_eq_true_eq,
    RefCell.mem_nodeList]
  grind

/-- **No copies.**  A cell of the list that stays does not become a copy of
another cell. -/
theorem noCopy_true {s : RefCell} (hinv : s.CellInv) {l : List Nat}
    (h : noCopy node0 node1 s l = .ok true) {c : Nat} (hc : c ∈ l)
    (hstays : node0 ∉ s.nodeList c) {c' : Nat} (hlive' : s.Live c') :
    ¬ ∀ x, (∃ i, i < s.nodePer ∧ substitute s.nodePer node1 node0 (s.c2n c) i = x) ↔
      x ∈ s.nodeList c' := by
  induction l with
  | nil => cases hc
  | cons a rest ih =>
      simp only [noCopy, bind_eq_ok] at h
      obtain ⟨nodes, hnodes, h⟩ := h
      rw [RefCell.nodes_eq_ok hnodes] at h
      by_cases hca : c = a
      · subst hca
        have hcollapsed : willBeCollapsed node0 s.nodePer (s.c2n c) ≠ true := fun hw =>
          hstays (willBeCollapsed_iff.mp hw)
        rw [if_neg hcollapsed] at h
        rcases RefCell.cellWith_spec hinv (substitute s.nodePer node1 node0 (s.c2n c)) with
          ⟨c'', hfound, _⟩ | ⟨_, hnone⟩
        · rw [hfound] at h
          cases h
        · exact hnone c' hlive'
      · have hrest := (List.mem_cons.mp hc).resolve_left hca
        split at h
        · exact ih h hrest
        · split at h
          · exact ih h hrest
          · cases h
          · cases h

/-- The safe nodes are on a triangle with both ends. -/
theorem mem_safeList {s : RefCell} (hinv : s.CellInv) {safe : List Int}
    (hrun : safeList node0 node1 s = .ok safe) (y : Int) :
    y ∈ safe ↔ ∃ c, s.Live c ∧ node0 ∈ s.nodeList c ∧ node1 ∈ s.nodeList c ∧
      y ∈ s.nodeList c := by
  have hcells := mem_collected (fun c y => node0 ∈ s.nodeList c ∧ y ∈ s.nodeList c)
    (by
      intro c _ haves haves' hcell x
      simp only [bind_eq_ok, mapError_eq_ok] at hcell
      obtain ⟨nodes, hnodes, hcell⟩ := hcell
      rw [RefCell.nodes_eq_ok hnodes] at hcell
      split at hcell
      · rename_i hw
        have hin := mem_collected (fun i y => y = s.c2n c i)
          (fun i _ haves haves' hi => insertNew_ok hi) hcell x
        rw [hin, RefCell.mem_nodeList (v := x)]
        have h0 := willBeCollapsed_iff.mp hw
        simp only [List.mem_range]
        grind
      · rename_i hw
        have h0 : node0 ∉ s.nodeList c := fun hin => hw (willBeCollapsed_iff.mpr hin)
        obtain rfl : haves = haves' := Except.ok.inj hcell
        grind)
    hrun y
  rw [hcells]
  simp only [List.not_mem_nil, false_or, hinv.mem_having]
  grind

/-- **The link condition in the code.**  When the edge is a side of a triangle,
a common neighbor of its ends is on a triangle with both. -/
theorem noNewConnection_true {s : RefCell} (hinv : s.CellInv)
    (h : noNewConnection node0 node1 s = .ok true)
    (hside : ∃ c, s.Live c ∧ node0 ∈ s.nodeList c ∧ node1 ∈ s.nodeList c) {y : Int}
    (hy0 : y ≠ node0) (hy1 : y ≠ node1)
    (h0 : ∃ c, s.Live c ∧ node0 ∈ s.nodeList c ∧ y ∈ s.nodeList c)
    (h1 : ∃ c, s.Live c ∧ node1 ∈ s.nodeList c ∧ y ∈ s.nodeList c) :
    ∃ c, s.Live c ∧ node0 ∈ s.nodeList c ∧ node1 ∈ s.nodeList c ∧ y ∈ s.nodeList c := by
  simp only [noNewConnection, bind_eq_ok, mapError_eq_ok] at h
  obtain ⟨safe, hsafe, h⟩ := h
  have hmem := mem_safeList hinv hsafe
  split at h
  · rename_i hlen
    obtain ⟨c, hc, hc0, hc1⟩ := hside
    have hin := (hmem node0).mpr ⟨c, hc, hc0, hc1, hc0⟩
    rw [List.length_eq_zero_iff.mp hlen] at hin
    cases hin
  · split at h
    · simp only [bind_eq_ok, mapError_eq_ok, Except.ok.injEq, List.all_eq_true,
        decide_eq_true_eq] at h
      obtain ⟨list0, hlist0, list1, hlist1, hall⟩ := h
      have hin0 := (RefCell.mem_nodeListAround hinv hlist0 y).mpr ⟨hy0, h0⟩
      have hin1 := (RefCell.mem_nodeListAround hinv hlist1 y).mpr ⟨hy1, h1⟩
      have hysafe : y ∈ safe := by
        by_contra hout
        exact hall y hin0 y hin1 ⟨rfl, hout⟩
      exact (hmem y).mp hysafe
    · cases h

theorem collapseEdgeManifold_true (h : collapseEdgeManifold node0 node1 g = .ok true) :
    (∀ t ∈ [CellType.tet, .tri, .edg],
      noCopy node0 node1 (g.cell t) ((g.cell t).having node1) = .ok true) ∧
    noNewConnection node0 node1 (g.cell .tri) = .ok true := by
  simp only [collapseEdgeManifold, bind_eq_ok] at h
  obtain ⟨tet, htet, h⟩ := h
  cases tet with
  | false => simp at h
  | true =>
      simp only [not_true, if_false, bind_eq_ok] at h
      obtain ⟨tri, htri, h⟩ := h
      cases tri with
      | false => simp at h
      | true =>
          simp only [not_true, if_false, bind_eq_ok] at h
          obtain ⟨link, hlink, h⟩ := h
          cases link with
          | false => simp at h
          | true =>
              simp only [not_true, if_false] at h
              refine ⟨?_, hlink⟩
              intro t ht
              simp only [List.mem_cons, List.not_mem_nil, or_false] at ht
              rcases ht with rfl | rfl | rfl
              · exact htet
              · exact htri
              · exact h

end Questions

/-! ## One store -/

/-- A store after a collapse. -/
structure Collapsed (node0 node1 : Int) (s s' : RefCell) : Prop where
  inv : s'.CellInv
  type : s'.cellType = s.cellType
  live : ∀ c, s'.Live c ↔ s.Live c ∧ ¬ (node0 ∈ s.nodeList c ∧ node1 ∈ s.nodeList c)
  row : ∀ c, s'.Live c → s'.c2n c = substitute s.nodePer node1 node0 (s.c2n c)

section Store

variable {node0 node1 : Int} {s s' : RefCell}

theorem removeAll_spec (hinv : s.CellInv) {l : List Nat} (hnodup : l.Nodup)
    (hlive : ∀ c ∈ l, s.Live c) (hrun : l.foldlM RefCell.remove s = .ok s') :
    s'.CellInv ∧ s'.cellType = s.cellType ∧ (∀ c, s'.Live c ↔ s.Live c ∧ c ∉ l) ∧
      ∀ c, c ∉ l → s'.c2n c = s.c2n c := by
  induction l generalizing s with
  | nil =>
      obtain rfl : s = s' := Except.ok.inj hrun
      exact ⟨hinv, rfl, fun c => by simp, fun c _ => rfl⟩
  | cons a rest ih =>
      rw [List.foldlM_cons, bind_eq_ok] at hrun
      obtain ⟨s1, h1, hrest⟩ := hrun
      obtain ⟨s1', h1', hinv1, hlive1, hold1, htype1, _⟩ :=
        RefCell.remove_spec hinv (hlive a List.mem_cons_self)
      obtain rfl : s1' = s1 := Except.ok.inj (h1'.symm.trans h1)
      obtain ⟨ha, hnodup'⟩ := List.nodup_cons.mp hnodup
      obtain ⟨hinv2, htype2, hlive2, hold2⟩ := ih hinv1 hnodup'
        (fun c hc => (hlive1 c).mpr ⟨hlive c (List.mem_cons_of_mem a hc), fun e => ha (e ▸ hc)⟩)
        hrest
      refine ⟨hinv2, htype2.trans htype1, fun c => ?_, fun c hc => ?_⟩
      · rw [hlive2 c, hlive1 c, List.mem_cons]
        tauto
      · rw [List.mem_cons, not_or] at hc
        rw [hold2 c hc.2, hold1 c hc.1]

theorem collapseGroup_ok {fuel : Nat} (hinv : s.CellInv) (hsimple : s.Simple) (h01 : node0 ≠ node1)
    (hrun : collapseGroup node0 node1 fuel s = some (.ok s')) : Collapsed node0 node1 s s' := by
  simp only [collapseGroup] at hrun
  split at hrun
  · cases hrun
  · rename_i s1 hremove
    simp only [bind_eq_ok] at hremove
    obtain ⟨l, hlist, hloop⟩ := hremove
    obtain ⟨rfl, -⟩ := RefCell.listWith2_eq_ok hlist
    obtain ⟨hinv1, htype1, hlive1, hold1⟩ := removeAll_spec hinv
      (hinv.nodup_having2 hsimple node0 node1) (fun c hc => (hinv.mem_having2.mp hc).1) hloop
    obtain ⟨r, hfuel, _, heffect⟩ := RefCell.replaceNode_spec hinv1 h01.symm
    have hreplaced : RefCell.NodeReplaced s1 s' node1 node0 := by
      apply heffect
      have hmore := hfuel (s1.n + 1 + fuel) (by omega)
      rw [RefCell.replaceNode, if_neg h01.symm] at hrun hmore
      have hmono := RefCell.replaceNodeLoop_mono fuel (s1.n + 1) s1 hrun
      rw [Nat.add_comm fuel, hmore, Option.some.injEq] at hmono
      exact hmono
    have hper : s1.nodePer = s.nodePer := by rw [RefCell.nodePer, htype1, RefCell.nodePer]
    have hstay : ∀ c, s1.Live c ↔
        s.Live c ∧ ¬ (node0 ∈ s.nodeList c ∧ node1 ∈ s.nodeList c) := by
      intro c
      rw [hlive1 c, hinv.mem_having2]
      tauto
    constructor
    · exact hreplaced.inv
    · exact hreplaced.type.trans htype1
    · intro c
      rw [hreplaced.live c, hstay c]
    · intro c hc
      rw [hreplaced.live c] at hc
      funext i
      rw [hreplaced.entry c i, hper, hold1 c ((hlive1 c).mp hc).2, substitute]
      simp [hc, eq_comm]

namespace Collapsed

theorem nodePer (h : Collapsed node0 node1 s s') : s'.nodePer = s.nodePer := by
  rw [RefCell.nodePer, h.type, RefCell.nodePer]

theorem nodeList (h : Collapsed node0 node1 s s') {c : Nat} (hc : s'.Live c) :
    s'.nodeList c = (s.nodeList c).map (move node1 node0) := by
  rw [RefCell.nodeList, RefCell.nodeList, h.nodePer, h.row c hc, List.map_map]
  apply List.map_congr_left
  intro i hi
  simp [substitute, move, List.mem_range.mp hi, eq_comm]

theorem mem_nodeList (h : Collapsed node0 node1 s s') {c : Nat} (hc : s'.Live c) {x : Int} :
    x ∈ s'.nodeList c ↔ ∃ y ∈ s.nodeList c, move node1 node0 y = x := by
  rw [h.nodeList hc, List.mem_map]

theorem notMem (h : Collapsed node0 node1 s s') (h01 : node0 ≠ node1) {c : Nat}
    (hc : s'.Live c) : node1 ∉ s'.nodeList c := by
  rw [h.mem_nodeList hc]
  intro hin
  obtain ⟨y, _, hy⟩ := hin
  simp only [move] at hy
  grind

theorem simple (h : Collapsed node0 node1 s s') (hs : s.Simple) : s'.Simple := by
  intro c hc
  obtain ⟨hlive, hboth⟩ := (h.live c).mp hc
  rw [h.nodeList hc]
  apply (hs c hlive).map_on
  intro x hx y hy hxy
  simp only [move] at hxy
  grind

/-- A cell that stays and whose move is no copy has a node set of its own. -/
theorem distinctSets (h : Collapsed node0 node1 s s') (hd : s.DistinctSets)
    (hcopy : ∀ c, s.Live c → node1 ∈ s.nodeList c → node0 ∉ s.nodeList c → ∀ c', s.Live c' →
      ¬ ∀ x, (∃ y ∈ s.nodeList c, move node1 node0 y = x) ↔ x ∈ s.nodeList c') :
    s'.DistinctSets := by
  intro c c' hc hc' hset
  obtain ⟨hlive, hboth⟩ := (h.live c).mp hc
  obtain ⟨hlive', hboth'⟩ := (h.live c').mp hc'
  simp only [h.mem_nodeList hc, h.mem_nodeList hc'] at hset
  have hid : ∀ c, node1 ∉ s.nodeList c → ∀ x,
      (∃ y ∈ s.nodeList c, move node1 node0 y = x) ↔ x ∈ s.nodeList c := by
    intro c hnot x
    simp only [move]
    grind
  by_cases h1 : node1 ∈ s.nodeList c
  · have h0 : node0 ∉ s.nodeList c := fun h0 => hboth ⟨h0, h1⟩
    by_cases h1' : node1 ∈ s.nodeList c'
    · have h0' : node0 ∉ s.nodeList c' := fun h0' => hboth' ⟨h0', h1'⟩
      -- both have moved, so both lose the same node
      apply hd c c' hlive hlive'
      intro x
      have hx := hset x
      simp only [move] at hx
      grind
    · apply absurd _ (hcopy c hlive h1 h0 c' hlive')
      intro x
      rw [hset x, hid c' h1' x]
  · by_cases h1' : node1 ∈ s.nodeList c'
    · have h0' : node0 ∉ s.nodeList c' := fun h0' => hboth' ⟨h0', h1'⟩
      apply absurd _ (hcopy c' hlive' h1' h0' c hlive)
      intro x
      rw [← hset x, hid c h1 x]
    · apply hd c c' hlive hlive'
      intro x
      rw [← hid c h1 x, hset x, hid c' h1' x]

/-- The cells that stay, in the new store. -/
theorem validCells_perm (h : Collapsed node0 node1 s s') :
    s'.validCells.Perm (s.validCells.filter fun c =>
      ¬ (node0 ∈ s.nodeList c ∧ node1 ∈ s.nodeList c)) := by
  apply (List.perm_ext_iff_of_nodup s'.nodup_validCells (s.nodup_validCells.filter _)).mpr
  intro c
  rw [RefCell.mem_validCells, h.live c, List.mem_filter, RefCell.mem_validCells,
    decide_eq_true_eq]

/-- Simplices read off the rows are moved. -/
theorem map_cells {α : Type} (h : Collapsed node0 node1 s s') {read : List Int → α}
    {corners : α → List Int} {moved : α → α}
    (hcorners : ∀ c, corners (read (s.cellRow c)) = s.nodeList c)
    (hmoved : ∀ c, s'.Live c → read (s'.cellRow c) = moved (read (s.cellRow c))) :
    s'.cells.map read = ((s.cells.map read).filter fun x =>
      ¬ (node0 ∈ corners x ∧ node1 ∈ corners x)).map moved := by
  simp only [RefCell.cells, Multiset.map_coe, Multiset.filter_coe]
  rw [Multiset.coe_eq_coe, List.map_map, List.map_map, List.filter_map, List.map_map]
  have hfilter : s.validCells.filter ((fun x => decide ¬ (node0 ∈ corners x ∧ node1 ∈ corners x)) ∘
      (read ∘ s.cellRow)) =
        s.validCells.filter fun c => ¬ (node0 ∈ s.nodeList c ∧ node1 ∈ s.nodeList c) := by
    apply List.filter_congr
    intro c _
    simp only [Function.comp_apply, hcorners]
  rw [hfilter]
  have hmap : s'.validCells.map (read ∘ s'.cellRow) =
      s'.validCells.map (moved ∘ (read ∘ s.cellRow)) := by
    apply List.map_congr_left
    intro c hc
    exact hmoved c (RefCell.mem_validCells.mp hc)
  rw [hmap]
  exact h.validCells_perm.map _

theorem map_tetOf (h : Collapsed node0 node1 s s') (htype : s.cellType = .tet) :
    s'.cells.map tetOf = ((s.cells.map tetOf).filter fun t =>
      ¬ (node0 ∈ t.corners ∧ node1 ∈ t.corners)).map (Tet.move node1 node0) := by
  have hper : s.nodePer = 4 := by rw [RefCell.nodePer, htype]; rfl
  apply h.map_cells (corners_tetOf htype)
  intro c hc
  rw [tetOf_cellRow (h.type.trans htype), tetOf_cellRow htype, h.row c hc, hper]
  simp [substitute, Tet.move, Chains.move, eq_comm]

theorem map_triOf (h : Collapsed node0 node1 s s') (htype : s.cellType = .tri) :
    s'.cells.map triOf = ((s.cells.map triOf).filter fun f =>
      ¬ (node0 ∈ f.corners ∧ node1 ∈ f.corners)).map (Tri.move node1 node0) := by
  have hper : s.nodePer = 3 := by rw [RefCell.nodePer, htype]; rfl
  apply h.map_cells (corners_triOf htype)
  intro c hc
  rw [triOf_cellRow (h.type.trans htype), triOf_cellRow htype, h.row c hc, hper]
  simp [substitute, Tri.move, Chains.move, eq_comm]

end Collapsed

end Store

/-! ## The whole operation -/

section Whole

variable {g g' : RefGrid D} {node0 node1 : Int}

theorem andThen_eq_ok {α β : Type} {x : Option (Except Status α)}
    {f : α → Option (Except Status β)} {b : β} :
    andThen x f = some (.ok b) ↔ ∃ a, x = some (.ok a) ∧ f a = some (.ok b) := by
  match x with
  | none => simp [andThen]
  | some (.error status) => simp [andThen]
  | some (.ok a) => simp [andThen]

/-- **A successful `ref_collapse_edge`** on its cell stores. -/
theorem collapseEdge_ok {fuel : Nat} (hinv : g.CellsInv)
    (hsimple : ∀ t ∈ [CellType.tet, .tri, .edg], (g.cell t).Simple) (h01 : node0 ≠ node1)
    (hrun : collapseEdge node0 node1 fuel g = some (.ok g')) :
    (∀ t ∈ [CellType.tet, .tri, .edg], Collapsed node0 node1 (g.cell t) (g'.cell t)) ∧
      ∀ t, t ∉ [CellType.tet, .tri, .edg] → g'.cell t = g.cell t := by
  simp only [collapseEdge, andThen_eq_ok, Option.some.injEq, Except.ok.injEq] at hrun
  obtain ⟨tets, htets, tris, htris, edgs, hedgs, node, _, geom, _, rfl⟩ := hrun
  rw [RefGrid.setCell_cell_of_ne _ _ (by decide)] at htris
  rw [RefGrid.setCell_cell_of_ne _ _ (by decide), RefGrid.setCell_cell_of_ne _ _ (by decide)]
    at hedgs
  have h1 := collapseGroup_ok (hinv.inv .tet) (hsimple _ (by simp)) h01 htets
  have h2 := collapseGroup_ok (hinv.inv .tri) (hsimple _ (by simp)) h01 htris
  have h3 := collapseGroup_ok (hinv.inv .edg) (hsimple _ (by simp)) h01 hedgs
  constructor
  · intro t ht
    simp only [List.mem_cons, List.not_mem_nil, or_false] at ht
    rcases ht with rfl | rfl | rfl
    · rw [RefGrid.setCell_cell_of_ne _ _ (by decide), RefGrid.setCell_cell_of_ne _ _ (by decide),
        RefGrid.setCell_cell_self]
      exact h1
    · rw [RefGrid.setCell_cell_of_ne _ _ (by decide), RefGrid.setCell_cell_self]
      exact h2
    · rw [RefGrid.setCell_cell_self]
      exact h3
  · intro t ht
    simp only [List.mem_cons, List.not_mem_nil, or_false, not_or] at ht
    rw [RefGrid.setCell_cell_of_ne _ _ ht.2.2, RefGrid.setCell_cell_of_ne _ _ ht.2.1,
      RefGrid.setCell_cell_of_ne _ _ ht.1]

/-- A grid of tets and triangles, with geometry edges on triangle sides, no
doubled directed edge and no two cells on the same nodes. -/
structure RefGrid.Manifold (g : RefGrid D) : Prop extends g.Conforming where
  once : DirectedOnce g.tris
  edgs : ∀ c, (g.cell .edg).Live c → ∃ f, (g.cell .tri).Live f ∧
    ∀ x ∈ (g.cell .edg).nodeList c, x ∈ (g.cell .tri).nodeList f
  distinct : ∀ t ∈ [CellType.tet, .tri, .edg], (g.cell t).DistinctSets
  linear : ∀ t, t ∉ [CellType.edg, .tri, .qua, .tet, .pyr, .pri, .hex] → ∀ c, ¬ (g.cell t).Live c

theorem exists_cell_of_mem_tris (hinv : g.CellsInv) (ends : List Int) :
    (∃ f ∈ g.tris, ∀ x ∈ ends, x ∈ f.corners) ↔
      ∃ c, (g.cell .tri).Live c ∧ ∀ x ∈ ends, x ∈ (g.cell .tri).nodeList c := by
  constructor
  · intro h
    obtain ⟨f, hf, hends⟩ := h
    obtain ⟨row, hrow, rfl⟩ := Multiset.mem_map.mp hf
    obtain ⟨c, hlive, rfl⟩ := RefCell.mem_cells.mp hrow
    rw [corners_triOf (hinv.type .tri)] at hends
    exact ⟨c, hlive, hends⟩
  · intro h
    obtain ⟨c, hlive, hends⟩ := h
    refine ⟨triOf ((g.cell .tri).cellRow c), ?_, ?_⟩
    · exact Multiset.mem_map_of_mem _ (RefCell.mem_cells.mpr ⟨c, hlive, rfl⟩)
    · rw [corners_triOf (hinv.type .tri)]
      exact hends

/-- The link condition holds where the questions are answered yes. -/
theorem RefGrid.Manifold.link (hg : g.Manifold)
    (hgeometry : collapseEdgeGeometry g node0 node1 = .ok true)
    (hmanifold : collapseEdgeManifold node0 node1 g = .ok true) {y : Int} (hy0 : y ≠ node0)
    (hy1 : y ≠ node1) (h0 : ∃ f ∈ g.tris, node0 ∈ f.corners ∧ y ∈ f.corners)
    (h1 : ∃ f ∈ g.tris, node1 ∈ f.corners ∧ y ∈ f.corners) :
    ∃ f ∈ g.tris, node0 ∈ f.corners ∧ node1 ∈ f.corners ∧ y ∈ f.corners := by
  have htwo : ∀ a b : Int, (∃ f ∈ g.tris, a ∈ f.corners ∧ b ∈ f.corners) →
      ∃ c, (g.cell .tri).Live c ∧ a ∈ (g.cell .tri).nodeList c ∧ b ∈ (g.cell .tri).nodeList c := by
    intro a b hab
    have := (exists_cell_of_mem_tris hg.inv [a, b]).mp (by simpa using hab)
    simpa using this
  obtain ⟨c1, hc1, hc1n, hc1y⟩ := htwo node1 y h1
  have hside := collapseEdgeGeometry_true hg.inv hg.edgs hgeometry hc1 hc1n
  have hlink := noNewConnection_true (hg.inv.inv .tri) (collapseEdgeManifold_true hmanifold).2
    hside hy0 hy1 (htwo node0 y h0) ⟨c1, hc1, hc1n, hc1y⟩
  have hthree := (exists_cell_of_mem_tris hg.inv [node0, node1, y]).mpr
    (by simpa using hlink)
  simpa using hthree

/-- **Collapses keep the mesh closed.**  When the three questions are answered
yes and `ref_collapse_edge` succeeds, `node1` is in no cell, every cell is
proper and alone on its nodes, the triangles are the boundary of the tets, no
directed edge is doubled, and each cell that stays has its id and its nodes
with `node0` for `node1`. -/
theorem collapse_keeps_closed (g g' : RefGrid D) (node0 node1 : Int) (fuel : Nat)
    (hg : g.Manifold) (h01 : node0 ≠ node1) (hmixed : collapseEdgeMixed g node0 node1 = true)
    (hgeometry : collapseEdgeGeometry g node0 node1 = .ok true)
    (hmanifold : collapseEdgeManifold node0 node1 g = .ok true)
    (hrun : collapseEdge node0 node1 fuel g = some (.ok g')) :
    (∀ t c, (g'.cell t).Live c → node1 ∉ (g'.cell t).nodeList c) ∧
    (∀ t ∈ [CellType.tet, .tri, .edg], (g'.cell t).Simple ∧ (g'.cell t).DistinctSets) ∧
    boundary g'.tets = chain g'.tris ∧ DirectedOnce g'.tris ∧
    (∀ t ∈ [CellType.tet, .tri, .edg], Collapsed node0 node1 (g.cell t) (g'.cell t)) ∧
    ∀ t, t ∉ [CellType.tet, .tri, .edg] → g'.cell t = g.cell t := by
  obtain ⟨hcollapsed, hothers⟩ := collapseEdge_ok hg.inv hg.simple h01 hrun
  have htets : g'.tets = _ := (hcollapsed .tet (by simp)).map_tetOf (hg.inv.type .tet)
  have htris : g'.tris = _ := (hcollapsed .tri (by simp)).map_triOf (hg.inv.type .tri)
  refine ⟨?_, ?_, ?_, ?_, hcollapsed, hothers⟩
  · intro t c hlive
    by_cases hmesh : t ∈ [CellType.tet, .tri, .edg]
    · exact (hcollapsed t hmesh).notMem h01 hlive
    · rw [hothers t hmesh] at hlive ⊢
      by_cases hmix : t ∈ [CellType.pyr, .pri, .hex, .qua]
      · exact collapseEdgeMixed_true hg.inv hmixed t hmix c hlive
      · apply absurd hlive (hg.linear t _ c)
        simp only [List.mem_cons, List.not_mem_nil, or_false, not_or] at hmesh hmix ⊢
        tauto
  · intro t ht
    refine ⟨(hcollapsed t ht).simple (hg.simple t ht), ?_⟩
    apply (hcollapsed t ht).distinctSets (hg.distinct t ht)
    intro c hlive h1 h0 c' hlive' hset
    have hcopy := noCopy_true (hg.inv.inv t) ((collapseEdgeManifold_true hmanifold).1 t ht)
      ((hg.inv.inv t).mem_having.mpr ⟨hlive, h1⟩) h0 hlive'
    apply hcopy
    intro x
    rw [← hset x]
    simp only [RefCell.mem_nodeList, exists_exists_and_eq_and, substitute, move]
    grind
  · rw [htets, htris]
    exact boundary_collapsed hg.faces.boundary_eq h01
  · rw [htris]
    exact hg.once.collapsed (hg.inv.simple_tris (hg.simple _ (by simp))) h01
      fun y hy0 hy1 => hg.link hgeometry hmanifold hy0 hy1

end Whole

/-- A tet cut into four by a node inside, with its faces and one edge. -/
def fanRows : CellType → List (List Int)
  | .tet => [[4, 1, 2, 3], [0, 4, 2, 3], [0, 1, 4, 3], [0, 1, 2, 4]]
  | .tri => [[1, 3, 2, 5], [0, 2, 3, 5], [0, 3, 1, 6], [0, 1, 2, 6]]
  | .edg => [[0, 1, 7]]
  | _ => []

/-- Five nodes. -/
def fiveNodes : RefNode Int := (afterCalls [.add 0, .add 1, .add 2, .add 3, .add 4]).store

/-- The grid of four tets. -/
def fanGrid : RefGrid Int := RefGrid.ofRows fiveNodes noGeom fanRows

theorem fanRows_fit (t : CellType) : RefCell.RowsFit t (fanRows t) := by
  cases t <;> decide

theorem fanGrid_manifold : fanGrid.Manifold := by
  have hconforming : fanGrid.Conforming := by
    apply RefGrid.ofRows_conforming fanRows_fit
    · decide
    · decide
  refine { toConforming := hconforming, once := ?_, edgs := ?_, distinct := ?_, linear := ?_ }
  · rw [fanGrid, RefGrid.tris, RefGrid.cells_ofRows (fanRows_fit .tri)]
    decide
  · intro c hlive
    obtain ⟨row, hrow, hlist⟩ := RefGrid.exists_row_of_live (fanRows_fit .edg) hlive
    have hside := (exists_cell_of_mem_tris hconforming.inv [0, 1]).mp (by
      rw [fanGrid, RefGrid.tris, RefGrid.cells_ofRows (fanRows_fit .tri)]
      exact ⟨(0, 1, 2), by decide, by decide⟩)
    obtain ⟨f, hf, hin⟩ := hside
    refine ⟨f, hf, ?_⟩
    intro x hx
    have hrow' : row = [0, 1, 7] := List.mem_singleton.mp hrow
    change x ∈ ((RefGrid.ofRows fiveNodes noGeom fanRows).cell .edg).nodeList c at hx
    rw [hlist, hrow'] at hx
    exact hin x hx
  · intro t ht
    apply RefGrid.ofRows_distinctSets (fanRows_fit t)
    revert t
    decide
  · intro t ht c hlive
    obtain ⟨row, hrow, _⟩ := RefGrid.exists_row_of_live (fanRows_fit t) hlive
    have hnone : fanRows t = [] := by
      cases t <;> first | rfl | exact absurd ht (by decide)
    rw [hnone] at hrow
    cases hrow

/-- Whether a call that may not end succeeded. -/
def ended {α : Type} : Option (Except Status α) → Bool
  | some x => succeeds x
  | none => false

theorem exists_ok_of_ended {α : Type} {x : Option (Except Status α)} (h : ended x = true) :
    ∃ a, x = some (.ok a) := by
  match x, h with
  | some (.ok a), _ => exact ⟨a, rfl⟩

theorem collapse_keeps_closed_fanGrid :
    ∃ g', collapseEdge 0 4 5 fanGrid = some (.ok g') ∧ boundary g'.tets = chain g'.tris ∧
      DirectedOnce g'.tris ∧ ∀ c, (g'.cell .tet).Live c → 4 ∉ (g'.cell .tet).nodeList c := by
  obtain ⟨g', hrun⟩ : ∃ g', collapseEdge 0 4 5 fanGrid = some (.ok g') :=
    exists_ok_of_ended (by decide +kernel)
  obtain ⟨hgone, _, hboundary, honce, _⟩ := collapse_keeps_closed fanGrid g' 0 4 5
    fanGrid_manifold (by decide) (by decide +kernel) (by decide +kernel) (by decide +kernel) hrun
  exact ⟨g', hrun, hboundary, honce, hgone .tet⟩

end RefineMesh
