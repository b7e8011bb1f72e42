import Mathlib.Tactic
import RefineMesh.ChainPeel
import RefineMesh.CollapseRuns
import RefineMesh.Peel

/-!
# Peeling boundary tets keeps the mesh watertight

The search finds the triangles on the nodes of each face; in a mesh whose
triangles are the unshared faces they are those faces, with their orientation.
The edits are then a peeling of `RefineMesh.ChainPeel`.
-/

namespace RefineMesh

open Chains ArrayLoop

variable {D : Type}

/-! ## The search -/

section Search

variable {tet tri : RefCell} {cell cellFace : Nat} {limit : Nat} {found : List FoundFace}

/-- What the search finds for one face. -/
def lookupFace (tet tri : RefCell) (cell cellFace : Nat) : Option FoundFace :=
  match tri.cellWith (f2nNodes tet cell cellFace) with
  | .ok face => some { cellFace := cellFace, face := face, faceid := tri.c2n face 3 }
  | .error _ => none

/-- One face of a cell as a triangle. -/
def faceTri (tet : RefCell) (cell cellFace : Nat) : Tri Int :=
  (f2nNodes tet cell cellFace 0, f2nNodes tet cell cellFace 1, f2nNodes tet cell cellFace 2)

theorem foundFaces_ok (hrun : foundFaces limit tet tri cell = .ok found) :
    found = (List.range 4).filterMap (lookupFace tet tri cell) := by
  have hloop := foldlM_inv
    (fun done _ found => found = done.filterMap (lookupFace tet tri cell))
    (by
      intro done cellFace rest found found' h hstep
      subst h
      rw [List.filterMap_append]
      simp only [foundStep] at hstep
      split at hstep
      · rename_i face hface
        simp only [bind_eq_ok] at hstep
        obtain ⟨nodes, hnodes, hstep⟩ := hstep
        obtain rfl := RefCell.nodes_eq_ok hnodes
        split_ifs at hstep
        have hlookup : lookupFace tet tri cell cellFace =
            some { cellFace := cellFace, face := face, faceid := tri.c2n face 3 } := by
          simp only [lookupFace, hface]
        rw [List.filterMap_cons_some hlookup]
        exact (Except.ok.inj hstep).symm
      · rename_i hnone
        have hlookup : lookupFace tet tri cell cellFace = none := by
          simp only [lookupFace, hnone]
        rw [List.filterMap_cons_none hlookup, List.filterMap_nil, List.append_nil]
        exact (Except.ok.inj hstep).symm)
    rfl hrun
  exact hloop

theorem lookupFace_cellFace {face : FoundFace}
    (h : lookupFace tet tri cell cellFace = some face) : face.cellFace = cellFace := by
  simp only [lookupFace] at h
  split at h
  · rw [← Option.some.inj h]
  · cases h

theorem map_cellFace_filterMap (tet tri : RefCell) (cell : Nat) (l : List Nat) :
    (l.filterMap (lookupFace tet tri cell)).map FoundFace.cellFace =
      l.filter fun cellFace => (lookupFace tet tri cell cellFace).isSome := by
  induction l with
  | nil => rfl
  | cons cellFace l ih =>
      cases hface : lookupFace tet tri cell cellFace with
      | none =>
          rw [List.filterMap_cons_none hface, List.filter_cons_of_neg (by simp [hface]), ih]
      | some face =>
          rw [List.filterMap_cons_some hface, List.filter_cons_of_pos (by simp [hface]),
            List.map_cons, lookupFace_cellFace hface, ih]

/-- The faces that were not found, by their numbers. -/
def restFaces (tet tri : RefCell) (cell : Nat) : List Nat :=
  (List.range 4).filter fun cellFace => (lookupFace tet tri cell cellFace).isNone

/-- The faces of a tet in the order of `ref_cell_f2n`. -/
theorem faces_tetOf (htype : tet.cellType = .tet) (cell : Nat) :
    faces (tetOf (tet.cellRow cell)) =
      ((List.range 4).map (faceTri tet cell) : Multiset (Tri Int)) := by
  have hrange : List.range 4 = [0, 1, 2, 3] := rfl
  rw [tetOf_cellRow htype, hrange]
  simp only [List.map_cons, List.map_nil, faceTri, f2nNodes, RefCell.faceNodes, htype, CellType.f2n]
  rfl

end Search

/-! ## Tet meshes -/

/-- Proper tets, no two on the same side of a face, whose unshared faces are the
triangles. -/
structure RefGrid.TetMesh (g : RefGrid D) : Prop where
  inv : g.CellsInv
  simple : (g.cell .tet).Simple
  faces : Unshared g.tets g.tris
  once : FaceOnce g.tets

namespace RefGrid.TetMesh

variable {g : RefGrid D}

theorem simple_tets (hg : g.TetMesh) : ∀ t ∈ g.tets, t.corners.Nodup :=
  hg.inv.simple_tets hg.simple

theorem simple_tris (hg : g.TetMesh) : ∀ f ∈ g.tris, f.corners.Nodup :=
  hg.faces.simple hg.simple_tets

theorem tri_simple (hg : g.TetMesh) : (g.cell .tri).Simple := by
  intro c hlive
  rw [← corners_triOf (hg.inv.type .tri)]
  exact hg.simple_tris _ (Multiset.mem_map_of_mem _ (RefCell.mem_cells.mpr ⟨c, hlive, rfl⟩))

end RefGrid.TetMesh

section OneTet

variable {g : RefGrid D} {cell cellFace : Nat}

theorem mem_tets_of_live (hlive : (g.cell .tet).Live cell) :
    tetOf ((g.cell .tet).cellRow cell) ∈ g.tets :=
  Multiset.mem_map_of_mem _ (RefCell.mem_cells.mpr ⟨cell, hlive, rfl⟩)

theorem faceTri_mem (hinv : g.CellsInv) (cell : Nat) (hface : cellFace < 4) :
    faceTri (g.cell .tet) cell cellFace ∈ faces (tetOf ((g.cell .tet).cellRow cell)) := by
  rw [faces_tetOf (hinv.type .tet)]
  exact Multiset.mem_coe.mpr (List.mem_map_of_mem (List.mem_range.mpr hface))

theorem mem_faceTri {x : Int} : x ∈ (faceTri (g.cell .tet) cell cellFace).corners ↔
    ∃ i, i < 3 ∧ f2nNodes (g.cell .tet) cell cellFace i = x := by
  simp only [faceTri, Tri.corners, List.mem_cons, List.not_mem_nil, or_false]
  constructor
  · rintro (rfl | rfl | rfl)
    · exact ⟨0, by omega, rfl⟩
    · exact ⟨1, by omega, rfl⟩
    · exact ⟨2, by omega, rfl⟩
  · rintro ⟨i, hi, rfl⟩
    interval_cases i <;> simp

/-- **What is found** for a face is its triangle, with its orientation. -/
theorem RefGrid.TetMesh.lookupFace_some (hg : g.TetMesh) (hlive : (g.cell .tet).Live cell)
    (hface : cellFace < 4) {face : FoundFace}
    (h : lookupFace (g.cell .tet) (g.cell .tri) cell cellFace = some face) :
    (g.cell .tri).Live face.face ∧
      Turned (triOf ((g.cell .tri).cellRow face.face)) (faceTri (g.cell .tet) cell cellFace) := by
  have hper : (g.cell .tri).nodePer = 3 := by
    unfold RefCell.nodePer
    rw [hg.inv.type .tri]
    rfl
  simp only [lookupFace] at h
  split at h
  · rename_i found hfound
    rcases RefCell.cellWith_spec (hg.inv.inv .tri) (f2nNodes (g.cell .tet) cell cellFace) with
      ⟨c, hc, hclive, hset⟩ | ⟨hc, -⟩
    · obtain rfl : c = found := Except.ok.inj (hc.symm.trans hfound)
      obtain rfl := Option.some.inj h
      refine ⟨hclive, ?_⟩
      have hmem := faceTri_mem hg.inv cell hface
      apply hg.faces.turned hg.once
      · exact Multiset.mem_map_of_mem _ (RefCell.mem_cells.mpr ⟨c, hclive, rfl⟩)
      · rw [corners_triOf (hg.inv.type .tri)]
        exact hg.tri_simple c hclive
      · exact Multiset.mem_bind.mpr ⟨_, mem_tets_of_live hlive, hmem⟩
      · exact faces_simple (hg.simple_tets _ (mem_tets_of_live hlive)) _ hmem
      · intro x hx
        rw [corners_triOf (hg.inv.type .tri)]
        rw [mem_faceTri, ← hper, hset] at hx
        exact hx
    · rw [hc] at hfound
      cases hfound
  · cases h

/-- **What is not found** is on no triangle. -/
theorem RefGrid.TetMesh.lookupFace_none (hg : g.TetMesh)
    (h : lookupFace (g.cell .tet) (g.cell .tri) cell cellFace = none) :
    ∀ f ∈ g.tris, f.corners.toFinset ≠
      (faceTri (g.cell .tet) cell cellFace).corners.toFinset := by
  have hper : (g.cell .tri).nodePer = 3 := by
    unfold RefCell.nodePer
    rw [hg.inv.type .tri]
    rfl
  simp only [lookupFace] at h
  split at h
  · cases h
  · rename_i status hstatus
    rcases RefCell.cellWith_spec (hg.inv.inv .tri) (f2nNodes (g.cell .tet) cell cellFace) with
      ⟨c, hc, -⟩ | ⟨-, hno⟩
    · rw [hc] at hstatus
      cases hstatus
    · intro f hf hset
      obtain ⟨row, hrow, rfl⟩ := Multiset.mem_map.mp hf
      obtain ⟨c, hclive, rfl⟩ := RefCell.mem_cells.mp hrow
      apply hno c hclive
      intro x
      rw [hper, ← mem_faceTri, ← corners_triOf (hg.inv.type .tri), ← List.mem_toFinset, ← hset,
        List.mem_toFinset]

/-- The faces that were found are on different triangles. -/
theorem RefGrid.TetMesh.nodup_found (hg : g.TetMesh) (hlive : (g.cell .tet).Live cell) :
    (((List.range 4).filterMap (lookupFace (g.cell .tet) (g.cell .tri) cell)).map
      FoundFace.face).Nodup := by
  have hplaces : (((List.range 4).filterMap (lookupFace (g.cell .tet) (g.cell .tri) cell)).map
      FoundFace.cellFace).Nodup := by
    rw [map_cellFace_filterMap]
    exact List.nodup_range.filter _
  apply List.Nodup.map_on ?_ (List.Nodup.of_map _ hplaces)
  intro x hx y hy hxy
  obtain ⟨k, hk, hkx⟩ := List.mem_filterMap.mp hx
  obtain ⟨m, hm, hmy⟩ := List.mem_filterMap.mp hy
  rw [List.mem_range] at hk hm
  have hturnx := (hg.lookupFace_some hlive hk hkx).2
  have hturny := (hg.lookupFace_some hlive hm hmy).2
  rw [hxy] at hturnx
  have hset : (faceTri (g.cell .tet) cell k).corners.toFinset =
      (faceTri (g.cell .tet) cell m).corners.toFinset := by
    ext z
    rw [List.mem_toFinset, List.mem_toFinset, ← hturnx.mem_corners, ← hturny.mem_corners]
  have hdistinct := faces_distinct (hg.simple_tets _ (mem_tets_of_live hlive))
  rw [faces_tetOf (hg.inv.type .tet), Multiset.map_coe, Multiset.coe_nodup, List.map_map]
    at hdistinct
  obtain rfl : k = m := List.inj_on_of_nodup_map hdistinct (List.mem_range.mpr hk)
    (List.mem_range.mpr hm) hset
  exact Option.some.inj (hkx.symm.trans hmy)

end OneTet

/-! ## The edits -/

section Edits

variable {s tri tri' tet : RefCell} {cell cellFace : Nat} {gone : List Nat}
  {fresh : Multiset (List Int)} {faceid : Int}

/-- The row of a face seen from the other side. -/
def reversedRow (tet : RefCell) (cell : Nat) (faceid : Int) (cellFace : Nat) : List Int :=
  (List.range 4).map (reversedFace (f2nNodes tet cell cellFace) faceid)

theorem triOf_reversedRow (tet : RefCell) (cell : Nat) (faceid : Int) (cellFace : Nat) :
    triOf (reversedRow tet cell faceid cellFace) = (faceTri tet cell cellFace).mirror := rfl

theorem removeFaces_ok {found : List FoundFace} (h : s.Replaced tri gone fresh)
    (hnodup : (found.map FoundFace.face).Nodup)
    (hlive : ∀ f ∈ found, s.Live f.face ∧ f.face ∉ gone) :
    ∃ tri', removeFaces found tri = .ok tri' ∧
      s.Replaced tri' ((found.map FoundFace.face).reverse ++ gone) fresh := by
  induction found generalizing tri gone with
  | nil => exact ⟨tri, rfl, h⟩
  | cons f found ih =>
      obtain ⟨hf, hnodup'⟩ := List.nodup_cons.mp hnodup
      obtain ⟨hflive, hfgone⟩ := hlive f List.mem_cons_self
      obtain ⟨tri1, hremove, h1⟩ := h.remove hflive hfgone
      obtain ⟨tri', hrun, h'⟩ := ih h1 hnodup' (by
        intro f' hf'
        obtain ⟨hlive', hgone'⟩ := hlive f' (List.mem_cons_of_mem f hf')
        refine ⟨hlive', ?_⟩
        rw [List.mem_cons, not_or]
        exact ⟨fun e => hf (e ▸ List.mem_map_of_mem hf'), hgone'⟩)
      refine ⟨tri', ?_, ?_⟩
      · rw [removeFaces, List.foldlM_cons, guarded_eq_ok.mpr hremove]
        exact hrun
      · rw [List.map_cons, List.reverse_cons, List.append_assoc]
        exact h'

theorem addReversed_ok (htype : s.cellType = .tri) (h : s.Replaced tri gone fresh)
    (hrun : addReversed tet cell faceid tri cellFace = .ok tri') :
    s.Replaced tri' gone (reversedRow tet cell faceid cellFace ::ₘ fresh) := by
  have hsize : s.sizePer = 4 := by unfold RefCell.sizePer; rw [htype]; rfl
  simp only [addReversed, bind_eq_ok, guarded_eq_ok] at hrun
  obtain ⟨⟨added, _⟩, hadd, hrun⟩ := hrun
  obtain rfl : added = tri' := Except.ok.inj hrun
  have hadded := h.add hadd
  rw [hsize] at hadded
  exact hadded

theorem addAllReversed_ok (htype : s.cellType = .tri) {l : List Nat}
    (h : s.Replaced tri gone fresh)
    (hrun : l.foldlM (addReversed tet cell faceid) tri = .ok tri') :
    s.Replaced tri' gone ((l.map (reversedRow tet cell faceid) : Multiset (List Int)) + fresh) := by
  induction l generalizing tri fresh with
  | nil =>
      obtain rfl : tri = tri' := Except.ok.inj hrun
      simpa using h
  | cons cellFace l ih =>
      rw [List.foldlM_cons, bind_eq_ok] at hrun
      obtain ⟨tri1, hadd, hrest⟩ := hrun
      have h' := ih (addReversed_ok htype h hadd) hrest
      rw [Multiset.add_cons, ← Multiset.cons_add, Multiset.cons_coe, ← List.map_cons] at h'
      exact h'

/-- `ref_cell_add` finds fault with negative nodes only. -/
theorem RefCell.add_invalid {nodes : Nat → Int} (h : s.add nodes = .error .invalid) :
    ∃ i, i < s.nodePer ∧ nodes i < 0 := by
  simp only [RefCell.add] at h
  rcases bind_eq_error.mp h with hgrow | ⟨s1, hgrow, h⟩
  · simp only [RefCell.grow] at hgrow
    split_ifs at hgrow
    all_goals cases hgrow
  · have hper : s1.nodePer = s.nodePer := by
      simp only [RefCell.grow] at hgrow
      split_ifs at hgrow
      all_goals cases hgrow; rfl
    rcases bind_eq_error.mp h with h | ⟨_, _, h⟩
    · obtain ⟨adj, i, hi, hadd⟩ := ArrayLoop.exists_mem_of_foldlM_error h
      refine ⟨i, hper ▸ List.mem_range.mp hi, ?_⟩
      by_contra hneg
      simp only [RefAdj.add, if_neg hneg] at hadd
      rcases bind_eq_error.mp hadd with hadd | ⟨adj1, _, hadd⟩
      · simp only [RefAdj.growNodes] at hadd
        split_ifs at hadd
        all_goals cases hadd
      · rcases bind_eq_error.mp hadd with hadd | ⟨adj2, _, hadd⟩
        · simp only [RefAdj.growItems] at hadd
          split_ifs at hadd
          all_goals cases hadd
        · split_ifs at hadd
          all_goals cases hadd
    · cases h

theorem addReversed_invalid (htype : s.cellType = .tri) (h : s.Replaced tri gone fresh)
    {tri' : RefCell} (hrun : addReversed tet cell faceid tri cellFace = .error (.invalid, tri')) :
    ∃ i, i < 3 ∧ f2nNodes tet cell cellFace i < 0 := by
  have hper : tri.nodePer = 3 := by unfold RefCell.nodePer; rw [h.type, htype]; rfl
  simp only [addReversed] at hrun
  rcases bind_eq_error.mp hrun with hadd | ⟨_, _, hadd⟩
  · cases hstatus : tri.add (reversedFace (f2nNodes tet cell cellFace) faceid) with
    | ok added =>
        rw [hstatus] at hadd
        cases hadd
    | error status =>
        rw [hstatus] at hadd
        obtain rfl : status = .invalid := congrArg Prod.fst (Except.error.inj hadd)
        obtain ⟨i, hi, hneg⟩ := RefCell.add_invalid hstatus
        rw [hper] at hi
        interval_cases i
        · exact ⟨1, by omega, hneg⟩
        · exact ⟨0, by omega, hneg⟩
        · exact ⟨2, by omega, hneg⟩
  · cases hadd

theorem addAllReversed_invalid (htype : s.cellType = .tri) {l : List Nat} {tri' : RefCell}
    (h : s.Replaced tri gone fresh)
    (hrun : l.foldlM (addReversed tet cell faceid) tri = .error (.invalid, tri')) :
    ∃ cellFace ∈ l, ∃ i, i < 3 ∧ f2nNodes tet cell cellFace i < 0 := by
  induction l generalizing tri fresh with
  | nil => cases hrun
  | cons cellFace l ih =>
      rw [List.foldlM_cons] at hrun
      rcases bind_eq_error.mp hrun with hadd | ⟨tri1, hadd, hrest⟩
      · exact ⟨cellFace, List.mem_cons_self, addReversed_invalid htype h hadd⟩
      · obtain ⟨k, hk, hneg⟩ := ih (addReversed_ok htype h hadd) hrest
        exact ⟨k, List.mem_cons_of_mem cellFace hk, hneg⟩

end Edits

/-! ## One tet peeled -/

section Peeled

variable {g : RefGrid D} {tri' tet' : RefCell} {cell : Nat} {faceid : Int}

/-- The grid after a tet is peeled: its found triangles are gone, its other
faces are triangles, the tet is gone. -/
structure Peels (g : RefGrid D) (cell : Nat) (tri' tet' : RefCell) : Prop where
  tri : ∃ faceid gone, (g.cell .tri).Replaced tri' gone
      ((restFaces (g.cell .tet) (g.cell .tri) cell).map (reversedRow (g.cell .tet) cell faceid) :
        Multiset (List Int)) ∧
    gone.Perm (((List.range 4).filterMap (lookupFace (g.cell .tet) (g.cell .tri) cell)).map
      FoundFace.face)
  tet : (g.cell .tet).Replaced tet' [cell] 0

theorem Peels.tets (h : Peels g cell tri' tet') :
    g.tets = tetOf ((g.cell .tet).cellRow cell) ::ₘ
      ((g.setCell .tri tri').setCell .tet tet').tets := by
  have hcells := congrArg (Multiset.map tetOf) h.tet.cells
  rw [add_zero, Multiset.map_add] at hcells
  rw [RefGrid.tets, RefGrid.tets, RefGrid.setCell_cell_self, ← hcells, add_comm]
  rfl

/-- **A peeled tet** leaves a tet mesh. -/
theorem RefGrid.TetMesh.peeled (hg : g.TetMesh) (hlive : (g.cell .tet).Live cell)
    (h : Peels g cell tri' tet') : ((g.setCell .tri tri').setCell .tet tet').TetMesh := by
  obtain ⟨faceid, gone, htri, hgone⟩ := h.tri
  have hcell : ((g.setCell .tri tri').setCell .tet tet').cell .tri = tri' := by
    rw [RefGrid.setCell_cell_of_ne _ _ (by decide), RefGrid.setCell_cell_self]
  have htets := h.tets
  have ht := hg.simple_tets _ (mem_tets_of_live hlive)
  obtain ⟨found, hfound⟩ : ∃ found,
      found = (List.range 4).filterMap (lookupFace (g.cell .tet) (g.cell .tri) cell) := ⟨_, rfl⟩
  constructor
  · exact (hg.inv.setCell (htri.type.trans (hg.inv.type .tri)) htri.inv).setCell
      (h.tet.type.trans (hg.inv.type .tet)) h.tet.inv
  · intro c hc
    rw [RefGrid.setCell_cell_self] at hc ⊢
    rw [← corners_tetOf (h.tet.type.trans (hg.inv.type .tet))]
    apply hg.simple_tets
    rw [htets, RefGrid.tets, RefGrid.setCell_cell_self]
    exact Multiset.mem_cons_of_mem (Multiset.mem_map_of_mem _ (RefCell.mem_cells.mpr ⟨c, hc, rfl⟩))
  · have hfaces : Chains.faces (tetOf ((g.cell .tet).cellRow cell)) =
        (found.map fun f => faceTri (g.cell .tet) cell f.cellFace : Multiset (Tri Int)) +
        ((restFaces (g.cell .tet) (g.cell .tri) cell).map (faceTri (g.cell .tet) cell) :
          Multiset (Tri Int)) := by
      have hplaces : found.map (fun f => faceTri (g.cell .tet) cell f.cellFace) =
          (found.map FoundFace.cellFace).map (faceTri (g.cell .tet) cell) := by
        rw [List.map_map]
        rfl
      rw [faces_tetOf (hg.inv.type .tet), hplaces, hfound, map_cellFace_filterMap, Multiset.coe_add,
        ← List.map_append, restFaces]
      apply Multiset.coe_eq_coe.mpr
      apply List.Perm.map
      have hsplit := List.filter_append_perm
        (fun k => (lookupFace (g.cell .tet) (g.cell .tri) cell k).isSome) (List.range 4)
      simpa using hsplit.symm
    have hchain : chain (found.map fun f => triOf ((g.cell .tri).cellRow f.face) :
          Multiset (Tri Int)) =
        chain (found.map fun f => faceTri (g.cell .tet) cell f.cellFace :
          Multiset (Tri Int)) := by
      simp only [chain, Multiset.map_coe, List.map_map]
      congr 2
      apply List.map_congr_left
      intro f hf
      rw [hfound] at hf
      obtain ⟨k, hk, hlookup⟩ := List.mem_filterMap.mp hf
      have hturn := (hg.lookupFace_some hlive (List.mem_range.mp hk) hlookup).2
      rw [Function.comp_apply, Function.comp_apply, lookupFace_cellFace hlookup]
      exact hturn.orient_eq
    have htris : ((g.setCell .tri tri').setCell .tet tet').tris +
        (found.map fun f => triOf ((g.cell .tri).cellRow f.face) : Multiset (Tri Int)) =
        g.tris + (((restFaces (g.cell .tet) (g.cell .tri) cell).map (faceTri (g.cell .tet) cell) :
          Multiset (Tri Int))).map Tri.mirror := by
      have hcells := congrArg (Multiset.map triOf) htri.cells
      rw [Multiset.map_add, Multiset.map_add, Multiset.map_coe, Multiset.map_coe, List.map_map,
        List.map_map] at hcells
      rw [RefGrid.tris, hcell, RefGrid.tris, Multiset.map_coe, List.map_map]
      have hperm : (found.map fun f => triOf ((g.cell .tri).cellRow f.face)).Perm
          (gone.map (triOf ∘ (g.cell .tri).cellRow)) := by
        have := (hgone.map (triOf ∘ (g.cell .tri).cellRow)).symm
        rw [← hfound, List.map_map] at this
        exact this
      rw [Multiset.coe_eq_coe.mpr hperm]
      exact hcells
    apply hg.faces.peeled htets ht hg.once hg.simple_tris hfaces hchain htris
    intro f hf f' hf'
    obtain ⟨k, hk, rfl⟩ := List.mem_map.mp (Multiset.mem_coe.mp hf)
    have hnone := (List.mem_filter.mp hk).2
    exact hg.lookupFace_none (Option.isNone_iff_eq_none.mp hnone) f' hf'
  · exact hg.once.of_le (htets ▸ Multiset.le_cons_self _ _)

theorem onCell_eq_ok {t : CellType} {x : Except (Status × RefCell) RefCell} {g' : RefGrid D} :
    onCell t g x = .ok g' ↔ ∃ s, x = .ok s ∧ g' = g.setCell t s := by
  cases x with
  | error failed => simp [onCell, Except.mapError, Except.map]
  | ok s => simp [onCell, Except.mapError, Except.map, eq_comm]

theorem onCell_eq_error {t : CellType} {x : Except (Status × RefCell) RefCell} {status : Status}
    {g' : RefGrid D} (h : onCell t g x = .error (status, g')) : ∃ s, x = .error (status, s) := by
  cases x with
  | error failed =>
      simp only [onCell, Except.mapError, Except.map, Except.error.injEq, Prod.mk.injEq] at h
      exact ⟨failed.2, by rw [← h.1]⟩
  | ok s => cases h

/-- A face is among the found ones when the search answered for it. -/
theorem mem_map_cellFace {found : List FoundFace} {tet tri : RefCell} {k : Nat} (hk : k < 4)
    (hfound : found = (List.range 4).filterMap (lookupFace tet tri cell)) :
    k ∈ found.map FoundFace.cellFace ↔ (lookupFace tet tri cell k).isSome = true := by
  rw [hfound, map_cellFace_filterMap, List.mem_filter, List.mem_range]
  exact and_iff_right hk

theorem f2nNodes_nonneg (hg : g.TetMesh) (hlive : (g.cell .tet).Live cell) {k i : Nat}
    (hk : k < 4) (hi : i < 3) : 0 ≤ f2nNodes (g.cell .tet) cell k i := by
  have hmem : f2nNodes (g.cell .tet) cell k i ∈ (faceTri (g.cell .tet) cell k).corners :=
    mem_faceTri.mpr ⟨i, hi, rfl⟩
  have hcorner := mem_corners_of_faces (faceTri_mem hg.inv cell hk) hmem
  rw [corners_tetOf (hg.inv.type .tet)] at hcorner
  exact (hg.inv.inv .tet).nonneg cell hlive _ hcorner

/-- The removals of the found triangles succeed. -/
theorem RefGrid.TetMesh.removeFaces (hg : g.TetMesh) (hlive : (g.cell .tet).Live cell)
    {found : List FoundFace}
    (hfound : found = (List.range 4).filterMap (lookupFace (g.cell .tet) (g.cell .tri) cell)) :
    ∃ tri', RefineMesh.removeFaces found (g.cell .tri) = .ok tri' ∧
      (g.cell .tri).Replaced tri' (found.map FoundFace.face).reverse 0 := by
  have hnodup := hg.nodup_found hlive
  rw [← hfound] at hnodup
  obtain ⟨tri', hrun, h⟩ := removeFaces_ok (RefCell.Replaced.refl (hg.inv.inv .tri)) hnodup (by
    intro f hf
    rw [hfound] at hf
    obtain ⟨k, hk, hlookup⟩ := List.mem_filterMap.mp hf
    exact ⟨(hg.lookupFace_some hlive (List.mem_range.mp hk) hlookup).1, List.not_mem_nil⟩)
  rw [List.append_nil] at h
  exact ⟨tri', hrun, h⟩

/-- The loop of `ref_swap_remove_two_face_cell` adds the faces that were not
found. -/
theorem peelTwoFaces_eq {tet tri : RefCell} {face0 face1 : FoundFace}
    (hfound : [face0, face1] = (List.range 4).filterMap (lookupFace tet tri cell))
    (store : RefCell) :
    peelTwoFaces tet cell face0 face1 store = (do
      let store ← RefineMesh.removeFaces [face0, face1] store
      (restFaces tet tri cell).foldlM (addReversed tet cell face0.faceid) store) := by
  have hrest : restFaces tet tri cell = (List.range 4).filter fun k =>
      k ≠ face0.cellFace ∧ k ≠ face1.cellFace := by
    apply List.filter_congr
    intro k hk
    have hmem := mem_map_cellFace (List.mem_range.mp hk) hfound
    simp only [List.map_cons, List.map_nil, List.mem_cons, List.not_mem_nil, or_false] at hmem
    cases hlookup : lookupFace tet tri cell k with
    | none =>
        rw [hlookup] at hmem
        simpa using hmem
    | some face =>
        rw [hlookup] at hmem
        simp only [Option.isSome_some, iff_true] at hmem
        simp only [Option.isNone_some, Bool.false_eq, decide_eq_false_iff_not]
        tauto
  rw [hrest]
  simp only [peelTwoFaces, List.foldlM_filter, decide_eq_true_eq]
  rfl

/-- The number of the one face that is left over. -/
theorem filter_three {P : Nat → Bool} {a b c : Nat} (h : [a, b, c] = (List.range 4).filter P) :
    (List.range 4).filter (fun k => !P k) = [0 + 1 + 2 + 3 - a - b - c] := by
  have hrange : List.range 4 = [0, 1, 2, 3] := rfl
  rw [hrange] at h ⊢
  cases h0 : P 0 <;> cases h1 : P 1 <;> cases h2 : P 2 <;> cases h3 : P 3 <;>
    simp only [List.filter_cons, List.filter_nil, h0, h1, h2, h3, if_true, Bool.false_eq_true,
      if_false, Bool.not_true, Bool.not_false, List.cons.injEq, reduceCtorEq, and_false,
      and_true] at h ⊢ <;> omega

theorem restFaces_three {tet tri : RefCell} {face0 face1 face2 : FoundFace}
    (hfound : [face0, face1, face2] = (List.range 4).filterMap (lookupFace tet tri cell)) :
    restFaces tet tri cell = [lastFace face0 face1 face2] := by
  have hplaces := map_cellFace_filterMap tet tri cell (List.range 4)
  rw [← hfound] at hplaces
  have hrest : restFaces tet tri cell =
      (List.range 4).filter fun k => !(lookupFace tet tri cell k).isSome := by
    apply List.filter_congr
    intro k _
    exact (Option.not_isSome _).symm
  rw [hrest]
  exact filter_three hplaces

/-- **`ref_swap_remove_two_face_cell`** peels the tet. -/
theorem removeTwoFaceCell_ok {g' : RefGrid D} (hg : g.TetMesh) (hlive : (g.cell .tet).Live cell)
    (hrun : removeTwoFaceCell g cell = .ok g') :
    ∃ tri' tet', Peels g cell tri' tet' ∧ g' = (g.setCell .tri tri').setCell .tet tet' := by
  simp only [removeTwoFaceCell, bind_eq_ok, guarded_eq_ok] at hrun
  obtain ⟨found, hsearch, hrun⟩ := hrun
  have hfound := foundFaces_ok hsearch
  split at hrun
  · rename_i face0 face1
    split_ifs at hrun
    simp only [bind_eq_ok, onCell_eq_ok, guarded_eq_ok] at hrun
    obtain ⟨g1, ⟨tri', hpeel, rfl⟩, tet', hremove, rfl⟩ := hrun
    rw [peelTwoFaces_eq hfound, bind_eq_ok] at hpeel
    obtain ⟨tri1, hremoved, hadd⟩ := hpeel
    obtain ⟨tri1', hremoved', h1⟩ := hg.removeFaces hlive hfound
    obtain rfl : tri1' = tri1 := Except.ok.inj (hremoved'.symm.trans hremoved)
    have h2 := addAllReversed_ok (hg.inv.type .tri) h1 hadd
    rw [add_zero] at h2
    rw [RefGrid.setCell_cell_of_ne _ _ (by decide)] at hremove
    obtain ⟨tet1, hremove', h3⟩ := (RefCell.Replaced.refl (hg.inv.inv .tet)).remove hlive
      List.not_mem_nil
    obtain rfl : tet1 = tet' := Except.ok.inj (hremove'.symm.trans hremove)
    refine ⟨tri', tet1, ⟨⟨face0.faceid, _, h2, ?_⟩, h3⟩, rfl⟩
    rw [← hfound]
    exact List.reverse_perm _
  · cases hrun

/-- The face with number `k` leaves out the node with number `k`. -/
theorem sum_sub_reversed {tet : RefCell} (htype : tet.cellType = .tet) (cell : Nat) {k : Nat}
    (hk : k < 4) (faceid : Int) :
    tet.c2n cell 0 + tet.c2n cell 1 + tet.c2n cell 2 + tet.c2n cell 3 -
      reversedFace (f2nNodes tet cell k) faceid 0 - reversedFace (f2nNodes tet cell k) faceid 1 -
      reversedFace (f2nNodes tet cell k) faceid 2 = tet.c2n cell k := by
  simp only [reversedFace, f2nNodes, RefCell.faceNodes, htype, CellType.f2n]
  interval_cases k <;> simp <;> omega

theorem notMem_faceTri {tet : RefCell} (htype : tet.cellType = .tet)
    (hnodup : (tet.nodeList cell).Nodup) {k : Nat} (hk : k < 4) :
    tet.c2n cell k ∉ (faceTri tet cell k).corners := by
  rw [← corners_tetOf htype, tetOf_cellRow htype] at hnodup
  simp only [Tet.corners, List.nodup_cons, List.mem_cons, List.not_mem_nil, or_false, not_or,
    List.nodup_nil, not_false_iff, and_true] at hnodup
  obtain ⟨⟨h01, h02, h03⟩, ⟨h12, h13⟩, h23⟩ := hnodup
  simp only [faceTri, f2nNodes, RefCell.faceNodes, htype, CellType.f2n, Tri.corners, List.mem_cons,
    List.not_mem_nil, or_false]
  interval_cases k <;> simp <;> grind

/-- **`ref_swap_remove_three_face_cell`** peels the tet and removes the node that
only the found faces have. -/
theorem removeThreeFaceCell_ok {g' : RefGrid D} (hg : g.TetMesh) (hlive : (g.cell .tet).Live cell)
    (hrun : removeThreeFaceCell g cell = .ok g') :
    ∃ tri' tet' node' k, k < 4 ∧ restFaces (g.cell .tet) (g.cell .tri) cell = [k] ∧
      Peels g cell tri' tet' ∧ removeNode g.node ((g.cell .tet).c2n cell k) = .ok node' ∧
      g' = { (g.setCell .tri tri').setCell .tet tet' with node := node' } := by
  simp only [removeThreeFaceCell, bind_eq_ok, guarded_eq_ok] at hrun
  obtain ⟨found, hsearch, hrun⟩ := hrun
  have hfound := foundFaces_ok hsearch
  split at hrun
  · rename_i face0 face1 face2
    have hrest := restFaces_three hfound
    have hlast : lastFace face0 face1 face2 < 4 := by
      have hmem : lastFace face0 face1 face2 ∈ restFaces (g.cell .tet) (g.cell .tri) cell := by
        rw [hrest]
        exact List.mem_singleton_self _
      exact List.mem_range.mp (List.mem_filter.mp hmem).1
    split_ifs at hrun
    simp only [bind_eq_ok, onCell_eq_ok, guarded_eq_ok] at hrun
    obtain ⟨g1, ⟨tri', hpeel, rfl⟩, nodes, hnodes, g2, ⟨tet', hremove, rfl⟩, node', hnode, hrun⟩ :=
      hrun
    rw [RefGrid.setCell_cell_of_ne _ _ (by decide)] at hnodes hremove
    obtain rfl := RefCell.nodes_eq_ok hnodes
    simp only [peelThreeFaces, bind_eq_ok] at hpeel
    obtain ⟨tri1, hremoved, hadd⟩ := hpeel
    obtain ⟨tri1', hremoved', h1⟩ := hg.removeFaces hlive hfound
    obtain rfl : tri1' = tri1 := Except.ok.inj (hremoved'.symm.trans hremoved)
    have h2 := addReversed_ok (hg.inv.type .tri) h1 hadd
    obtain ⟨tet1, hremove', h3⟩ := (RefCell.Replaced.refl (hg.inv.inv .tet)).remove hlive
      List.not_mem_nil
    obtain rfl : tet1 = tet' := Except.ok.inj (hremove'.symm.trans hremove)
    rw [sum_sub_reversed (hg.inv.type .tet) cell hlast] at hnode
    have hfresh : ((restFaces (g.cell .tet) (g.cell .tri) cell).map
        (reversedRow (g.cell .tet) cell face0.faceid) : Multiset (List Int)) =
          reversedRow (g.cell .tet) cell face0.faceid (lastFace face0 face1 face2) ::ₘ 0 := by
      rw [hrest]
      rfl
    rw [← hfresh] at h2
    refine ⟨tri', tet1, node', _, hlast, hrest, ⟨⟨face0.faceid, _, h2, ?_⟩, h3⟩, hnode,
      (Except.ok.inj hrun).symm⟩
    rw [← hfound]
    exact List.reverse_perm _
  · cases hrun

/-- **The removed node** is in no remaining tet or triangle when the tets around
it are connected through their faces. -/
theorem RefGrid.TetMesh.notMem_of_three (hg : g.TetMesh) (hlive : (g.cell .tet).Live cell) {k : Nat}
    (hk : k < 4) (hrest : restFaces (g.cell .tet) (g.cell .tri) cell = [k])
    (h : Peels g cell tri' tet') (hstar : StarConnected g.tets ((g.cell .tet).c2n cell k)) :
    (∀ t ∈ ((g.setCell .tri tri').setCell .tet tet').tets, (g.cell .tet).c2n cell k ∉ t.corners) ∧
      ∀ f ∈ ((g.setCell .tri tri').setCell .tet tet').tris,
        (g.cell .tet).c2n cell k ∉ f.corners := by
  have hper : (g.cell .tet).nodePer = 4 := by
    unfold RefCell.nodePer
    rw [hg.inv.type .tet]
    rfl
  have halone : ∀ t ∈ ((g.setCell .tri tri').setCell .tet tet').tets,
      (g.cell .tet).c2n cell k ∉ t.corners := by
    apply hstar.alone hg.faces hg.once h.tets hg.simple_tets
    · rw [corners_tetOf (hg.inv.type .tet)]
      exact RefCell.c2n_mem_nodeList _ cell (hper ▸ hk)
    · intro f hf hv
      rw [faces_tetOf (hg.inv.type .tet), Multiset.mem_coe, List.mem_map] at hf
      obtain ⟨m, hm, rfl⟩ := hf
      have hmk : m ≠ k := by
        rintro rfl
        exact notMem_faceTri (hg.inv.type .tet) (hg.simple cell hlive) hk hv
      cases hlookup : lookupFace (g.cell .tet) (g.cell .tri) cell m with
      | none =>
          have hmem : m ∈ restFaces (g.cell .tet) (g.cell .tri) cell :=
            List.mem_filter.mpr ⟨hm, by rw [hlookup]; rfl⟩
          rw [hrest, List.mem_singleton] at hmem
          exact absurd hmem hmk
      | some face =>
          obtain ⟨hface, hturn⟩ := hg.lookupFace_some hlive (List.mem_range.mp hm) hlookup
          exact ⟨_, Multiset.mem_map_of_mem _ (RefCell.mem_cells.mpr ⟨_, hface, rfl⟩), hturn⟩
  refine ⟨halone, ?_⟩
  intro f hf hv
  obtain ⟨t, ht, f', hf', hturn⟩ := (hg.peeled hlive h).faces.exists_face hf
  exact halone t ht (mem_corners_of_faces hf' (hturn.mem_corners.mpr hv))

/-! ## `REF_INVALID` -/

theorem guarded_eq_error' {σ α : Type} {s s' : σ} {x : Except Status α} {status : Status}
    (h : guarded s x = .error (status, s')) : x = .error status ∧ s' = s := by
  cases x with
  | error e =>
      simp only [guarded, Except.mapError, Except.error.injEq, Prod.mk.injEq] at h
      exact ⟨by rw [h.1], h.2.symm⟩
  | ok a => cases h

/-- The edits of the triangles do not answer `REF_INVALID`. -/
theorem RefGrid.TetMesh.peel_ne_invalid (hg : g.TetMesh) (hlive : (g.cell .tet).Live cell)
    {found : List FoundFace}
    (hfound : found = (List.range 4).filterMap (lookupFace (g.cell .tet) (g.cell .tri) cell))
    {l : List Nat} (hl : ∀ k ∈ l, k < 4) {store : RefCell} :
    (do
      let store ← RefineMesh.removeFaces found (g.cell .tri)
      l.foldlM (addReversed (g.cell .tet) cell faceid) store) ≠ .error (.invalid, store) := by
  intro hrun
  obtain ⟨tri1, hremoved, h1⟩ := hg.removeFaces hlive hfound
  rcases bind_eq_error.mp hrun with h | ⟨tri2, hremoved', hadd⟩
  · rw [hremoved] at h
    cases h
  · obtain rfl : tri1 = tri2 := Except.ok.inj (hremoved.symm.trans hremoved')
    obtain ⟨k, hk, i, hi, hneg⟩ := addAllReversed_invalid (hg.inv.type .tri) h1 hadd
    exact absurd (f2nNodes_nonneg hg hlive (hl k hk) hi) (not_le.mpr hneg)

theorem removeTet_ne_error (hg : g.TetMesh) (hlive : (g.cell .tet).Live cell) {failed : Status × RefCell} :
    guarded (g.cell .tet) ((g.cell .tet).remove cell) ≠ .error failed := by
  obtain ⟨tet1, hremove, _⟩ := (RefCell.Replaced.refl (hg.inv.inv .tet)).remove hlive
    List.not_mem_nil
  rw [hremove]
  intro h
  cases h

theorem removeTwoFaceCell_invalid {g' : RefGrid D} (hg : g.TetMesh)
    (hlive : (g.cell .tet).Live cell)
    (hrun : removeTwoFaceCell g cell = .error (.invalid, g')) : g' = g := by
  simp only [removeTwoFaceCell] at hrun
  rcases bind_eq_error.mp hrun with h | ⟨found, hsearch, hrun⟩
  · exact (guarded_eq_error' h).2
  have hfound := foundFaces_ok (guarded_eq_ok.mp hsearch)
  split at hrun
  · rename_i face0 face1
    split_ifs at hrun
    · exact (congrArg Prod.snd (Except.error.inj hrun)).symm
    · exfalso
      rcases bind_eq_error.mp hrun with h | ⟨g1, hpeel, h⟩
      · obtain ⟨store, hstore⟩ := onCell_eq_error h
        rw [peelTwoFaces_eq hfound] at hstore
        exact hg.peel_ne_invalid hlive hfound
          (fun k hk => List.mem_range.mp (List.mem_filter.mp hk).1) hstore
      · obtain ⟨tri', _, rfl⟩ := onCell_eq_ok.mp hpeel
        rw [RefGrid.setCell_cell_of_ne _ _ (by decide)] at h
        obtain ⟨store, hstore⟩ := onCell_eq_error h
        exact removeTet_ne_error hg hlive hstore
  · exact (congrArg Prod.snd (Except.error.inj hrun)).symm

theorem peelThreeFaces_eq {tet : RefCell} {face0 face1 face2 : FoundFace} (store : RefCell) :
    peelThreeFaces tet cell face0 face1 face2 store = (do
      let store ← RefineMesh.removeFaces [face0, face1, face2] store
      [lastFace face0 face1 face2].foldlM (addReversed tet cell face0.faceid) store) := by
  simp [peelThreeFaces]

theorem sortSearch_error {n : Nat} {ascendingList : Nat → Int} {target : Int} {e : Status}
    (h : sortSearch n ascendingList target = .error e) : e = .notFound := by
  simp only [sortSearch] at h
  split_ifs at h
  · exact (Except.error.inj h).symm
  · exact (Except.error.inj h).symm
  · rcases searchLoop_sound ascendingList target n 0 (n - 1) (n / 2) with ⟨k, hk, _⟩ | hnone
    · rw [hk] at h
      cases h
    · rw [hnone] at h
      exact (Except.error.inj h).symm

theorem removeNode_ne_invalid {s : RefNode D} {v : Int} (hv : 0 ≤ v) (hlive : s.Live v.toNat) :
    removeNode s v ≠ .error .invalid := by
  intro h
  rw [removeNode, if_neg (not_lt.mpr hv), RefNode.remove, if_neg (not_not.mpr hlive)] at h
  rcases bind_eq_error.mp h with h | ⟨_, _, h⟩
  · cases sortSearch_error h
  · cases h

/-- `REF_INVALID` comes before the first change; the node that goes last is
valid. -/
theorem removeThreeFaceCell_invalid {g' : RefGrid D} (hg : g.TetMesh)
    (hlive : (g.cell .tet).Live cell)
    (hnodes : ∀ x ∈ (g.cell .tet).nodeList cell, g.node.Live x.toNat)
    (hrun : removeThreeFaceCell g cell = .error (.invalid, g')) : g' = g := by
  simp only [removeThreeFaceCell] at hrun
  rcases bind_eq_error.mp hrun with h | ⟨found, hsearch, hrun⟩
  · exact (guarded_eq_error' h).2
  have hfound := foundFaces_ok (guarded_eq_ok.mp hsearch)
  split at hrun
  · rename_i face0 face1 face2
    have hrest := restFaces_three hfound
    have hlast : lastFace face0 face1 face2 < 4 := by
      have hmem : lastFace face0 face1 face2 ∈ restFaces (g.cell .tet) (g.cell .tri) cell := by
        rw [hrest]
        exact List.mem_singleton_self _
      exact List.mem_range.mp (List.mem_filter.mp hmem).1
    split_ifs at hrun
    · exact (congrArg Prod.snd (Except.error.inj hrun)).symm
    · exfalso
      rcases bind_eq_error.mp hrun with h | ⟨g1, hpeel, hrun⟩
      · obtain ⟨store, hstore⟩ := onCell_eq_error h
        rw [peelThreeFaces_eq] at hstore
        exact hg.peel_ne_invalid hlive hfound
          (fun k hk => List.mem_singleton.mp hk ▸ hlast) hstore
      obtain ⟨tri', _, rfl⟩ := onCell_eq_ok.mp hpeel
      rw [RefGrid.setCell_cell_of_ne _ _ (by decide)] at hrun
      rcases bind_eq_error.mp hrun with h | ⟨nodes, hcell, hrun⟩
      · have h' := (guarded_eq_error' h).1
        rw [RefCell.nodes_of_live hlive] at h'
        cases h'
      obtain rfl := RefCell.nodes_eq_ok (guarded_eq_ok.mp hcell)
      rcases bind_eq_error.mp hrun with h | ⟨g2, hremove, hrun⟩
      · obtain ⟨store, hstore⟩ := onCell_eq_error h
        exact removeTet_ne_error hg hlive hstore
      obtain ⟨tet', _, rfl⟩ := onCell_eq_ok.mp hremove
      rcases bind_eq_error.mp hrun with h | ⟨_, _, h⟩
      · have hper : (g.cell .tet).nodePer = 4 := by
          unfold RefCell.nodePer
          rw [hg.inv.type .tet]
          rfl
        have hmem := RefCell.c2n_mem_nodeList (g.cell .tet) cell (hper ▸ hlast)
        have h' := (guarded_eq_error' h).1
        rw [sum_sub_reversed (hg.inv.type .tet) cell hlast] at h'
        exact removeNode_ne_invalid ((hg.inv.inv .tet).nonneg cell hlive _ hmem)
          (hnodes _ hmem) h'
      · cases h
  · exact (congrArg Prod.snd (Except.error.inj hrun)).symm

end Peeled

/-! ## The pass -/

section Pass

variable {g g' : RefGrid D}

/-- A found tet is a tet. -/
theorem live_of_withFace {s : RefCell} (hinv : s.CellInv) {nodes : Nat → Int} {found : Int × Int}
    (hrun : s.withFace nodes = .ok found) (hsome : found.1 ≠ refEmpty) : s.Live found.1.toNat := by
  have hfound := RefCell.withFace_ok hrun
  have hlive : ∀ c ∈ s.facesOn nodes, s.Live c := by
    intro c hc
    obtain ⟨c', hc', hmem⟩ := List.mem_flatMap.mp hc
    obtain ⟨_, _, rfl⟩ := List.mem_map.mp hmem
    exact (hinv.mem_having.mp hc').1
  match hl : s.facesOn nodes with
  | [] =>
      rw [hl] at hfound
      exact absurd (congrArg Prod.fst hfound) hsome
  | [a] =>
      rw [hl] at hfound hlive
      have hfirst : found.1 = (a : Int) := congrArg Prod.fst hfound
      rw [hfirst]
      exact hlive a (by simp)
  | [a, b] =>
      rw [hl] at hfound hlive
      have hfirst : found.1 = (a : Int) := congrArg Prod.fst hfound
      rw [hfirst]
      exact hlive a (by simp)
  | _ :: _ :: _ :: _ =>
      rw [hl] at hfound
      exact hfound.elim

theorem swapPassStep_ok (hinv : g.CellsInv) {triIndex : Nat}
    (hrun : swapPassStep g triIndex = .ok g') :
    g' = g ∨ ∃ cell, (g.cell .tet).Live cell ∧ removeTwoFaceCell g cell = .ok g' := by
  simp only [swapPassStep] at hrun
  split at hrun
  · exact Or.inl (Except.ok.inj hrun).symm
  · simp only [bind_eq_ok, guarded_eq_ok, Prod.exists] at hrun
    obtain ⟨tet0, tet1, hface, hrun⟩ := hrun
    split at hrun
    · cases hrun
    rename_i hsome
    split at hrun
    · cases hrun
    split at hrun
    · exact Or.inl (Except.ok.inj hrun).symm
    simp only [bind_eq_ok, guarded_eq_ok] at hrun
    obtain ⟨ids, _, hrun⟩ := hrun
    split at hrun
    · exact Or.inl (Except.ok.inj hrun).symm
    · exact Or.inr ⟨_, live_of_withFace (hinv.inv .tet) hface hsome, hrun⟩

theorem swapPassStep_tetMesh (hg : g.TetMesh) {triIndex : Nat}
    (hrun : swapPassStep g triIndex = .ok g') : g'.TetMesh := by
  rcases swapPassStep_ok hg.inv hrun with rfl | ⟨cell, hlive, hremove⟩
  · exact hg
  · obtain ⟨tri', tet', hpeels, rfl⟩ := removeTwoFaceCell_ok hg hlive hremove
    exact hg.peeled hlive hpeels

theorem swapPassLoop_tetMesh {fuel triIndex : Nat} (hg : g.TetMesh)
    (hrun : swapPassLoop fuel triIndex g = some (.ok g')) : g'.TetMesh := by
  induction fuel generalizing triIndex g with
  | zero => cases hrun
  | succ fuel ih =>
      rw [swapPassLoop] at hrun
      split_ifs at hrun
      · split at hrun
        · rename_i g1 hstep
          exact ih (swapPassStep_tetMesh hg hstep) hrun
        · cases hrun
      · obtain rfl : g = g' := Except.ok.inj (Option.some.inj hrun)
        exact hg

theorem swapPassSteps_tetMesh {l : List Nat} (hg : g.TetMesh)
    (hrun : l.foldlM swapPassStep g = .ok g') : g'.TetMesh := by
  induction l generalizing g with
  | nil =>
      obtain rfl : g = g' := Except.ok.inj hrun
      exact hg
  | cons triIndex l ih =>
      rw [List.foldlM_cons, bind_eq_ok] at hrun
      obtain ⟨g1, hstep, hrest⟩ := hrun
      exact ih (swapPassStep_tetMesh hg hstep) hrest

end Pass

/-! ## The pass ends -/

section Ends

variable {s tri tri' tet : RefCell} {cell : Nat}

theorem RefCell.CellInv.card_cells (h : s.CellInv) : s.cells.card = s.n := by
  rw [RefCell.cells, Multiset.coe_card, List.length_map, ← h.count]
  rfl

theorem RefCell.remove_max (h : s.remove cell = .ok tri') : tri'.max = s.max := by
  simp only [RefCell.remove] at h
  split_ifs at h
  simp only [bind_eq_ok, Except.ok.injEq] at h
  obtain ⟨adj, _, rfl⟩ := h
  rfl

/-- A store with room does not grow. -/
theorem RefCell.CellInv.add_max (h : s.CellInv) (hroom : s.n < s.max) {nodes : Nat → Int}
    (hrun : s.add nodes = .ok (tri', cell)) : tri'.max = s.max := by
  have hblank : s.blank ≠ refEmpty := fun hempty => by
    have := h.full hempty
    omega
  simp only [RefCell.add, RefCell.grow, if_pos hblank, bind_eq_ok, Except.ok.injEq,
    Prod.mk.injEq] at hrun
  obtain ⟨s1, rfl, adj, _, rfl, _⟩ := hrun
  rfl

theorem removeFaces_max {found : List FoundFace} (hrun : removeFaces found tri = .ok tri') :
    tri'.max = tri.max := by
  induction found generalizing tri with
  | nil =>
      obtain rfl : tri = tri' := Except.ok.inj hrun
      rfl
  | cons f found ih =>
      rw [removeFaces, List.foldlM_cons, bind_eq_ok] at hrun
      obtain ⟨tri1, hremove, hrest⟩ := hrun
      rw [ih hrest, RefCell.remove_max (guarded_eq_ok.mp hremove)]

/-- As many cells are added as were removed, or fewer: the store does not
grow. -/
theorem addAllReversed_max (hinv : s.CellInv) (htype : s.cellType = .tri) {l : List Nat}
    {faceid : Int} {gone : List Nat} {fresh : Multiset (List Int)}
    (h : s.Replaced tri gone fresh) (hmax : tri.max = s.max)
    (hroom : fresh.card + l.length ≤ gone.length)
    (hrun : l.foldlM (addReversed tet cell faceid) tri = .ok tri') : tri'.max = s.max := by
  induction l generalizing tri fresh with
  | nil =>
      obtain rfl : tri = tri' := Except.ok.inj hrun
      exact hmax
  | cons k l ih =>
      rw [List.foldlM_cons, bind_eq_ok] at hrun
      obtain ⟨tri1, hadd, hrest⟩ := hrun
      have h1 := addReversed_ok htype h hadd
      simp only [addReversed, bind_eq_ok, guarded_eq_ok] at hadd
      obtain ⟨⟨added, new⟩, hadd, hone⟩ := hadd
      obtain rfl : added = tri1 := Except.ok.inj hone
      rw [List.length_cons] at hroom
      have hcard := congrArg Multiset.card h.cells
      rw [Multiset.card_add, Multiset.card_add, Multiset.coe_card, List.length_map,
        h.inv.card_cells, hinv.card_cells] at hcard
      have hle : s.n ≤ s.max := by
        rw [← hinv.count, SlotList.liveCount]
        exact (Finset.card_filter_le _ _).trans (Finset.card_range s.max).le
      apply ih h1 ((h.inv.add_max (by omega) hadd).trans hmax) _ hrest
      rw [Multiset.card_cons]
      omega

variable {g g' : RefGrid D}

theorem removeTwoFaceCell_max (hg : g.TetMesh) (hlive : (g.cell .tet).Live cell)
    (hrun : removeTwoFaceCell g cell = .ok g') : (g'.cell .tri).max = (g.cell .tri).max := by
  simp only [removeTwoFaceCell, bind_eq_ok, guarded_eq_ok] at hrun
  obtain ⟨found, hsearch, hrun⟩ := hrun
  have hfound := foundFaces_ok hsearch
  split at hrun
  · rename_i face0 face1
    split_ifs at hrun
    simp only [bind_eq_ok, onCell_eq_ok, guarded_eq_ok] at hrun
    obtain ⟨g1, ⟨tri', hpeel, rfl⟩, tet', _, rfl⟩ := hrun
    rw [peelTwoFaces_eq hfound, bind_eq_ok] at hpeel
    obtain ⟨tri1, hremoved, hadd⟩ := hpeel
    obtain ⟨tri1', hremoved', h1⟩ := hg.removeFaces hlive hfound
    obtain rfl : tri1' = tri1 := Except.ok.inj (hremoved'.symm.trans hremoved)
    have hlength : (restFaces (g.cell .tet) (g.cell .tri) cell).length = 2 := by
      have hplaces := congrArg List.length (map_cellFace_filterMap (g.cell .tet) (g.cell .tri) cell
        (List.range 4))
      have hsplit := List.length_eq_length_filter_add (l := List.range 4)
        fun k => (lookupFace (g.cell .tet) (g.cell .tri) cell k).isSome
      rw [← hfound] at hplaces
      simp only [List.length_map, List.length_cons, List.length_nil, List.length_range,
        Option.not_isSome] at hplaces hsplit
      rw [restFaces]
      omega
    rw [RefGrid.setCell_cell_of_ne _ _ (by decide), RefGrid.setCell_cell_self]
    exact addAllReversed_max (hg.inv.inv .tri) (hg.inv.type .tri) h1 (removeFaces_max hremoved)
      (by simp [hlength]) hadd
  · cases hrun

theorem swapPassLoop_ends {fuel triIndex : Nat} (hg : g.TetMesh)
    (hfuel : (g.cell .tri).max - triIndex < fuel) : swapPassLoop fuel triIndex g ≠ none := by
  induction fuel generalizing triIndex g with
  | zero => omega
  | succ fuel ih =>
      rw [swapPassLoop]
      split_ifs with hlt
      · split
        · rename_i g1 hstep
          apply ih (swapPassStep_tetMesh hg hstep)
          have hmax : (g1.cell .tri).max = (g.cell .tri).max := by
            rcases swapPassStep_ok hg.inv hstep with rfl | ⟨cell, hlive, hremove⟩
            · rfl
            · exact removeTwoFaceCell_max hg hlive hremove
          omega
        · exact Option.some_ne_none _
      · exact Option.some_ne_none _

end Ends

/-- **Peeling boundary tets keeps the mesh watertight.**  In a tet mesh whose
triangles are the unshared faces, removing a cell with two or three faces on the
boundary leaves such a mesh, and so does a pass after any of its steps; the pass
ends.  The node removed with a cell of three faces is in no remaining tet or
triangle when the tets around it are connected through their faces.  When a
removal answers `REF_INVALID`, nothing has changed. -/
theorem peeling_keeps_watertight (g : RefGrid D) (hg : g.TetMesh) :
    (∀ cell g', (g.cell .tet).Live cell → removeTwoFaceCell g cell = .ok g' → g'.TetMesh) ∧
      (∀ cell g', (g.cell .tet).Live cell → removeThreeFaceCell g cell = .ok g' →
        g'.TetMesh ∧ ∃ v ∈ (g.cell .tet).nodeList cell, removeNode g.node v = .ok g'.node ∧
          (StarConnected g.tets v →
            (∀ t ∈ g'.tets, v ∉ t.corners) ∧ ∀ f ∈ g'.tris, v ∉ f.corners)) ∧
      (∀ cell g', (g.cell .tet).Live cell →
        removeTwoFaceCell g cell = .error (.invalid, g') → g' = g) ∧
      (∀ cell g', (g.cell .tet).Live cell →
        (∀ x ∈ (g.cell .tet).nodeList cell, g.node.Live x.toNat) →
        removeThreeFaceCell g cell = .error (.invalid, g') → g' = g) ∧
      (∀ (l : List Nat) g', l.foldlM swapPassStep g = .ok g' → g'.TetMesh) ∧
      (∀ fuel g', swapPass fuel g = some (.ok g') → g'.TetMesh) ∧
      ∀ fuel, (g.cell .tri).max < fuel → swapPass fuel g ≠ none := by
  refine ⟨?_, ?_, ?_, ?_, ?_, ?_, ?_⟩
  · intro cell g' hlive hrun
    obtain ⟨tri', tet', hpeels, rfl⟩ := removeTwoFaceCell_ok hg hlive hrun
    exact hg.peeled hlive hpeels
  · intro cell g' hlive hrun
    obtain ⟨tri', tet', node', k, hk, hrest, hpeels, hnode, rfl⟩ :=
      removeThreeFaceCell_ok hg hlive hrun
    have hmesh := hg.peeled hlive hpeels
    have hper : (g.cell .tet).nodePer = 4 := by
      unfold RefCell.nodePer
      rw [hg.inv.type .tet]
      rfl
    exact ⟨⟨⟨hmesh.inv.type, hmesh.inv.inv⟩, hmesh.simple, hmesh.faces, hmesh.once⟩, _,
      RefCell.c2n_mem_nodeList _ cell (hper ▸ hk), hnode,
      fun hstar => hg.notMem_of_three hlive hk hrest hpeels hstar⟩
  · intro cell g' hlive hrun
    exact removeTwoFaceCell_invalid hg hlive hrun
  · intro cell g' hlive hnodes hrun
    exact removeThreeFaceCell_invalid hg hlive hnodes hrun
  · intro l g' hrun
    exact swapPassSteps_tetMesh hg hrun
  · intro fuel g' hrun
    exact swapPassLoop_tetMesh hg hrun
  · intro fuel hfuel
    exact swapPassLoop_ends hg (by omega)

/-- Tets and triangles. -/
def volumeRows (tets tris : List (List Int)) : CellType → List (List Int)
  | .tet => tets
  | .tri => tris
  | _ => []

/-- A grid of tets and triangles over nine nodes. -/
def volumeGrid (tets tris : List (List Int)) : RefGrid Int :=
  RefGrid.ofRows (afterCalls ((List.range 9).map fun i => .add i)).store noGeom
    (volumeRows tets tris)

section VolumeGrid

variable {tets tris : List (List Int)}

theorem volumeGrid_tetMesh (htets : RefCell.RowsFit .tet tets) (htris : RefCell.RowsFit .tri tris)
    (hsimple : ∀ row ∈ tets, (row.take 4).Nodup)
    (hfaces : Unshared (tets.map tetOf : Multiset (Tet Int)) (tris.map triOf : Multiset (Tri Int)))
    (honce : FaceOnce (tets.map tetOf : Multiset (Tet Int))) :
    (volumeGrid tets tris).TetMesh := by
  have hfit : ∀ t, RefCell.RowsFit t (volumeRows tets tris t) := by
    intro t
    by_cases htet : t = .tet
    · exact htet ▸ htets
    by_cases htri : t = .tri
    · exact htri ▸ htris
    have hnone : volumeRows tets tris t = [] := by
      cases t <;> first | rfl | exact absurd rfl htet | exact absurd rfl htri
    rw [hnone]
    exact ⟨by simp, by simp⟩
  constructor
  · exact RefGrid.ofRows_inv hfit
  · exact RefGrid.ofRows_simple (hfit .tet) hsimple
  · rw [volumeGrid, RefGrid.tets, RefGrid.tris, RefGrid.cells_ofRows (hfit .tet),
      RefGrid.cells_ofRows (hfit .tri)]
    exact hfaces
  · rw [volumeGrid, RefGrid.tets, RefGrid.cells_ofRows (hfit .tet)]
    exact honce

end VolumeGrid

/-- Three tets around an edge. -/
def ringGrid : RefGrid Int :=
  volumeGrid [[0, 1, 2, 3], [0, 1, 3, 4], [0, 1, 4, 2]]
    [[1, 3, 2, 7], [0, 2, 3, 7], [1, 4, 3, 7], [0, 3, 4, 7], [1, 2, 4, 7], [0, 4, 2, 7]]

/-- Two tets on a face. -/
def pairGrid : RefGrid Int :=
  volumeGrid [[0, 1, 2, 3], [4, 1, 3, 2]]
    [[0, 2, 3, 7], [0, 3, 1, 7], [0, 1, 2, 7], [4, 3, 2, 7], [4, 2, 1, 7], [4, 1, 3, 7]]

theorem ringGrid_tetMesh : ringGrid.TetMesh := by
  apply volumeGrid_tetMesh <;> decide

theorem pairGrid_tetMesh : pairGrid.TetMesh := by
  apply volumeGrid_tetMesh <;> decide

theorem peeling_keeps_watertight_ring_pair :
    (∃ g', removeTwoFaceCell ringGrid 0 = .ok g' ∧ g'.TetMesh) ∧
      (∃ g', [0, 1].foldlM swapPassStep ringGrid = .ok g' ∧ g'.TetMesh) ∧
      ∃ g', removeThreeFaceCell pairGrid 1 = .ok g' ∧ g'.TetMesh := by
  obtain ⟨htwo, -, -, -, hsteps, -, -⟩ := peeling_keeps_watertight ringGrid ringGrid_tetMesh
  obtain ⟨-, hthree, -⟩ := peeling_keeps_watertight pairGrid pairGrid_tetMesh
  refine ⟨?_, ?_, ?_⟩
  · obtain ⟨g', hrun⟩ : ∃ g', removeTwoFaceCell ringGrid 0 = .ok g' :=
      exists_ok_of_succeeds (by decide +kernel)
    exact ⟨g', hrun, htwo 0 g' (by decide +kernel) hrun⟩
  · obtain ⟨g', hrun⟩ : ∃ g', [0, 1].foldlM swapPassStep ringGrid = .ok g' :=
      exists_ok_of_succeeds (by decide +kernel)
    exact ⟨g', hrun, hsteps [0, 1] g' hrun⟩
  · obtain ⟨g', hrun⟩ : ∃ g', removeThreeFaceCell pairGrid 1 = .ok g' :=
      exists_ok_of_succeeds (by decide +kernel)
    exact ⟨g', hrun, (hthree 1 g' (by decide +kernel) hrun).1⟩

/-- The triangles of a closed ball around node 4 and of a tet that touches it
from inside at that node. -/
def spikeTris : List (List Int) :=
  [[1, 3, 2, 7], [0, 2, 3, 7], [0, 3, 1, 7], [0, 1, 2, 7], [4, 6, 7, 7], [4, 7, 5, 7], [4, 5, 6, 7],
    [8, 7, 6, 7], [8, 6, 5, 7], [8, 5, 7, 7]]

/-- The tets of the two parts. -/
def spikeGrid : RefGrid Int :=
  volumeGrid [[4, 1, 2, 3], [0, 4, 2, 3], [0, 1, 4, 3], [0, 1, 2, 4], [4, 5, 6, 7], [8, 5, 7, 6]]
    spikeTris

theorem spikeGrid_tetMesh : spikeGrid.TetMesh := by
  apply volumeGrid_tetMesh <;> decide

/-- The triangles at each node form one fan, but node 4 is removed with a tet
while four others have it. -/
theorem removeThreeFaceCell_spike :
    spikeGrid.TetMesh ∧ (∀ v, OneFan spikeGrid.tris v) ∧ DirectedOnce spikeGrid.tris ∧
      ∃ g', removeThreeFaceCell spikeGrid 4 = .ok g' ∧ spikeGrid.node.Live 4 ∧
        ¬ g'.node.Live 4 ∧ ∃ t ∈ g'.tets, 4 ∈ t.corners := by
  have htris : spikeGrid.tris = (spikeTris.map triOf : Multiset (Tri Int)) := by
    rw [spikeGrid, volumeGrid, RefGrid.tris, RefGrid.cells_ofRows (by decide)]
    rfl
  obtain ⟨g', hrun, hleft⟩ := exists_ok_of_map (x := removeThreeFaceCell spikeGrid 4)
    (f := fun g' => ((g'.cell .tet).validCells.map (g'.cell .tet).cellRow,
      decide (g'.node.Live 4)))
    (b := ([[4, 1, 2, 3], [0, 4, 2, 3], [0, 1, 4, 3], [0, 1, 2, 4], [8, 5, 7, 6]], false))
    (by decide +kernel)
  rw [Prod.mk.injEq, decide_eq_false_iff_not] at hleft
  obtain ⟨hrows, hdead⟩ := hleft
  refine ⟨spikeGrid_tetMesh, ?_, ?_, g', hrun, by decide +kernel, hdead, ?_⟩
  · intro v
    rw [htris]
    apply oneFan_of_two_steps
    simp only [Multiset.mem_coe]
    decide +kernel
  · rw [htris]
    decide +kernel
  · rw [RefGrid.tets, RefCell.cells, hrows]
    exact ⟨(4, 1, 2, 3), by decide, by decide⟩

end RefineMesh
