import Mathlib.Tactic
import RefineMesh.InflateRuns

/-!
# The cells of an inflated layer

The loops of `ref_inflate_face` over the listed triangles.  The queries for the
two nodes of a side fail on a triangle that repeats a node, and find one other
triangle at most.  The rows of the new quadrilaterals and prisms are those of
the grid before the loops, because no new row has both nodes of a side that is
still to come.
-/

namespace RefineMesh

open ArrayLoop
open RefNode (KeepsNodes)

namespace RefCell

/-! ## Cells with two nodes -/

/-- The cells that have both nodes. -/
def withBoth (s : RefCell) (a b : Int) : List Nat :=
  s.validCells.filter fun c => a ∈ s.nodeList c ∧ b ∈ s.nodeList c

section WithBoth

variable {s s' : RefCell} {a b : Int} {c : Nat}

theorem mem_withBoth : c ∈ s.withBoth a b ↔ s.Live c ∧ a ∈ s.nodeList c ∧ b ∈ s.nodeList c := by
  simp [withBoth, mem_validCells]

theorem nodup_withBoth : (s.withBoth a b).Nodup := s.nodup_validCells.filter _

/-- A list without repetition that has the cells with both nodes. -/
theorem withBoth_perm {l : List Nat} (h : s.CellInv) (hl : l.Nodup)
    (hmem : ∀ c, c ∈ l ↔ c ∈ s.having2 a b) : (s.withBoth a b).Perm l := by
  refine (List.perm_ext_iff_of_nodup nodup_withBoth hl).mpr fun c => ?_
  rw [mem_withBoth, hmem, h.mem_having2]

/-- One cell that is found is the only one. -/
theorem withBoth_of_listWith2 (h : s.CellInv) {most : Nat}
    (hrun : s.listWith2 a b most = .ok [c]) : s.withBoth a b = [c] := by
  have hlist := (listWith2_eq_ok hrun).1
  exact List.perm_singleton.mp
    (withBoth_perm h (List.nodup_singleton c) fun c' => by rw [hlist])

theorem length_withBoth : (s.withBoth a b).length =
    s.cells.countP fun row => a ∈ row.take s.nodePer ∧ b ∈ row.take s.nodePer := by
  rw [cells, Multiset.coe_countP, List.countP_map, withBoth, List.countP_eq_length_filter]
  congr 1
  apply List.filter_congr
  intro c _
  simp [take_cellRow]

/-- Rows without both nodes do not change what is found. -/
theorem Replaced.withBoth {fresh : Multiset (List Int)} (h : Replaced s s' [] fresh)
    (hfresh : ∀ row ∈ fresh, ¬ (a ∈ row.take s.nodePer ∧ b ∈ row.take s.nodePer))
    (hone : s'.withBoth a b = [c]) : s.withBoth a b = [c] ∧ s'.c2n c = s.c2n c := by
  have hlen : (s.withBoth a b).length = 1 := by
    have hcount : (s'.withBoth a b).length = 1 := by rw [hone]; rfl
    have hcells := h.cells
    rw [List.map_nil, Multiset.coe_nil, add_zero] at hcells
    rw [length_withBoth, h.nodePer, hcells, Multiset.countP_add,
      Multiset.countP_eq_zero.mpr hfresh] at hcount
    rw [length_withBoth]
    exact hcount
  obtain ⟨c', hc'⟩ := List.length_eq_one_iff.mp hlen
  obtain ⟨hlive, ha, hb⟩ := mem_withBoth.mp (hc' ▸ List.mem_cons_self)
  obtain ⟨hlive', hrow⟩ := h.keeps c' hlive List.not_mem_nil
  have hin : c' ∈ s'.withBoth a b := by
    rw [mem_withBoth, nodeList_congr h.type hrow]
    exact ⟨hlive', ha, hb⟩
  rw [hone, List.mem_singleton] at hin
  rw [← hin]
  exact ⟨hc', hrow⟩

/-- A node that a cell repeats is refused. -/
theorem count_lt_two_of_listWith2 (h : s.CellInv) (hlive : s.Live c) {l : List Nat}
    (hrun : s.listWith2 a a 2 = .ok l) : (s.nodeList c).count a < 2 := by
  obtain ⟨hlist, hle⟩ := listWith2_eq_ok hrun
  have hcount := h.count_having2 a a c
  rw [if_pos hlive, ← hlist] at hcount
  have hmost : l.count c ≤ l.length := List.count_le_length
  by_contra hlarge
  have hfour : 2 * 2 ≤ (s.nodeList c).count a * (s.nodeList c).count a :=
    Nat.mul_le_mul (not_lt.mp hlarge) (not_lt.mp hlarge)
  omega

end WithBoth

end RefCell

namespace RefInflate

variable {D : Type}

/-! ## The sides of the layer -/

/-- The other triangles on a side. -/
def others (tri : RefCell) (cell : Nat) (a b : Int) : List Nat :=
  (tri.withBoth a b).filter (· ≠ cell)

/-- The id of the neighbor of a listed triangle across a side, where a
quadrilateral is needed. -/
def sideId (faceids : RefDict) (tri qua : RefCell) (cell : Nat) (a b : Int) : Option Int :=
  match others tri cell a b with
  | [] => (qua.withBoth a b).head?.map fun quad => qua.c2n quad 4
  | other :: _ => if listed faceids tri other then none else some (tri.c2n other 3)

section Sides

variable {faceids : RefDict} {node : RefNode D} {tri qua qua' : RefCell} {up : Int → Int}
  {cell : Nat} {a b : Int}

/-- The triangles on a side of a triangle: itself and one other at most. -/
theorem tris_on_side (h : tri.CellInv) (hlive : tri.Live cell)
    (hnodup : (tri.nodeList cell).Nodup) (ha : a ∈ tri.nodeList cell)
    (hb : b ∈ tri.nodeList cell) {tris : List Nat} (hrun : tri.listWith2 a b 2 = .ok tris) :
    tris = [cell] ∧ others tri cell a b = [] ∨
      ∃ other, (tris = [cell, other] ∨ tris = [other, cell]) ∧ other ≠ cell ∧
        others tri cell a b = [other] := by
  obtain ⟨hlist, hle⟩ := RefCell.listWith2_eq_ok hrun
  have hcount : tris.count cell = 1 := by
    rw [hlist, h.count_having2, if_pos hlive, List.count_eq_one_of_mem hnodup ha,
      List.count_eq_one_of_mem hnodup hb]
  have hothers : tris.Nodup → (others tri cell a b).Perm (tris.filter (· ≠ cell)) := fun hn =>
    (RefCell.withBoth_perm h hn fun c => by rw [hlist]).filter _
  match tris, hle with
  | [], _ => simp at hcount
  | [x], _ =>
      have hx : x = cell := by
        by_contra hne
        simp [hne] at hcount
      rw [hx] at hothers ⊢
      exact Or.inl ⟨rfl, by simpa using hothers (List.nodup_singleton cell)⟩
  | [x, y], _ =>
      right
      by_cases hx : x = cell
      · have hy : y ≠ cell := by
          intro hy
          simp [hx, hy] at hcount
        rw [hx] at hothers ⊢
        refine ⟨y, Or.inl rfl, hy, List.perm_singleton.mp ?_⟩
        simpa [hy] using hothers (by simpa using Ne.symm hy)
      · have hy : y = cell := by
          by_contra hne
          simp [hx, hne] at hcount
        rw [hy] at hothers ⊢
        refine ⟨x, Or.inr rfl, hx, List.perm_singleton.mp ?_⟩
        simpa [hx] using hothers (by simpa using hx)

/-- **One side of a listed triangle**: a row is added where the side has an id. -/
theorem sideQua_spec {side : Nat × Nat} (htri : tri.CellInv) (hqua : qua.CellInv)
    (hlive : tri.Live cell) (hnodup : (tri.nodeList cell).Nodup)
    (hlisted : listed faceids tri cell = true) (hfirst : tri.c2n cell side.1 ∈ tri.nodeList cell)
    (hsecond : tri.c2n cell side.2 ∈ tri.nodeList cell)
    (howned : node.Owned (tri.c2n cell side.1).toNat)
    (hrun : sideQua faceids node tri up cell qua side = .ok qua') :
    (others tri cell (tri.c2n cell side.1) (tri.c2n cell side.2)).length ≤ 1 ∧
      (others tri cell (tri.c2n cell side.1) (tri.c2n cell side.2) = [] →
        ∃ quad, qua.withBoth (tri.c2n cell side.1) (tri.c2n cell side.2) = [quad]) ∧
      match sideId faceids tri qua cell (tri.c2n cell side.1) (tri.c2n cell side.2) with
      | none => qua' = qua
      | some id =>
          addRow qua (sideRow up (tri.c2n cell side.1) (tri.c2n cell side.2) id) = .ok qua' := by
  rw [sideQua] at hrun
  simp only [howned, true_or, if_true, bind_eq_ok] at hrun
  obtain ⟨tris, htris, hrun⟩ := hrun
  rw [sideId]
  rcases tris_on_side htri hlive hnodup hfirst hsecond htris with
    ⟨rfl, hothers⟩ | ⟨other, htwo, hne, hothers⟩
  · rw [hothers]
    simp only [bind_eq_ok] at hrun
    obtain ⟨quads, hquads, hrun⟩ := hrun
    split at hrun
    · rename_i quad
      have hone := RefCell.withBoth_of_listWith2 hqua hquads
      refine ⟨by simp, fun _ => ⟨quad, hone⟩, ?_⟩
      rw [hone]
      exact hrun
    · cases hrun
  · rw [hothers]
    refine ⟨by simp, by simp, ?_⟩
    by_cases hother : listed faceids tri other = true
    · rcases htwo with rfl | rfl
      · simpa [hlisted, hother, eq_comm] using hrun
      · simpa [hlisted, hother, eq_comm] using hrun
    · rcases htwo with rfl | rfl
      · simpa [hlisted, hother] using hrun
      · simpa [hlisted, hother] using hrun

end Sides

/-- The listed triangles with each of their sides. -/
def sides (faceids : RefDict) (tri : RefCell) : List (Nat × Nat × Nat) :=
  (listedCells faceids tri).product CellType.tri.e2n

/-- The row that is added for a side. -/
def newQua (faceids : RefDict) (tri qua : RefCell) (up : Int → Int) (s : Nat × Nat × Nat) :
    Option (List Int) :=
  (sideId faceids tri qua s.1 (tri.c2n s.1 s.2.1) (tri.c2n s.1 s.2.2)).map
    (sideRow up (tri.c2n s.1 s.2.1) (tri.c2n s.1 s.2.2))

/-- A node of a listed triangle. -/
def Corner (faceids : RefDict) (tri : RefCell) (v : Int) : Prop :=
  ∃ c ∈ listedCells faceids tri, v ∈ tri.nodeList c

/-- Across a side is one other triangle, or one quadrilateral. -/
structure SideMet (tri qua : RefCell) (s : Nat × Nat × Nat) : Prop where
  few : (others tri s.1 (tri.c2n s.1 s.2.1) (tri.c2n s.1 s.2.2)).length ≤ 1
  one : others tri s.1 (tri.c2n s.1 s.2.1) (tri.c2n s.1 s.2.2) = [] →
    ∃ quad, qua.withBoth (tri.c2n s.1 s.2.1) (tri.c2n s.1 s.2.2) = [quad]

/-- What the loops over the triangles start from. -/
structure Base (faceids : RefDict) (node : RefNode D) (tri : RefCell) (up : Int → Int) : Prop where
  inv : tri.CellInv
  type : tri.cellType = .tri
  owned : ∀ v, Corner faceids tri v → node.Owned v.toNat
  apart : ∀ v w, Corner faceids tri v → Corner faceids tri w → up v ≠ w

section Loop

variable {faceids : RefDict} {node : RefNode D} {tri qua qua' : RefCell} {up : Int → Int}
  {cell : Nat}

theorem mem_listedCells :
    cell ∈ listedCells faceids tri ↔ tri.Live cell ∧ listed faceids tri cell = true := by
  rw [listedCells, List.mem_filter, RefCell.mem_validCells]

theorem nodup_listedCells : (listedCells faceids tri).Nodup := tri.nodup_validCells.filter _

theorem mem_sides {side : Nat × Nat} : (cell, side) ∈ sides faceids tri ↔
    cell ∈ listedCells faceids tri ∧ side ∈ CellType.tri.e2n := List.pair_mem_product

theorem nodup_sides : (sides faceids tri).Nodup := nodup_listedCells.product (by decide)

theorem nodeList_tri (h : tri.cellType = .tri) (cell : Nat) :
    tri.nodeList cell = [tri.c2n cell 0, tri.c2n cell 1, tri.c2n cell 2] := by
  rw [RefCell.nodeList, RefCell.nodePer, h]
  rfl

theorem sideQuas_eq (faceids : RefDict) (node : RefNode D) (tri : RefCell) (up : Int → Int)
    (qua : RefCell) : sideQuas faceids node tri up qua =
      (sides faceids tri).foldlM (fun qua s => sideQua faceids node tri up s.1 qua s.2) qua := by
  rw [sides, List.product, foldlM_flatMap, listedCells, List.foldlM_filter, sideQuas]
  simp only [List.foldlM_map]
  rfl

/-- The nodes of a side are nodes of the triangle. -/
theorem side_mem (h : tri.cellType = .tri) (cell : Nat) {side : Nat × Nat} (hside : side ∈ CellType.tri.e2n) :
    tri.c2n cell side.1 ∈ tri.nodeList cell ∧ tri.c2n cell side.2 ∈ tri.nodeList cell := by
  rw [nodeList_tri h]
  simp only [CellType.e2n, List.mem_cons, List.not_mem_nil, or_false] at hside
  rcases hside with rfl | rfl | rfl <;> simp

/-- **Listed triangles do not repeat nodes**, or the loop fails. -/
theorem Base.nodup (h : Base faceids node tri up)
    (hrun : sideQuas faceids node tri up qua = .ok qua') (hcell : cell ∈ listedCells faceids tri) :
    (tri.nodeList cell).Nodup := by
  rw [sideQuas_eq] at hrun
  have hne : ∀ side ∈ CellType.tri.e2n, tri.c2n cell side.1 ≠ tri.c2n cell side.2 := by
    intro side hside heq
    obtain ⟨q, q', hstep⟩ := exists_of_foldlM_ok (mem_sides.mpr ⟨hcell, hside⟩) hrun
    have howned := h.owned _ ⟨cell, hcell, (side_mem h.type cell hside).1⟩
    rw [sideQua] at hstep
    simp only [howned, true_or, if_true, bind_eq_ok] at hstep
    obtain ⟨tris, htris, _⟩ := hstep
    rw [← heq] at htris
    have hcount := RefCell.count_lt_two_of_listWith2 h.inv (mem_listedCells.mp hcell).1 htris
    rw [nodeList_tri h.type] at hcount
    simp only [CellType.e2n, List.mem_cons, List.not_mem_nil, or_false] at hside
    rcases hside with rfl | rfl | rfl <;>
      simp only [heq, List.count_cons, beq_self_eq_true, if_true] at hcount <;> omega
  have h01 := hne (0, 1) (by decide)
  have h12 := hne (1, 2) (by decide)
  have h20 := hne (2, 0) (by decide)
  rw [nodeList_tri h.type]
  simp [h01, h12, Ne.symm h20]

/-- Two sides of a triangle with the same nodes are the same side. -/
theorem side_unique (h : tri.cellType = .tri) (hnodup : (tri.nodeList cell).Nodup)
    {side side' : Nat × Nat} (hside : side ∈ CellType.tri.e2n) (hside' : side' ∈ CellType.tri.e2n)
    (hfirst : tri.c2n cell side.1 = tri.c2n cell side'.1 ∨
      tri.c2n cell side.1 = tri.c2n cell side'.2)
    (hsecond : tri.c2n cell side.2 = tri.c2n cell side'.1 ∨
      tri.c2n cell side.2 = tri.c2n cell side'.2) : side = side' := by
  rw [nodeList_tri h] at hnodup
  simp only [List.nodup_cons, List.mem_cons, List.not_mem_nil, or_false, not_or,
    not_false_iff, List.nodup_nil, and_true] at hnodup
  obtain ⟨⟨h01, h02⟩, h12⟩ := hnodup
  simp only [CellType.e2n, List.mem_cons, List.not_mem_nil, or_false] at hside hside'
  rcases hside with rfl | rfl | rfl <;> rcases hside' with rfl | rfl | rfl <;>
    simp_all [Ne.symm h01, Ne.symm h02, Ne.symm h12]

/-- The row of a new quadrilateral. -/
theorem newQua_eq_some {s : Nat × Nat × Nat} {row : List Int}
    (hrow : newQua faceids tri qua up s = some row) :
    ∃ id, row = sideRow up (tri.c2n s.1 s.2.1) (tri.c2n s.1 s.2.2) id := by
  obtain ⟨id, _, hid⟩ := Option.map_eq_some_iff.mp hrow
  exact ⟨id, hid.symm⟩

/-- The quadrilaterals after the sides in `done`. -/
structure SidesAdded (faceids : RefDict) (tri qua : RefCell) (up : Int → Int)
    (done : List (Nat × Nat × Nat)) (qua' : RefCell) : Prop where
  added : RefCell.Replaced qua qua' [] (done.filterMap (newQua faceids tri qua up))
  met : ∀ s ∈ done, SideMet tri qua s

/-- **One side**: the lookup among the quadrilaterals does not see the new ones. -/
theorem SidesAdded.step (hbase : Base faceids node tri up) (hquaType : qua.cellType = .qua)
    (hnodup : ∀ c ∈ listedCells faceids tri, (tri.nodeList c).Nodup)
    {done rest : List (Nat × Nat × Nat)} {s : Nat × Nat × Nat} {q q' : RefCell}
    (hsplit : done ++ s :: rest = sides faceids tri) (h : SidesAdded faceids tri qua up done q)
    (hrun : sideQua faceids node tri up s.1 q s.2 = .ok q') :
    SidesAdded faceids tri qua up (done ++ [s]) q' := by
  obtain ⟨cell, side⟩ := s
  have hmem : ∀ s' ∈ done, s' ∈ sides faceids tri := by
    intro s' hs'
    rw [← hsplit]
    exact List.mem_append_left _ hs'
  have hin : (cell, side) ∈ sides faceids tri := by
    rw [← hsplit]
    simp
  obtain ⟨hcell, hside⟩ := mem_sides.mp hin
  obtain ⟨hlive, hlisted⟩ := mem_listedCells.mp hcell
  obtain ⟨hfirst, hsecond⟩ := side_mem hbase.type cell hside
  obtain ⟨hfew, hone, hadd⟩ := sideQua_spec hbase.inv h.added.inv hlive (hnodup cell hcell) hlisted
    hfirst hsecond (hbase.owned _ ⟨cell, hcell, hfirst⟩) hrun
  set a := tri.c2n cell side.1 with ha
  set b := tri.c2n cell side.2 with hb
  -- a new row with both nodes would be that of the same side
  have hfresh : others tri cell a b = [] → ∀ row ∈ done.filterMap (newQua faceids tri qua up),
      ¬ (a ∈ row.take qua.nodePer ∧ b ∈ row.take qua.nodePer) := by
    intro hnone row hrow hboth
    obtain ⟨⟨cell', side'⟩, hdone, hrow⟩ := List.mem_filterMap.mp hrow
    obtain ⟨id, rfl⟩ := newQua_eq_some hrow
    obtain ⟨hcell', hside'⟩ := mem_sides.mp (hmem _ hdone)
    obtain ⟨hfirst', hsecond'⟩ := side_mem hbase.type cell' hside'
    have hper : qua.nodePer = 4 := by rw [RefCell.nodePer, hquaType]; rfl
    have hends : ∀ x, Corner faceids tri x →
        x ∈ (sideRow up (tri.c2n cell' side'.1) (tri.c2n cell' side'.2) id).take 4 →
        x = tri.c2n cell' side'.1 ∨ x = tri.c2n cell' side'.2 := by
      intro x hx hin
      have hne1 := hbase.apart _ x ⟨cell', hcell', hfirst'⟩ hx
      have hne2 := hbase.apart _ x ⟨cell', hcell', hsecond'⟩ hx
      simpa [sideRow, Ne.symm hne1, Ne.symm hne2] using hin
    rw [hper] at hboth
    have haa := hends a ⟨cell, hcell, hfirst⟩ hboth.1
    have hbb := hends b ⟨cell, hcell, hsecond⟩ hboth.2
    have hin' : cell' ∈ tri.withBoth a b := by
      refine RefCell.mem_withBoth.mpr ⟨(mem_listedCells.mp hcell').1, ?_, ?_⟩
      · rcases haa with heq | heq <;> rw [heq] <;> assumption
      · rcases hbb with heq | heq <;> rw [heq] <;> assumption
    have hsame : cell' = cell := by
      by_contra hne
      have hother : cell' ∈ others tri cell a b := List.mem_filter.mpr ⟨hin', by simpa using hne⟩
      rw [hnone] at hother
      cases hother
    subst hsame
    obtain rfl := side_unique hbase.type (hnodup cell' hcell) hside hside' haa hbb
    have hn : (done ++ (cell', side) :: rest).Nodup := by
      rw [hsplit]
      exact nodup_sides
    exact List.disjoint_of_nodup_append hn hdone List.mem_cons_self
  have hid : sideId faceids tri q cell a b = sideId faceids tri qua cell a b := by
    rw [sideId, sideId]
    cases hothers : others tri cell a b with
    | nil =>
        obtain ⟨quad, hquad⟩ := hone hothers
        obtain ⟨hold, hrow⟩ := h.added.withBoth (hfresh hothers) hquad
        simp [hquad, hold, hrow]
    | cons other rest => rfl
  refine ⟨?_, fun s' hs' => ?_⟩
  · rw [hid] at hadd
    have hnew : newQua faceids tri qua up (cell, side) =
        (sideId faceids tri qua cell a b).map (sideRow up a b) := rfl
    rw [List.filterMap_append, List.filterMap_cons, List.filterMap_nil, hnew]
    cases hcase : sideId faceids tri qua cell a b with
    | none =>
        rw [hcase] at hadd
        rw [hadd]
        simpa using h.added
    | some id =>
        rw [hcase] at hadd
        simp only [addRow, bind_eq_ok, Except.ok.injEq] at hadd
        obtain ⟨⟨s', new⟩, hadd, rfl⟩ := hadd
        have hsize : (sideRow up a b id).length = qua.sizePer := by
          rw [RefCell.sizePer, hquaType]
          rfl
        have hadded := h.added.addRow hsize hadd
        rw [Multiset.cons_coe] at hadded
        simp only [Option.map_some]
        rw [Multiset.coe_eq_coe.mpr (List.perm_append_singleton _ _)]
        exact hadded
  · rcases List.mem_append.mp hs' with hs' | hs'
    · exact h.met s' hs'
    · rw [List.mem_singleton.mp hs']
      refine ⟨hfew, fun hothers => ?_⟩
      obtain ⟨quad, hquad⟩ := hone hothers
      exact ⟨quad, (h.added.withBoth (hfresh hothers) hquad).1⟩

/-- **The loop over the sides of the listed triangles.** -/
theorem sideQuas_spec (hbase : Base faceids node tri up) (hqua : qua.CellInv)
    (hquaType : qua.cellType = .qua) (hrun : sideQuas faceids node tri up qua = .ok qua') :
    SidesAdded faceids tri qua up (sides faceids tri) qua' := by
  have hnodup : ∀ c ∈ listedCells faceids tri, (tri.nodeList c).Nodup :=
    fun c hc => hbase.nodup hrun hc
  rw [sideQuas_eq] at hrun
  have hloop := foldlM_inv
    (fun done rest q => done ++ rest = sides faceids tri ∧ SidesAdded faceids tri qua up done q)
    (fun done s rest q q' hP hstep =>
      ⟨by simpa using hP.1, hP.2.step hbase hquaType hnodup hP.1 hstep⟩)
    ⟨List.nil_append _, RefCell.Replaced.refl hqua, fun s hs => absurd hs List.not_mem_nil⟩ hrun
  exact hloop.2

end Loop

/-! ## Prisms and moved triangles -/

section Layer

variable {faceids : RefDict} {node : RefNode D} {tri : RefCell} {up : Int → Int}

/-- **The loop that adds the prisms.** -/
theorem prisms_spec {geometry : Geometry D} {pri : RefCell} {problem : Bool}
    {built : RefCell × Bool} (hinv : pri.CellInv) (htype : pri.cellType = .pri)
    (hrun : prisms geometry faceids node tri up pri problem = .ok built) :
    RefCell.Replaced pri built.1 []
      ((listedCells faceids tri).map fun c => priRow up (tri.c2n c)) := by
  rw [prisms] at hrun
  have hloop : (listedCells faceids tri).foldlM (fun acc cell => do
      let row := priRow up (tri.c2n cell)
      let positive ← geometry.priMinDot node fun i => row.getD i 0
      let pri ← addRow acc.1 row
      .ok (pri, acc.2 || !positive)) (pri, problem) = .ok built := by
    rw [listedCells, List.foldlM_filter]
    exact hrun
  refine foldlM_inv (fun done _ acc => RefCell.Replaced pri acc.1 []
    (done.map fun c => priRow up (tri.c2n c))) ?_ (RefCell.Replaced.refl hinv) hloop
  intro done cell rest acc acc' hP hstep
  simp only [bind_eq_ok, addRow, Except.ok.injEq] at hstep
  obtain ⟨_, _, _, ⟨⟨s', new⟩, hadd, rfl⟩, rfl⟩ := hstep
  have hsize : (priRow up (tri.c2n cell)).length = pri.sizePer := by
    rw [RefCell.sizePer, htype]
    rfl
  have hadded := hP.addRow hsize hadd
  rw [Multiset.cons_coe] at hadded
  rw [List.map_append, List.map_singleton, Multiset.coe_eq_coe.mpr (List.perm_append_singleton _ _)]
  exact hadded

/-- The triangles after those in `done`: the listed ones are on the new nodes. -/
structure TrisMoved (faceids : RefDict) (tri : RefCell) (up : Int → Int) (done : List Nat)
    (tri' : RefCell) : Prop where
  inv : tri'.CellInv
  type : tri'.cellType = tri.cellType
  live : ∀ c, tri'.Live c ↔ tri.Live c
  onTop : ∀ c ∈ done, listed faceids tri c = true → ∀ i, i < 4 →
    tri'.c2n c i = moved up (tri.c2n c) i
  kept : ∀ c, ¬ (c ∈ done ∧ listed faceids tri c = true) → tri'.c2n c = tri.c2n c

theorem TrisMoved.step (htype : tri.cellType = .tri) {done : List Nat} {cell : Nat}
    (hnew : cell ∉ done) {tri' tri'' : RefCell} (h : TrisMoved faceids tri up done tri')
    (hrun : (if listed faceids tri' cell then
        tri'.replaceWhole cell (moved up (tri'.c2n cell)) else .ok tri') = .ok tri'') :
    TrisMoved faceids tri up (done ++ [cell]) tri'' := by
  have hrow : tri'.c2n cell = tri.c2n cell := h.kept cell fun hc => hnew hc.1
  have hsame : listed faceids tri' cell = listed faceids tri cell := by
    rw [listed, listed, hrow]
  rw [hsame, hrow] at hrun
  by_cases hlisted : listed faceids tri cell = true
  · rw [if_pos hlisted] at hrun
    obtain ⟨_, hinv, hlive, hself, hother, htype', _⟩ := RefCell.replaceWhole_spec h.inv hrun
    have hsize : tri'.sizePer = 4 := by
      rw [RefCell.sizePer, h.type, htype]
      rfl
    refine ⟨hinv, htype'.trans h.type, fun c => (hlive c).trans (h.live c), ?_, ?_⟩
    · intro c hc hcl i hi
      by_cases heq : c = cell
      · rw [heq]
        exact hself i (by omega)
      · rw [hother c heq]
        have hc' : c ∈ done := by simpa [heq] using hc
        exact h.onTop c hc' hcl i hi
    · intro c hc
      have hne : c ≠ cell := by
        rintro rfl
        exact hc ⟨by simp, hlisted⟩
      rw [hother c hne]
      exact h.kept c fun hcd => hc ⟨List.mem_append_left _ hcd.1, hcd.2⟩
  · rw [if_neg hlisted, Except.ok.injEq] at hrun
    subst hrun
    refine ⟨h.inv, h.type, h.live, ?_, ?_⟩
    · intro c hc hcl i hi
      have hne : c ≠ cell := by
        rintro rfl
        exact hlisted hcl
      have hc' : c ∈ done := by simpa [hne] using hc
      exact h.onTop c hc' hcl i hi
    · intro c hc
      exact h.kept c fun hcd => hc ⟨List.mem_append_left _ hcd.1, hcd.2⟩

/-- **The loop that moves the listed triangles.** -/
theorem moveTris_spec {tri' : RefCell} (hinv : tri.CellInv) (htype : tri.cellType = .tri)
    (hrun : moveTris faceids up tri = .ok tri') :
    TrisMoved faceids tri up tri.validCells tri' := by
  have hloop := foldlM_inv
    (fun done rest t => done ++ rest = tri.validCells ∧ TrisMoved faceids tri up done t)
    (fun done cell rest t t' hP hstep => by
      obtain ⟨hsplit, hP⟩ := hP
      have hnodup : (done ++ cell :: rest).Nodup := by
        rw [hsplit]
        exact tri.nodup_validCells
      have hnew : cell ∉ done := fun hin =>
        List.disjoint_of_nodup_append hnodup hin List.mem_cons_self
      exact ⟨by simpa using hsplit, hP.step htype hnew hstep⟩)
    ⟨List.nil_append _, hinv, rfl, fun _ => Iff.rfl, fun c hc => absurd hc List.not_mem_nil,
      fun _ _ => rfl⟩ hrun
  exact hloop.2

end Layer

/-! ## The inflated grid -/

/-- What `ref_inflate_face` leaves: a new node `up v` for each node `v` of a
listed triangle, a prism for each listed triangle, a quadrilateral for each side
with an unlisted neighbor, and the listed triangles on the new nodes.  Every
other node and cell is as it was. -/
structure Inflated (faceids : RefDict) (g g' : RefGrid D) (up : Int → Int) : Prop where
  fresh : ∀ v, Corner faceids (g.cell .tri) v → ∃ k : Nat, up v = k ∧ ¬ g.node.Live k
  once : ∀ v w, Corner faceids (g.cell .tri) v → Corner faceids (g.cell .tri) w →
    up v = up w → v = w
  live : ∀ k : Nat, g'.node.Live k ↔
    g.node.Live k ∨ ∃ v, Corner faceids (g.cell .tri) v ∧ up v = k
  keeps : KeepsNodes g.node g'.node
  nodup : ∀ c ∈ listedCells faceids (g.cell .tri), ((g.cell .tri).nodeList c).Nodup
  tri : TrisMoved faceids (g.cell .tri) up (g.cell .tri).validCells (g'.cell .tri)
  pri : RefCell.Replaced (g.cell .pri) (g'.cell .pri) []
    ((listedCells faceids (g.cell .tri)).map fun c => priRow up ((g.cell .tri).c2n c))
  qua : SidesAdded faceids (g.cell .tri) (g.cell .qua) up (sides faceids (g.cell .tri))
    (g'.cell .qua)
  others : ∀ t, t ≠ .tri → t ≠ .qua → t ≠ .pri → g'.cell t = g.cell t
  geom : g'.geom = g.geom

section Grid

variable {faceids : RefDict} {g g' : RefGrid D}

/-- The nodes of the listed triangles as slots and as entries. -/
theorem mem_listedNodes (hcells : g.CellsInv) {v : Nat} :
    v ∈ listedNodes faceids (g.cell .tri) ↔ Corner faceids (g.cell .tri) v := by
  have hpos : ∀ c ∈ listedCells faceids (g.cell .tri), ∀ x ∈ (g.cell .tri).nodeList c, 0 ≤ x :=
    fun c hc x hx => (hcells.inv .tri).nonneg c (mem_listedCells.mp hc).1 x hx
  simp only [listedNodes, List.mem_flatMap, Corner]
  refine exists_congr fun c => and_congr_right fun hc => ?_
  have hper : (g.cell .tri).nodePer = 3 := by rw [RefCell.nodePer, hcells.type]; rfl
  simp only [List.mem_map, List.mem_range, RefCell.mem_nodeList, hper]
  refine exists_congr fun i => and_congr_right fun hi => ?_
  have hnonneg := hpos c hc _ ((g.cell .tri).c2n_mem_nodeList c (i := i) (by omega))
  omega

/-- A node of a listed triangle is a slot. -/
theorem Corner.natCast (hcells : g.CellsInv) {v : Int} (h : Corner faceids (g.cell .tri) v) :
    (v.toNat : Int) = v := by
  obtain ⟨c, hc, hv⟩ := h
  exact Int.toNat_of_nonneg ((hcells.inv .tri).nonneg c (mem_listedCells.mp hc).1 v hv)

/-- **`ref_inflate_face` on one rank.** -/
theorem inflateFace_spec [RefDbl D] {mem : Memory D} {geometry : Geometry D} {out : List Int}
    (hcells : g.CellsInv) (hinv : g.node.Inv) (hrank : g.node.rank = 0)
    (howned : ∀ k, g.node.Live k → g.node.Owned k)
    (halloc : Ledger.AllocInv ⟨g.node, out⟩) (hcounter : g.node.newNGlobal ≠ refEmpty)
    (hlive : ∀ v, Corner faceids (g.cell .tri) v → g.node.Live v.toNat)
    (hrun : (inflateFace 1 mem geometry faceids g).alone = some g') :
    ∃ up, Inflated faceids g g' up := by
  have hnodes : ∀ v ∈ listedNodes faceids (g.cell .tri), g.node.Live v ∧ g.node.Owned v := by
    intro v hv
    have hlv := hlive v ((mem_listedNodes hcells).mp hv)
    rw [Int.toNat_natCast] at hlv
    exact ⟨hlv, howned v hlv⟩
  obtain ⟨node, o2n, problem, hmade, hrun⟩ :=
    inflateFace_alone hinv hrank halloc hcounter hnodes hrun
  have hin : ∀ v, Corner faceids (g.cell .tri) v →
      v.toNat ∈ listedNodes faceids (g.cell .tri) := by
    intro v hv
    rw [mem_listedNodes hcells, hv.natCast hcells]
    exact hv
  have hfresh : ∀ v, Corner faceids (g.cell .tri) v →
      ∃ k : Nat, above o2n v = k ∧ ¬ g.node.Live k := by
    intro v hv
    obtain ⟨k, hk, hdead, _⟩ := hmade.made _ (hin v hv)
    exact ⟨k, hk, hdead⟩
  have hbase : Base faceids node (g.cell .tri) (above o2n) := by
    refine ⟨hcells.inv .tri, hcells.type .tri, fun v hv => ?_, fun v w hv hw heq => ?_⟩
    · rw [RefNode.Owned, hmade.rank, hmade.keeps.part _ (hlive v hv)]
      exact howned _ (hlive v hv)
    · obtain ⟨k, hk, hdead⟩ := hfresh v hv
      have hslot : w.toNat = k := by omega
      exact hdead (hslot ▸ hlive w hw)
  simp only [inflateCells, bind_eq_ok] at hrun
  obtain ⟨qua, hqua, built, hbuilt, tri, htri, hrun⟩ := hrun
  split at hrun
  · cases hrun
  obtain rfl := Except.ok.inj hrun
  refine ⟨above o2n, hfresh, ?_, ?_, hmade.keeps, fun c hc => hbase.nodup hqua hc, ?_, ?_, ?_, ?_,
    rfl⟩
  · intro v w hv hw heq
    have hsame := hmade.once _ (hin v hv) _ (hin w hw) heq
    rw [← hv.natCast hcells, ← hw.natCast hcells, hsame]
  · intro k
    refine (hmade.live k).trans (or_congr_right ?_)
    constructor
    · rintro ⟨v, hv, hk⟩
      exact ⟨v, (mem_listedNodes hcells).mp hv, hk⟩
    · rintro ⟨v, hv, hk⟩
      exact ⟨v.toNat, hin v hv, hk⟩
  · have hspec := moveTris_spec (hcells.inv .tri) (hcells.type .tri) htri
    simpa using hspec
  · have hspec := prisms_spec (hcells.inv .pri) (hcells.type .pri) hbuilt
    simpa [RefGrid.setCell_cell_of_ne] using hspec
  · have hspec := sideQuas_spec hbase (hcells.inv .qua) (hcells.type .qua) hqua
    simpa [RefGrid.setCell_cell_of_ne] using hspec
  · intro t ht hq hp
    rw [RefGrid.setCell_cell_of_ne _ _ ht, RefGrid.setCell_cell_of_ne _ _ hp,
      RefGrid.setCell_cell_of_ne _ _ hq]

end Grid

end RefInflate

end RefineMesh
