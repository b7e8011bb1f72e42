import Mathlib.Tactic
import RefineMesh.CellGlobal
import RefineMesh.EdgeGhost
import RefineMesh.MarkClosure

/-!
# Distributed grids

The grids of all ranks as the parts of one mesh: a node has one part on all
ranks, and a cell is held by every rank that owns one of its nodes.  The edges
of such grids satisfy what the exchanges of `ref_edge.c` need.
-/

namespace RefineMesh

open MarkClosure

variable {D : Type}

/-- Grids of `p` ranks in which every cell is held by every rank that owns one
of its nodes. -/
structure GridDistributed (p : Nat) (grid : Nat → RefGrid D) : Prop
    extends Partitioned p fun r => (grid r).node where
  cells : ∀ r, r < p → (grid r).CellsInv
  nodes : ∀ r, r < p → ∀ t c, ((grid r).cell t).Live c → ∀ l, l < t.nodePer →
    0 ≤ ((grid r).cell t).c2n c l ∧ (grid r).node.Live (((grid r).cell t).c2n c l).toNat
  parts_lt : ∀ r, r < p → ∀ t c, ((grid r).cell t).Live c → ∀ l, l < t.nodePer →
    (grid r).node.part (((grid r).cell t).c2n c l).toNat < p
  held : ∀ r, r < p → ∀ t c, ((grid r).cell t).Live c → ∀ l, l < t.nodePer →
    ∃ c', ((grid ((grid r).node.part (((grid r).cell t).c2n c l).toNat)).cell t).Live c' ∧
      ∀ m, m < t.nodePer →
        ((grid ((grid r).node.part (((grid r).cell t).c2n c l).toNat)).cell t).nodeGlobal
          (grid ((grid r).node.part (((grid r).cell t).c2n c l).toNat)).node c' m =
        ((grid r).cell t).nodeGlobal (grid r).node c m

theorem CellType.e2n_lt (t : CellType) :
    ∀ e ∈ t.e2n, e.1 < t.nodePer ∧ e.2 < t.nodePer ∧ e.1 ≠ e.2 := by
  cases t <;> decide

namespace RefEdge

/-- The edges of a rank by the globals of their ends. -/
def keys (s : RefEdge) (refNode : RefNode D) : Set (Sym2 Int) :=
  {k | ∃ e, e < s.n ∧ s.key refNode e = k}

/-- The edges that the rank owns. -/
def ownedKeys (s : RefEdge) (refNode : RefNode D) : Set (Sym2 Int) :=
  {k | ∃ e, e < s.n ∧ s.edgePart refNode e = refNode.rank ∧ s.key refNode e = k}

/-- An edge between two nodes by their globals. -/
theorem key_of_joins {s : RefEdge} {refNode : RefNode D} {e : Nat} {a b : Int}
    (h : s.Joins e a b) :
    s.key refNode e = s(refNode.global a.toNat, refNode.global b.toNat) := by
  rcases h with ⟨h0, h1⟩ | ⟨h0, h1⟩
  · rw [key, endGlobal, endGlobal, h0, h1]
  · rw [key, endGlobal, endGlobal, h0, h1, Sym2.eq_swap]

/-- An edge has the part of the end with the smaller global. -/
theorem edgePart_of_joins {s : RefEdge} {refNode : RefNode D} {e : Nat} {a b : Int}
    (h : s.Joins e a b) (hlt : refNode.global a.toNat < refNode.global b.toNat) :
    s.edgePart refNode e = refNode.part a.toNat := by
  unfold edgePart endGlobal
  rcases h with ⟨h0, h1⟩ | ⟨h0, h1⟩
  · rw [h0, h1, if_pos hlt]
  · rw [h0, h1, if_neg hlt.not_gt]

/-- One of the ends gives the part. -/
theorem edgePart_eq_or {s : RefEdge} (refNode : RefNode D) {e : Nat} {a b : Int}
    (h : s.Joins e a b) :
    s.edgePart refNode e = refNode.part a.toNat ∨ s.edgePart refNode e = refNode.part b.toNat := by
  unfold edgePart
  unfold Joins at h
  split <;> grind

end RefEdge

section Edges

variable {p : Nat} {grid : Nat → RefGrid D} {edge : Nat → RefEdge}

theorem GridDistributed.nodePer_eq (h : GridDistributed p grid) {r : Nat} (hr : r < p)
    (t : CellType) : ((grid r).cell t).nodePer = t.nodePer := by
  rw [RefCell.nodePer, (h.cells r hr).type]

/-- The cells behind an edge. -/
theorem exists_cell_of_gridEdges {g : RefGrid D} (hinv : g.CellsInv) {a b : Int}
    (hin : (a, b) ∈ RefEdge.gridEdges g) :
    ∃ t ∈ types3d ++ types2d, ∃ c, (g.cell t).Live c ∧ ∃ e ∈ t.e2n,
      (g.cell t).c2n c e.1 = a ∧ (g.cell t).c2n c e.2 = b := by
  obtain ⟨t, ht, hpair⟩ := List.mem_flatMap.mp hin
  obtain ⟨c, hlive, e, he, h1, h2⟩ := RefEdge.mem_cellEdges.mp hpair
  rw [hinv.type] at he
  exact ⟨t, ht, c, hlive, e, he, h1, h2⟩

/-- The edges of distributed grids are distributed. -/
theorem GridDistributed.edges (h : GridDistributed p grid)
    (hcov : ∀ r, r < p → (edge r).Covers (RefEdge.gridEdges (grid r))) :
    EdgesDistributed p (fun r => (grid r).node) edge := by
  have hcell : ∀ r, r < p → ∀ e, e < (edge r).n → ∃ t ∈ types3d ++ types2d, ∃ c,
      ((grid r).cell t).Live c ∧ ∃ i ∈ t.e2n,
        (edge r).Joins e (((grid r).cell t).c2n c i.1) (((grid r).cell t).c2n c i.2) := by
    intro r hr e he
    obtain ⟨⟨a, b⟩, hpair, hjoins⟩ := (hcov r hr).joins e he
    obtain ⟨t, ht, c, hlive, i, hi, rfl, rfl⟩ := exists_cell_of_gridEdges (h.cells r hr) hpair
    exact ⟨t, ht, c, hlive, i, hi, hjoins⟩
  refine { h.toPartitioned with edges := fun r hr => (hcov r hr).inv, ends := ?_, owner := ?_ }
  · intro r hr e he l hl
    obtain ⟨t, _, c, hlive, i, hi, hjoins⟩ := hcell r hr e he
    obtain ⟨hi1, hi2, _⟩ := t.e2n_lt i hi
    have h1 := h.nodes r hr t c hlive i.1 hi1
    have h2 := h.nodes r hr t c hlive i.2 hi2
    interval_cases l <;> rcases hjoins with ⟨e1, e2⟩ | ⟨e1, e2⟩ <;> simp only [e1, e2, h1, h2,
      and_self]
  · intro r hr e he
    obtain ⟨t, ht, c, hlive, i, hi, hjoins⟩ := hcell r hr e he
    obtain ⟨hi1, hi2, _⟩ := t.e2n_lt i hi
    obtain ⟨l, hl, hpart⟩ : ∃ l, l < t.nodePer ∧ (edge r).edgePart (grid r).node e =
        (grid r).node.part (((grid r).cell t).c2n c l).toNat := by
      rcases RefEdge.edgePart_eq_or (grid r).node hjoins with hp | hp
      · exact ⟨i.1, hi1, hp⟩
      · exact ⟨i.2, hi2, hp⟩
    have hq := h.parts_lt r hr t c hlive l hl
    obtain ⟨c', hlive', hsame⟩ := h.held r hr t c hlive l hl
    rw [hpart]
    refine ⟨hq, ?_⟩
    -- the copy of the cell on the owner has the edge too
    have hin : ∀ q, q < p → ((grid q).cell t).Live c' →
        (((grid q).cell t).c2n c' i.1, ((grid q).cell t).c2n c' i.2) ∈
          RefEdge.gridEdges (grid q) := fun q hq hlive' =>
      RefEdge.mem_gridEdges ht (RefEdge.mem_cellEdges.mpr
        ⟨c', hlive', i, by rw [(h.cells q hq).type]; exact hi, rfl, rfl⟩)
    obtain ⟨e', he', hjoins'⟩ := (hcov _ hq).found _ (hin _ hq hlive')
    refine ⟨e', he', ?_⟩
    rw [RefEdge.key_of_joins hjoins, RefEdge.key_of_joins hjoins']
    exact congrArg₂ (fun a b => s(a, b)) (hsame i.1 hi1) (hsame i.2 hi2)

end Edges

/-! ## Tets -/

/-- The tets of a rank by the globals of their corners. -/
def tetKeys (g : RefGrid D) : Set (Finset Int) :=
  {T | ∃ c, (g.cell .tet).Live c ∧ (g.cell .tet).key g.node c = T}

section Tets

variable {p : Nat} {grid : Nat → RefGrid D} {edge : Nat → RefEdge}

theorem CellType.tet_e2n {i j : Nat} (hij : i < j) (hj : j < 4) : (i, j) ∈ CellType.tet.e2n := by
  have hi : i < 4 := hij.trans hj
  interval_cases j <;> interval_cases i <;> decide

/-- The edge between two corners of a tet. -/
theorem GridDistributed.exists_tetEdge (h : GridDistributed p grid)
    (hcov : ∀ r, r < p → (edge r).Covers (RefEdge.gridEdges (grid r))) {r c : Nat} (hr : r < p)
    (hlive : ((grid r).cell .tet).Live c) {i j : Nat} (hi : i < 4) (hj : j < 4) (hij : i ≠ j) :
    ∃ e, e < (edge r).n ∧
      (edge r).Joins e (((grid r).cell .tet).c2n c i) (((grid r).cell .tet).c2n c j) := by
  have hin : ∀ i j, i < j → j < 4 → ∃ e, e < (edge r).n ∧
      (edge r).Joins e (((grid r).cell .tet).c2n c i) (((grid r).cell .tet).c2n c j) := by
    intro i j hlt hj
    apply (hcov r hr).found (((grid r).cell .tet).c2n c i, ((grid r).cell .tet).c2n c j)
    apply RefEdge.mem_gridEdges (t := .tet) (by decide)
    refine RefEdge.mem_cellEdges.mpr ⟨c, hlive, (i, j), ?_, rfl, rfl⟩
    rw [(h.cells r hr).type]
    exact CellType.tet_e2n hlt hj
  rcases lt_or_gt_of_ne hij with hlt | hlt
  · exact hin i j hlt hj
  · obtain ⟨e, he, hjoins⟩ := hin j i hlt hi
    exact ⟨e, he, hjoins.symm⟩

/-- The corners of a tet are corners of its copies. -/
theorem GridDistributed.mem_key (h : GridDistributed p grid) {r c : Nat} (hr : r < p) {a : Int} :
    a ∈ ((grid r).cell .tet).key (grid r).node c ↔
      ∃ i < 4, ((grid r).cell .tet).nodeGlobal (grid r).node c i = a := by
  rw [RefCell.mem_key, h.nodePer_eq hr]
  rfl

/-- The tets and edges of the ranks as the rounds of marking need them. -/
theorem GridDistributed.shared (h : GridDistributed p grid)
    (hcov : ∀ r, r < p → (edge r).Covers (RefEdge.gridEdges (grid r))) :
    Shared p (fun r => tetKeys (grid r)) (fun r => (edge r).keys (grid r).node)
      fun r => (edge r).ownedKeys (grid r).node := by
  have hedges := h.edges hcov
  constructor
  · rintro r hr T ⟨c, hlive, rfl⟩ a ha b hb hab
    obtain ⟨i, hi, rfl⟩ := (h.mem_key hr).mp ha
    obtain ⟨j, hj, rfl⟩ := (h.mem_key hr).mp hb
    have hij : i ≠ j := fun e => hab (e ▸ rfl)
    obtain ⟨e, he, hjoins⟩ := h.exists_tetEdge hcov hr hlive hi hj hij
    exact ⟨e, he, RefEdge.key_of_joins hjoins⟩
  · rintro r _ k ⟨e, he, _, rfl⟩
    exact ⟨e, he, rfl⟩
  · rintro r hr k ⟨e, he, rfl⟩
    obtain ⟨hq, e', he', hkey⟩ := hedges.owner r hr e he
    refine ⟨_, hq, e', he', ?_, hkey⟩
    rw [h.rank _ hq]
    exact hedges.edgePart_eq hq hr he' he hkey
  · rintro r hr T ⟨c, hlive, rfl⟩ a ha
    obtain ⟨i, hi, rfl⟩ := (h.mem_key hr).mp ha
    have hq := h.parts_lt r hr .tet c hlive i hi
    obtain ⟨c', hlive', hsame⟩ := h.held r hr .tet c hlive i hi
    obtain ⟨q, hqdef⟩ : ∃ q, q = (grid r).node.part (((grid r).cell .tet).c2n c i).toNat :=
      ⟨_, rfl⟩
    rw [← hqdef] at hq hlive' hsame
    have hkey : ((grid q).cell .tet).key (grid q).node c' =
        ((grid r).cell .tet).key (grid r).node c := by
      ext b
      rw [h.mem_key hq, h.mem_key hr]
      constructor
      · rintro ⟨j, hj, rfl⟩
        exact ⟨j, hj, (hsame j hj).symm⟩
      · rintro ⟨j, hj, rfl⟩
        exact ⟨j, hj, hsame j hj⟩
    refine ⟨q, hq, ⟨c', hlive', hkey⟩, ?_⟩
    intro b hb hlt
    rw [← hkey] at hb
    obtain ⟨j, hj, rfl⟩ := (h.mem_key hq).mp hb
    rw [← hsame i hi] at hlt ⊢
    have hij : i ≠ j := by
      rintro rfl
      exact lt_irrefl _ hlt
    obtain ⟨e, he, hjoins⟩ := h.exists_tetEdge hcov hq hlive' hi hj hij
    refine ⟨e, he, ?_, RefEdge.key_of_joins hjoins⟩
    rw [RefEdge.edgePart_of_joins hjoins hlt, h.rank q hq]
    have hparts := h.parts q r hq hr _ _ (h.nodes q hq .tet c' hlive' i hi).2
      (h.nodes r hr .tet c hlive i hi).2 (hsame i hi)
    exact hparts.trans hqdef.symm

end Tets

end RefineMesh
