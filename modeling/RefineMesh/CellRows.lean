import Mathlib.Tactic
import RefineMesh.CellQuery

/-!
# Stores from rows

A store is filled by `ref_cell_add`, one row after the other.  Any list of rows
of the right length, with nodes in range, is the content of the store filled
with it, so a statement about all stores is never about none.
-/

namespace RefineMesh

open SlotList

namespace RefCell

/-- The store after the rows are added to an empty one; a row that
`ref_cell_add` refuses is left out. -/
def ofRows (t : CellType) (rows : List (List Int)) : RefCell :=
  rows.foldl (fun s row =>
    match s.add fun i => row.getD i 0 with
    | .ok (s, _) => s
    | .error _ => s) (create zeroMemory t)

/-- The rows fit into the first two sizes of the table. -/
def RowsFit (t : CellType) (rows : List (List Int)) : Prop :=
  rows.length ≤ 5100 ∧ ∀ row ∈ rows, row.length = t.sizePer ∧
    ∀ x ∈ row.take t.nodePer, 0 ≤ x ∧ x + 100 ≤ refIntMax

instance (t : CellType) (rows : List (List Int)) : Decidable (RowsFit t rows) :=
  inferInstanceAs (Decidable (_ ∧ _))

theorem CellInv.full {s : RefCell} (h : s.CellInv) (hblank : s.blank = refEmpty) :
    s.n = s.max := by
  have hall : ∀ c, c < s.max → s.Live c := by
    intro c hc
    by_contra hdead
    exact (h.blank.eq_stop_iff plainLink_ne_refEmpty).mp hblank c ⟨hc, hdead⟩
  rw [← h.count, SlotList.liveCount]
  have hfilter : (Finset.range s.max).filter s.Live = Finset.range s.max :=
    Finset.filter_true_of_mem fun c hc => hall c (Finset.mem_range.mp hc)
  simp [hfilter]

theorem sizePer_le (t : CellType) : t.sizePer ≤ 27 := by cases t <;> decide

/-- A state of the loop of `ofRows`. -/
structure Holds (t : CellType) (rows : List (List Int)) (s : RefCell) : Prop where
  inv : s.CellInv
  type : s.cellType = t
  cells : s.cells = rows
  count : s.n = rows.length
  size : s.max = 100 ∨ s.max = 5100
  stocked : s.adj.Stocked (rows.length * t.nodePer)

theorem Holds.grow {t : CellType} {rows : List (List Int)} {s : RefCell} (h : Holds t rows s)
    (hlen : rows.length < 5100) :
    ∃ s', s.grow = .ok s' ∧ (s'.max = 100 ∨ s'.max = 5100) := by
  by_cases hblank : s.blank = refEmpty
  · have hfull := h.inv.full hblank
    have hmax : s.max = 100 := by
      have := h.size
      have := h.count
      omega
    have hper : ¬ refIntMax < s.sizePer * 5100 := by
      have := sizePer_le s.cellType
      unfold sizePer refIntMax
      omega
    have hsize : 100 + Nat.min (Nat.max 5000 (3 * 100 / 2)) (refIntMax / 4 - 100) = 5100 := by decide
    simp only [RefCell.grow, hblank, hmax, ne_eq, not_true, if_false, hsize, hper]
    rw [if_neg (by decide), if_neg (by decide)]
    exact ⟨_, rfl, Or.inr rfl⟩
  · refine ⟨s, ?_, h.size⟩
    simp [RefCell.grow, hblank]

/-- After the growth `ref_cell_add` only takes items of the adjacency. -/
theorem add_ok {s s1 : RefCell} (nodes : Nat → Int) {used : Nat} (h : s.CellInv)
    (hgrow : s.grow = .ok s1) (hstock : s.adj.Stocked used) (hfit : used + s.nodePer ≤ refIntMax)
    (hnodes : ∀ i, i < s.nodePer → 0 ≤ nodes i ∧ nodes i + 100 ≤ refIntMax) :
    ∃ s' cell, s.add nodes = .ok (s', cell) ∧ s'.max = s1.max ∧
      s'.adj.Stocked (used + s.nodePer) := by
  obtain ⟨_, _, _, _, htype1, _, hadj1⟩ := grow_spec h hgrow
  have hper : s1.nodePer = s.nodePer := by rw [nodePer, nodePer, htype1]
  have hlen : ((List.range s1.nodePer).map nodes).length = s.nodePer := by simp [hper]
  obtain ⟨adj, hadj, hstocked⟩ := addAll_ok (c := s1.blank.toNat) (l := (List.range s1.nodePer).map nodes)
    (hadj1 ▸ hstock) (by rwa [hlen]) (by
      intro v hv
      obtain ⟨i, hi, rfl⟩ := List.mem_map.mp hv
      exact hnodes i (hper ▸ List.mem_range.mp hi))
  rw [List.foldlM_map] at hadj
  rw [hlen] at hstocked
  have hrun : ∃ s' cell, s.add nodes = .ok (s', cell) ∧ s'.adj = adj ∧ s'.max = s1.max := by
    simp only [RefCell.add, hgrow, bind_eq_ok, Except.ok.injEq, Prod.mk.injEq, exists_eq_left']
    exact ⟨_, _, ⟨adj, hadj, rfl, rfl⟩, rfl, rfl⟩
  obtain ⟨s', cell, hrun, hadj', hmax'⟩ := hrun
  exact ⟨s', cell, hrun, hmax', hadj' ▸ hstocked⟩

/-- The rows of a store after one more is added. -/
theorem cells_add {s s' : RefCell} {nodes : Nat → Int} {cell : Nat} (h : s.CellInv)
    (hrun : s.add nodes = .ok (s', cell)) :
    s'.cells = (List.range s.sizePer).map nodes ::ₘ s.cells := by
  have hcells := ((Replaced.refl h).add hrun).cells
  rw [List.map_nil, Multiset.coe_nil, add_zero] at hcells
  rw [hcells, Multiset.add_cons, add_zero]

theorem Holds.add {t : CellType} {rows : List (List Int)} {s : RefCell} (h : Holds t rows s)
    (hlen : rows.length < 5100) {row : List Int} (hrow : row.length = t.sizePer)
    (hnodes : ∀ x ∈ row.take t.nodePer, 0 ≤ x ∧ x + 100 ≤ refIntMax) :
    ∃ s' cell, s.add (fun i => row.getD i 0) = .ok (s', cell) ∧ Holds t (rows ++ [row]) s' := by
  obtain ⟨s1, hgrow, hmax⟩ := h.grow hlen
  have hle := t.nodePer_le_sizePer
  have hper : s.nodePer = t.nodePer := by rw [nodePer, h.type]
  have hsize : s.sizePer = t.sizePer := by rw [RefCell.sizePer, h.type]
  have hfit : rows.length * t.nodePer + s.nodePer ≤ refIntMax := by
    have h27 : t.nodePer ≤ 27 := le_trans hle (sizePer_le t)
    have : rows.length * t.nodePer ≤ 5100 * 27 := Nat.mul_le_mul (by omega) h27
    rw [hper]
    unfold refIntMax
    omega
  obtain ⟨s', cell, hrun, hmax', hstocked⟩ := add_ok (fun i => row.getD i 0) h.inv hgrow
    h.stocked hfit (by
      intro i hi
      rw [hper] at hi
      have hlt : i < row.length := by omega
      refine hnodes _ (List.mem_iff_getElem?.mpr ⟨i, ?_⟩)
      rw [List.getElem?_take, if_pos hi]
      simp [hlt])
  obtain ⟨hinv, _, _, _, _, htype, hn⟩ := add_spec h.inv hrun
  have hrow' : (List.range s.sizePer).map (fun i => row.getD i 0) = row :=
    map_getD_range (hrow.trans hsize.symm)
  refine ⟨s', cell, hrun, hinv, htype.trans h.type, ?_, ?_, ?_, ?_⟩
  · rw [cells_add h.inv hrun, hrow', h.cells, Multiset.cons_coe, Multiset.coe_eq_coe]
    exact (List.perm_append_singleton row rows).symm
  · rw [hn, h.count, List.length_append, List.length_singleton]
  · rw [hmax']
    exact hmax
  · rw [List.length_append, List.length_singleton, Nat.add_mul, Nat.one_mul]
    simpa [hper] using hstocked

/-- A store that is filled row by row, away from the limits of `REF_INT`. -/
structure Filled (t : CellType) (rows : List (List Int)) (s : RefCell) : Prop where
  inv : s.CellInv
  type : s.cellType = t
  cells : s.cells = rows
  count : s.n = rows.length
  size : s.max ≤ refIntMax / 4
  stocked : s.adj.Stocked (rows.length * t.nodePer)

/-- Cells of at most four entries never overflow the table. -/
theorem Filled.grow {t : CellType} {rows : List (List Int)} {s : RefCell} (h : Filled t rows s)
    (ht : t.sizePer ≤ 4) (hlen : rows.length < refIntMax / 4) :
    ∃ s', s.grow = .ok s' ∧ s'.max ≤ refIntMax / 4 := by
  by_cases hblank : s.blank = refEmpty
  · have hfull := h.inv.full hblank
    have hlt : s.max < refIntMax / 4 := by
      rw [← hfull, h.count]
      exact hlen
    have hsize : s.sizePer ≤ 4 := by rw [sizePer, h.type]; exact ht
    set chunk := Nat.min (Nat.max 5000 (3 * s.max / 2)) (refIntMax / 4 - s.max) with hchunk
    have hmax : s.max + chunk ≤ refIntMax / 4 := by
      have : chunk ≤ refIntMax / 4 - s.max := Nat.min_le_right _ _
      omega
    have hfit : ¬ refIntMax < s.sizePer * (s.max + chunk) := by
      have : s.sizePer * (s.max + chunk) ≤ 4 * (refIntMax / 4) := Nat.mul_le_mul hsize hmax
      omega
    simp only [RefCell.grow, hblank, ne_eq, not_true, if_false]
    rw [if_neg (by omega), if_neg (by omega), if_neg hfit]
    exact ⟨_, rfl, hmax⟩
  · exact ⟨s, by simp [RefCell.grow, hblank], h.size⟩

theorem Filled.add {t : CellType} {rows : List (List Int)} {s : RefCell} (h : Filled t rows s)
    (ht : t.sizePer ≤ 4) (hlen : rows.length < refIntMax / 4) {nodes : Nat → Int}
    (hnodes : ∀ i, i < t.nodePer → 0 ≤ nodes i ∧ nodes i + 100 ≤ refIntMax) :
    ∃ s' cell, s.add nodes = .ok (s', cell) ∧
      Filled t (rows ++ [(List.range t.sizePer).map nodes]) s' := by
  obtain ⟨s1, hgrow, hmax⟩ := h.grow ht hlen
  have hper : s.nodePer = t.nodePer := by rw [nodePer, h.type]
  have hsize : s.sizePer = t.sizePer := by rw [RefCell.sizePer, h.type]
  have hfit : rows.length * t.nodePer + s.nodePer ≤ refIntMax := by
    have : (rows.length + 1) * t.nodePer ≤ refIntMax / 4 * 4 :=
      Nat.mul_le_mul hlen (t.nodePer_le_sizePer.trans ht)
    rw [hper, ← Nat.succ_mul]
    exact this.trans (Nat.div_mul_le_self _ _)
  obtain ⟨s', cell, hrun, hmax', hstocked⟩ := add_ok nodes h.inv hgrow h.stocked hfit (hper ▸ hnodes)
  obtain ⟨hinv, _, _, _, _, htype, hn⟩ := add_spec h.inv hrun
  refine ⟨s', cell, hrun, hinv, htype.trans h.type, ?_, ?_, hmax' ▸ hmax, ?_⟩
  · rw [cells_add h.inv hrun, hsize, h.cells, Multiset.cons_coe, Multiset.coe_eq_coe]
    exact (List.perm_append_singleton _ rows).symm
  · rw [hn, h.count, List.length_append, List.length_singleton]
  · rw [List.length_append, List.length_singleton, Nat.add_mul, Nat.one_mul]
    simpa [hper] using hstocked

/-- The nodes of all cells. -/
def holdNodes (s : RefCell) : Finset Int := (s.validCells.flatMap s.nodeList).toFinset

theorem mem_holdNodes {s : RefCell} {v : Int} :
    v ∈ s.holdNodes ↔ ∃ c, s.Live c ∧ v ∈ s.nodeList c := by
  simp [holdNodes, mem_validCells]

/-- The lists of all nodes have one item for each node of each cell. -/
theorem CellInv.sum_items {s : RefCell} (h : s.CellInv) :
    ∑ v ∈ s.holdNodes, (s.adj.items v).length = s.n * s.nodePer := by
  have hlength : ∀ v, (s.adj.items v).length = ∑ c ∈ Finset.range s.max, s.occupancy c v := by
    intro v
    have hsum := Multiset.sum_count_eq_card (s := Finset.range s.max)
      (m := (s.having v : Multiset Nat))
      (fun c hc => Finset.mem_range.mpr (h.mem_having.mp (Multiset.mem_coe.mp hc)).1.1)
    simp only [Multiset.coe_count, Multiset.coe_card, h.count_having] at hsum
    simp only [occupancy, hsum, having, RefAdj.refs, List.length_map]
  have hcell : ∀ c, ∑ v ∈ s.holdNodes, s.occupancy c v = if s.Live c then s.nodePer else 0 := by
    intro c
    by_cases hlive : s.Live c
    · have hsum := Multiset.sum_count_eq_card (s := s.holdNodes) (m := (s.nodeList c : Multiset Int))
        (fun v hv => mem_holdNodes.mpr ⟨c, hlive, Multiset.mem_coe.mp hv⟩)
      simp only [Multiset.coe_count, Multiset.coe_card, length_nodeList] at hsum
      simp only [occupancy, if_pos hlive]
      exact hsum
    · simp [occupancy, hlive]
  have hcount := h.count
  rw [liveCount] at hcount
  calc ∑ v ∈ s.holdNodes, (s.adj.items v).length
      = ∑ c ∈ Finset.range s.max, ∑ v ∈ s.holdNodes, s.occupancy c v := by
        rw [Finset.sum_comm]
        exact Finset.sum_congr rfl fun v _ => hlength v
    _ = s.n * s.nodePer := by
        simp only [hcell]
        rw [← Finset.sum_filter, Finset.sum_const, hcount, smul_eq_mul]

/-- The pool of a cell store has as many items in use as its cells have
nodes. -/
theorem CellInv.stocked {s : RefCell} (h : s.CellInv) : s.adj.Stocked (s.n * s.nodePer) := by
  have hadj := h.registers.inv
  refine ⟨hadj, ?_⟩
  obtain ⟨slots, hthreads, hnodup, hmem⟩ := hadj.blank
  refine ⟨slots, hthreads, ?_⟩
  set used := s.holdNodes.toList.flatMap s.adj.items with hused
  have hin : ∀ k, k ∈ used ↔ ∃ v, k ∈ s.adj.items v := by
    intro k
    simp only [hused, List.mem_flatMap, Finset.mem_toList]
    constructor
    · rintro ⟨v, _, hk⟩
      exact ⟨v, hk⟩
    · rintro ⟨v, hk⟩
      refine ⟨v, mem_holdNodes.mpr ?_, hk⟩
      have href : s.adj.itemRef k ∈ s.adj.refs v := List.mem_map_of_mem hk
      obtain ⟨c, _, hlive, hv⟩ := h.mem_refs_iff.mp href
      exact ⟨c, hlive, hv⟩
  have hperm : (slots ++ used).Perm (List.range s.adj.nitem) := by
    rw [List.perm_ext_iff_of_nodup _ List.nodup_range]
    · intro k
      rw [List.mem_append, hmem, hin, List.mem_range]
      constructor
      · rintro (hk | ⟨v, hk⟩)
        · exact hk.1
        · exact hadj.within v k hk
      · intro hk
        by_cases hlist : ∃ v, k ∈ s.adj.items v
        · exact Or.inr hlist
        · exact Or.inl ⟨hk, not_exists.mp hlist⟩
    · rw [List.nodup_append]
      refine ⟨hnodup, ?_, ?_⟩
      · rw [hused, List.nodup_flatMap]
        refine ⟨fun v _ => hadj.nodup v, ?_⟩
        refine s.holdNodes.nodup_toList.imp fun {v w} hvw => ?_
        exact fun k hk hk' => hadj.apart v w hvw k hk hk'
      · rintro k hk _ hk' rfl
        obtain ⟨v, hv⟩ := (hin k).mp hk'
        exact ((hmem k).mp hk).2 v hv
  have hlen := hperm.length_eq
  rw [List.length_append, List.length_range, hused, List.length_flatMap] at hlen
  rw [← h.sum_items, ← hlen, Finset.sum_map_toList]

/-- Every store of small cells can be filled further. -/
theorem CellInv.filled {s : RefCell} (h : s.CellInv) (hsize : s.sizePer = 4) :
    Filled s.cellType (s.validCells.map s.cellRow) s := by
  have hcount : s.n = s.validCells.length := by
    rw [← h.count, liveCount, Finset.card_def, Finset.filter_val, Finset.range_val,
      Multiset.range, Multiset.filter_coe, Multiset.coe_card]
    rfl
  refine ⟨h, rfl, rfl, ?_, ?_, ?_⟩
  · rw [List.length_map, hcount]
  · have := h.fits
    rw [hsize] at this
    omega
  · rw [List.length_map, ← hcount]
    exact h.stocked

theorem cells_create (mem : RefCell) (t : CellType) : (create mem t).cells = 0 := by
  apply Multiset.eq_zero_of_forall_notMem
  intro row hrow
  obtain ⟨c, hlive, _⟩ := mem_cells.mp hrow
  exact create_dead mem t c hlive

theorem Filled.create (mem : RefCell) (t : CellType) : Filled t [] (create mem t) := by
  refine ⟨create_inv mem t, rfl, cells_create mem t, rfl, ?_, ?_⟩
  · rw [show (RefCell.create mem t).max = 100 from rfl]
    decide
  · rw [List.length_nil, Nat.zero_mul]
    exact RefAdj.create_stocked _

/-- **Every list of rows is the content of a store.** -/
theorem ofRows_spec {t : CellType} {rows : List (List Int)} (hfit : RowsFit t rows) :
    Holds t rows (ofRows t rows) := by
  have hloop := ArrayLoop.foldl_inv (f := fun s row =>
      match RefCell.add s fun i => List.getD row i (0 : Int) with
      | .ok (s, _) => s
      | .error _ => s)
    (fun done rest s => done ++ rest = rows ∧ Holds t done s)
    (by
      intro done row rest s h
      obtain ⟨hlist, hdone⟩ := h
      have hin : row ∈ rows := by
        rw [← hlist]
        simp
      have hlen : done.length < 5100 := by
        have hall := hfit.1
        rw [← hlist, List.length_append, List.length_cons] at hall
        omega
      obtain ⟨hsize, hnodes⟩ := hfit.2 row hin
      obtain ⟨s', cell, hrun, hnext⟩ := hdone.add hlen hsize hnodes
      simp only [hrun]
      exact ⟨by simpa using hlist, hnext⟩)
    (b := create zeroMemory t) ⟨List.nil_append rows, ?_⟩
  · exact hloop.2
  · constructor
    · exact create_inv zeroMemory t
    · rfl
    · exact cells_create zeroMemory t
    · rfl
    · exact Or.inl rfl
    · rw [List.length_nil, Nat.zero_mul]
      exact RefAdj.create_stocked _

end RefCell
end RefineMesh
