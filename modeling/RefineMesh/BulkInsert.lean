import Mathlib.Tactic
import RefineMesh.CellFaces
import RefineMesh.CellRows
import RefineMesh.NodeRows

/-!
# Bulk insertion

`ref_node_add_many` gives the store the globals that repeated `ref_node_add`
would give it.  `ref_cell_add_many_global` uses it for the nodes of many cells
at once and then adds the cells whose node set the store does not have.
-/

namespace RefineMesh

open ArrayLoop SlotList

variable {D : Type}

/-! ## One node after the other -/

namespace RefNode

section Each

variable [RefDbl D] {s : RefNode D} {globals : List Int}

end Each

end RefNode

/-! ## Many cells -/

namespace RefCell

section Cells

variable {s : RefCell} {t : RefNode D} {c2n part : Nat → Int}

/-- Some cell has the node set of the row. -/
theorem exists_hasNodes_iff {nodes : Nat → Int} :
    (∃ c, s.Live c ∧ s.HasNodes c nodes) ↔ ∃ row ∈ s.cells, ∀ x,
      (∃ i, i < s.nodePer ∧ nodes i = x) ↔ x ∈ row.take s.nodePer := by
  constructor
  · intro h
    obtain ⟨c, hc, hset⟩ := h
    exact ⟨s.cellRow c, mem_cells.mpr ⟨c, hc, rfl⟩, by rw [take_cellRow]; exact hset⟩
  · intro h
    obtain ⟨row, hrow, hset⟩ := h
    obtain ⟨c, hc, rfl⟩ := mem_cells.mp hrow
    rw [take_cellRow] at hset
    exact ⟨c, hc, hset⟩

/-- Two rows have the same node set. -/
def SameSet (m : Nat) (a b : Nat → Int) : Prop :=
  ∀ x, (∃ i, i < m ∧ a i = x) ↔ ∃ i, i < m ∧ b i = x

/-- The row is the first given one with its node set, and the store has no cell
on that set. -/
def FirstGiven (s : RefCell) (row : Nat → Nat → Int) (k : Nat) : Prop :=
  (¬ ∃ c, s.Live c ∧ s.HasNodes c (row k)) ∧ ∀ j, j < k → ¬ SameSet s.nodePer (row j) (row k)

/-- The entries of a row. -/
def rowList (s : RefCell) (nodes : Nat → Int) : List Int := (List.range s.sizePer).map nodes

theorem hasNodes_congr {c : Nat} {a b : Nat → Int} (h : SameSet s.nodePer a b) :
    s.HasNodes c a ↔ s.HasNodes c b :=
  forall_congr' fun x => by rw [h x]

/-- Of the rows with a node set that the store lacks, one is the first. -/
theorem exists_firstGiven {row : Nat → Nat → Int} {k : Nat}
    (hno : ¬ ∃ c, s.Live c ∧ s.HasNodes c (row k)) :
    ∃ j, j ≤ k ∧ FirstGiven s row j ∧ SameSet s.nodePer (row j) (row k) := by
  induction k using Nat.strong_induction_on with
  | _ k ih =>
      by_cases hfirst : FirstGiven s row k
      · exact ⟨k, le_rfl, hfirst, fun x => Iff.rfl⟩
      · have hearlier : ∃ j, j < k ∧ SameSet s.nodePer (row j) (row k) := by
          by_contra hnone
          exact hfirst ⟨hno, fun j hj hsame => hnone ⟨j, hj, hsame⟩⟩
        obtain ⟨j, hj, hsame⟩ := hearlier
        have hno' : ¬ ∃ c, s.Live c ∧ s.HasNodes c (row j) := by
          intro h
          obtain ⟨c, hc, hset⟩ := h
          exact hno ⟨c, hc, (hasNodes_congr hsame).mp hset⟩
        obtain ⟨i, hi, hfirst', hsame'⟩ := ih j hj hno'
        exact ⟨i, hi.trans hj.le, hfirst', fun x => (hsame' x).trans (hsame x)⟩

open scoped Classical in
/-- What the first `m` cells have added to the store. -/
structure AddedCells (s : RefCell) (row : Nat → Nat → Int) (m : Nat) (s' : RefCell) : Prop where
  inv : s'.CellInv
  type : s'.cellType = s.cellType
  keeps : ∀ c, s.Live c → s'.Live c ∧ s'.c2n c = s.c2n c
  cells : s'.cells =
    s.cells + ((List.range m).filter fun k => FirstGiven s row k).map fun k => rowList s (row k)

/-- The store has the node set of the next row unless it is the first one. -/
theorem AddedCells.exists_iff {row : Nat → Nat → Int} {m : Nat} {s' : RefCell}
    (h : AddedCells s row m s') :
    (∃ c, s'.Live c ∧ s'.HasNodes c (row m)) ↔ ¬ FirstGiven s row m := by
  have hper : s'.nodePer = s.nodePer := by rw [nodePer, nodePer, h.type]
  have htake : ∀ k, (rowList s (row k)).take s.nodePer = (List.range s.nodePer).map (row k) := by
    intro k
    have hle : s.nodePer ≤ s.sizePer := s.cellType.nodePer_le_sizePer
    rw [rowList, ← List.map_take, List.take_range, Nat.min_eq_left hle]
  have hold : (∃ r ∈ s.cells, ∀ x, (∃ i, i < s.nodePer ∧ row m i = x) ↔ x ∈ r.take s.nodePer) ↔
      ∃ c, s.Live c ∧ s.HasNodes c (row m) := exists_hasNodes_iff.symm
  rw [exists_hasNodes_iff, h.cells, hper]
  simp only [Multiset.mem_add, Multiset.mem_coe, List.mem_map, List.mem_filter, List.mem_range,
    decide_eq_true_eq, or_and_right, exists_or, hold]
  constructor
  · intro hcase hfirst
    rcases hcase with hin | ⟨r, ⟨j, ⟨hj, _⟩, rfl⟩, hset⟩
    · exact hfirst.1 hin
    · refine hfirst.2 j hj fun x => ?_
      rw [hset x, htake]
      simp
  · intro hnot
    by_cases hin : ∃ c, s.Live c ∧ s.HasNodes c (row m)
    · exact Or.inl hin
    · obtain ⟨j, hj, hfirst, hsame⟩ := exists_firstGiven hin
      have hjm : j ≠ m := by
        intro heq
        exact hnot (heq ▸ hfirst)
      refine Or.inr ⟨_, ⟨j, ⟨by omega, hfirst⟩, rfl⟩, fun x => ?_⟩
      rw [← hsame x, htake]
      simp

/-- `ref_cell_add` can grow the table. -/
theorem CellInv.grow_ok (h : s.CellInv) {N : Nat} (hn : s.n ≤ N)
    (hfit : Nat.max 4 s.sizePer * RefNode.grownMax N ≤ refIntMax) : ∃ s1, s.grow = .ok s1 := by
  by_cases hblank : s.blank = refEmpty
  · have hfull := h.full hblank
    have hgrown : RefNode.grownMax s.max ≤ RefNode.grownMax N :=
      RefNode.grownMax_mono (hfull ▸ hn)
    have hfour : 4 * RefNode.grownMax N ≤ refIntMax :=
      (Nat.mul_le_mul_right _ (Nat.le_max_left 4 s.sizePer)).trans hfit
    have hlt : s.max < RefNode.grownMax s.max := by
      have : 5000 ≤ Nat.max 5000 (3 * s.max / 2) := Nat.le_max_left _ _
      unfold RefNode.grownMax
      omega
    set chunk := Nat.min (Nat.max 5000 (3 * s.max / 2)) (refIntMax / 4 - s.max) with hchunk
    have hsize : s.sizePer * (s.max + chunk) ≤ refIntMax := by
      have hle : s.max + chunk ≤ RefNode.grownMax N :=
        (Nat.add_le_add_left (Nat.min_le_left _ _) _).trans hgrown
      exact (Nat.mul_le_mul (Nat.le_max_right 4 _) hle).trans hfit
    simp only [RefCell.grow, hblank, ne_eq, not_true, if_false]
    rw [if_neg (by omega), if_neg (by omega), if_neg (not_lt.mpr hsize)]
    exact ⟨_, rfl⟩
  · exact ⟨s, by simp [RefCell.grow, hblank]⟩

/-- **One cell**: found by its node set, or added. -/
theorem AddedCells.step {row : Nat → Nat → Int} {m N : Nat} {s1 : RefCell}
    (h : AddedCells s row m s1) (hn : s1.n < N)
    (hfit : Nat.max 4 s.sizePer * RefNode.grownMax N ≤ refIntMax) {nodes : Nat → Int}
    (hnodes : ∀ i, i < s.sizePer → nodes i = row m i)
    (hrange : ∀ i, i < s.nodePer → 0 ≤ row m i ∧ row m i + 100 ≤ refIntMax) :
    (∃ c, s1.cellWith nodes = .ok c ∧ AddedCells s row (m + 1) s1) ∨
      s1.cellWith nodes = .error .notFound ∧ ∃ s2 c, s1.add nodes = .ok (s2, c) ∧
        AddedCells s row (m + 1) s2 ∧ s2.n = s1.n + 1 := by
  classical
  have hper : s1.nodePer = s.nodePer := by rw [nodePer, nodePer, h.type]
  have hsize : s1.sizePer = s.sizePer := by rw [RefCell.sizePer, RefCell.sizePer, h.type]
  have hle : s.nodePer ≤ s.sizePer := s.cellType.nodePer_le_sizePer
  have hset : ∀ c, s1.HasNodes c nodes ↔ s1.HasNodes c (row m) := by
    intro c
    apply hasNodes_congr
    intro x
    rw [hper]
    refine exists_congr fun i => and_congr_right fun hi => ?_
    rw [hnodes i (by omega)]
  rcases cellWith_spec h.inv nodes with ⟨c, hrun, hlive, hc⟩ | ⟨hrun, hno⟩
  · have hnot : ¬ FirstGiven s row m := h.exists_iff.mp ⟨c, hlive, (hset c).mp hc⟩
    refine Or.inl ⟨c, hrun, h.inv, h.type, h.keeps, ?_⟩
    rw [h.cells, List.range_succ, List.filter_append, List.filter_cons_of_neg (by simpa using hnot),
      List.filter_nil, List.append_nil]
  · have hfirst : FirstGiven s row m := by
      by_contra hnot
      obtain ⟨c, hlive, hc⟩ := h.exists_iff.mpr hnot
      exact hno c hlive ((hset c).mpr hc)
    have hfit1 : Nat.max 4 s1.sizePer * RefNode.grownMax N ≤ refIntMax := by rwa [hsize]
    obtain ⟨s1', hgrow⟩ := h.inv.grow_ok hn.le hfit1
    have hitems : s1.n * s1.nodePer + s1.nodePer ≤ refIntMax := by
      have hN : N ≤ RefNode.grownMax N := Nat.le_add_right _ _
      calc s1.n * s1.nodePer + s1.nodePer = s1.nodePer * (s1.n + 1) := by ring
        _ ≤ Nat.max 4 s1.sizePer * RefNode.grownMax N :=
          Nat.mul_le_mul ((hper ▸ hsize ▸ hle).trans (Nat.le_max_right 4 _)) (by omega)
        _ ≤ refIntMax := hfit1
    obtain ⟨s2, c, hadd, _, _⟩ := add_ok nodes h.inv hgrow h.inv.stocked hitems fun i hi => by
      rw [hper] at hi
      rw [hnodes i (by omega)]
      exact hrange i hi
    obtain ⟨hinv2, _, hlive2, _, hold2, htype2, hn2⟩ := add_spec h.inv hadd
    refine Or.inr ⟨hrun, s2, c, hadd, ⟨hinv2, htype2.trans h.type, fun c' hc' => ?_, ?_⟩, hn2⟩
    · obtain ⟨hlive, hrow⟩ := h.keeps c' hc'
      exact ⟨(hlive2 c').mpr (Or.inl hlive), (hold2 c' hlive).trans hrow⟩
    · have hlist : (List.range s1.sizePer).map nodes = rowList s (row m) := by
        rw [hsize, rowList]
        exact List.map_congr_left fun i hi => hnodes i (List.mem_range.mp hi)
      rw [cells_add h.inv hadd, hlist, h.cells, List.range_succ, List.filter_append,
        List.filter_cons_of_pos (by simpa using hfirst), List.filter_nil, List.map_append,
        List.map_singleton, ← Multiset.coe_add, Multiset.coe_singleton, ← Multiset.singleton_add]
      abel

end Cells

end RefCell

/-! ## Both insertions -/

end RefineMesh
