import Mathlib.Tactic
import RefineMesh.Pack
import RefineMesh.SortUnique

/-!
# Queries and edits of the cell store

The loops of `ref_cell.h` over the cells of a node, the searches built on them,
and the store seen as a multiset of rows.  `Replaced` is what a sequence of
`ref_cell_remove` and `ref_cell_add` does to that multiset; the operations on
meshes are proved with its two rules.
-/

namespace RefineMesh

namespace CellType

/-- `ref_cell_e2n_gen`, edge by edge. -/
def e2n : CellType → List (Nat × Nat)
  | edg | ed2 | ed3 => [(0, 1)]
  | tri | tr2 | tr3 => [(0, 1), (1, 2), (2, 0)]
  | qua | qu2 => [(0, 1), (1, 2), (2, 3), (3, 0)]
  | tet | te2 => [(0, 1), (0, 2), (0, 3), (1, 2), (1, 3), (2, 3)]
  | pyr | py2 => [(0, 1), (0, 2), (0, 3), (1, 2), (1, 4), (2, 3), (2, 4), (3, 4)]
  | pri | pr2 => [(0, 1), (0, 2), (0, 3), (1, 2), (1, 4), (2, 5), (3, 4), (3, 5), (4, 5)]
  | hex | he2 => [(0, 1), (0, 3), (0, 4), (1, 2), (1, 5), (2, 3), (2, 6), (3, 7), (4, 5), (4, 7),
      (5, 6), (6, 7)]

/-- `ref_cell_f2n_gen`, face by face; a triangle repeats its first node. -/
def f2n : CellType → List (Nat × Nat × Nat × Nat)
  | edg | ed2 | ed3 => []
  | tri | tr2 | tr3 => [(0, 1, 2, 0)]
  | qua | qu2 => [(0, 1, 2, 3)]
  | tet | te2 => [(1, 3, 2, 1), (0, 2, 3, 0), (0, 3, 1, 0), (0, 1, 2, 0)]
  | pyr | py2 => [(0, 1, 2, 0), (1, 4, 2, 1), (2, 4, 3, 2), (0, 2, 3, 0), (0, 3, 4, 1)]
  | pri | pr2 => [(0, 3, 4, 1), (1, 4, 5, 2), (0, 2, 5, 3), (0, 1, 2, 0), (3, 5, 4, 3)]
  | hex | he2 => [(0, 3, 7, 4), (1, 5, 6, 2), (0, 4, 5, 1), (2, 6, 7, 3), (0, 1, 2, 3),
      (4, 7, 6, 5)]

theorem nodup_f2n (t : CellType) : t.f2n.Nodup := by
  cases t <;> decide

end CellType

namespace RefCell

/-- The cells that `each_ref_cell_having_node` visits. -/
def having (s : RefCell) (node : Int) : List Nat := (s.adj.refs node).map Int.toNat

/-- The cells that `each_ref_cell_having_node2` visits. -/
def having2 (s : RefCell) (node0 node1 : Int) : List Nat :=
  (s.having node0).flatMap fun cell =>
    ((List.range s.nodePer).filter fun cellNode => node1 = s.c2n cell cellNode).map fun _ => cell

/-- `ref_cell_list_with2`. -/
def listWith2 (s : RefCell) (node0 node1 : Int) (maxCell : Nat) : Except Status (List Nat) :=
  let cellList := s.having2 node0 node1
  if maxCell < cellList.length then .error .increaseLimit else .ok cellList

/-- The loop of `ref_cell_with`. -/
def withLoop (s : RefCell) (target : Nat × (Nat → Int)) : List Nat → Except Status Nat
  | [] => .error .notFound
  | ref :: rest => do
      let orig ← s.nodes ref
      if sameUnique target (sortUnique s.nodePer orig) then .ok ref else withLoop s target rest

/-- `ref_cell_with`; the cell is `REF_EMPTY` exactly when the code is
`REF_NOT_FOUND`. -/
def cellWith (s : RefCell) (nodes : Nat → Int) : Except Status Nat :=
  withLoop s (sortUnique s.nodePer nodes) (s.having (nodes 0))

/-- The nodes of one face of a cell. -/
def faceNodes (s : RefCell) (cell : Nat) (face : Nat × Nat × Nat × Nat) : Nat → Int := fun node =>
  s.c2n cell (if node = 0 then face.1 else if node = 1 then face.2.1
    else if node = 2 then face.2.2.1 else face.2.2.2)

/-- One candidate of `ref_cell_with_face`. -/
def withFaceStep (s : RefCell) (target : Nat × (Nat → Int)) (found : Int × Int)
    (candidate : Nat × (Nat × Nat × Nat × Nat)) : Except Status (Int × Int) :=
  if sameUnique target (sortUnique 4 (s.faceNodes candidate.1 candidate.2)) then
    if found.1 = refEmpty then .ok (candidate.1, found.2)
    else if found.2 ≠ refEmpty then .error .invalid
    else .ok (found.1, candidate.1)
  else .ok found

/-- `ref_cell_with_face`: `cell0` and `cell1`. -/
def withFace (s : RefCell) (faceNodes : Nat → Int) : Except Status (Int × Int) :=
  ((s.having (faceNodes 0)).flatMap fun cell => s.cellType.f2n.map fun face => (cell, face)).foldlM
    (withFaceStep s (sortUnique 4 faceNodes)) (refEmpty, refEmpty)

/-- `ref_cell_has_side`. -/
def hasSide (s : RefCell) (node0 node1 : Int) : Bool :=
  (s.having node0).any fun cell => s.cellType.e2n.any fun edge =>
    (node0 = s.c2n cell edge.1 ∧ node1 = s.c2n cell edge.2) ∨
      (node0 = s.c2n cell edge.2 ∧ node1 = s.c2n cell edge.1)

/-- The store as a multiset of rows. -/
def cells (s : RefCell) : Multiset (List Int) := s.validCells.map s.cellRow

/-- No cell repeats a node. -/
def Simple (s : RefCell) : Prop := ∀ c, s.Live c → (s.nodeList c).Nodup

/-- No two cells have the same node set. -/
def DistinctSets (s : RefCell) : Prop :=
  ∀ c c', s.Live c → s.Live c' → (∀ x, x ∈ s.nodeList c ↔ x ∈ s.nodeList c') → c = c'

theorem nodup_validCells (s : RefCell) : s.validCells.Nodup :=
  List.nodup_range.filter _

theorem mem_cells {s : RefCell} {row : List Int} :
    row ∈ s.cells ↔ ∃ c, s.Live c ∧ s.cellRow c = row := by
  simp [cells, mem_validCells]

theorem take_cellRow (s : RefCell) (c : Nat) : (s.cellRow c).take s.nodePer = s.nodeList c := by
  have hle : s.nodePer ≤ s.sizePer := s.cellType.nodePer_le_sizePer
  rw [cellRow, nodeList, ← List.map_take, List.take_range, Nat.min_eq_left hle]

theorem length_cellRow (s : RefCell) (c : Nat) : (s.cellRow c).length = s.sizePer := by
  simp [cellRow]

theorem cellRow_congr {s s' : RefCell} {c : Nat} (htype : s'.cellType = s.cellType)
    (hrow : s'.c2n c = s.c2n c) : s'.cellRow c = s.cellRow c := by
  unfold cellRow sizePer
  rw [htype, hrow]

theorem nodeList_congr {s s' : RefCell} {c : Nat} (htype : s'.cellType = s.cellType)
    (hrow : s'.c2n c = s.c2n c) : s'.nodeList c = s.nodeList c := by
  unfold nodeList nodePer
  rw [htype, hrow]

theorem distinctSets_of_nodup {s : RefCell}
    (h : (s.cells.map fun row => (row.take s.nodePer).toFinset).Nodup) : s.DistinctSets := by
  rw [cells, Multiset.map_coe, List.map_map, Multiset.coe_nodup] at h
  intro c c' hc hc' hset
  apply List.inj_on_of_nodup_map h (mem_validCells.mpr hc) (mem_validCells.mpr hc')
  ext x
  simp only [Function.comp_apply, take_cellRow, List.mem_toFinset]
  exact hset x

/-! ## The cells of a node -/

theorem CellInv.mem_having {s : RefCell} (h : s.CellInv) {v : Int} {c : Nat} :
    c ∈ s.having v ↔ s.Live c ∧ v ∈ s.nodeList c := by
  simp only [having, List.mem_map, h.mem_refs_iff]
  constructor
  · intro hc
    obtain ⟨_, ⟨c', rfl, hlive, hv⟩, rfl⟩ := hc
    exact ⟨hlive, hv⟩
  · intro hc
    exact ⟨c, ⟨c, rfl, hc⟩, by simp⟩

/-- A cell is visited as often as it has the node. -/
theorem CellInv.count_having {s : RefCell} (h : s.CellInv) (v : Int) (c : Nat) :
    (s.having v).count c = if s.Live c then (s.nodeList c).count v else 0 := by
  have hcount := h.registers.count v c
  rw [occupancy] at hcount
  rw [← hcount, having]
  have hinj : ∀ l : List Int, (∀ r ∈ l, 0 ≤ r) → (l.map Int.toNat).count c = l.count (c : Int) := by
    intro l
    induction l with
    | nil => intro _; rfl
    | cons r rest ih =>
        intro hl
        have hr := hl r List.mem_cons_self
        rw [List.map_cons, List.count_cons, List.count_cons,
          ih fun x hx => hl x (List.mem_cons_of_mem r hx)]
        congr 1
        by_cases hrc : r = c
        · simp [hrc]
        · have : r.toNat ≠ c := by omega
          simp [hrc, this]
  exact hinj _ (h.registers.cells v)

theorem CellInv.nodup_having {s : RefCell} (h : s.CellInv) (hs : s.Simple) (v : Int) :
    (s.having v).Nodup := by
  apply List.nodup_iff_count_le_one.mpr
  intro c
  rw [h.count_having]
  split
  · rename_i hlive
    exact List.nodup_iff_count_le_one.mp (hs c hlive) v
  · omega

/-- **The cells with two nodes.** -/
theorem CellInv.mem_having2 {s : RefCell} (h : s.CellInv) {v w : Int} {c : Nat} :
    c ∈ s.having2 v w ↔ s.Live c ∧ v ∈ s.nodeList c ∧ w ∈ s.nodeList c := by
  simp only [having2, List.mem_flatMap, h.mem_having, List.mem_map, List.mem_filter, List.mem_range,
    decide_eq_true_eq]
  constructor
  · intro hc
    obtain ⟨c', ⟨hlive, hv⟩, i, ⟨hi, hw⟩, rfl⟩ := hc
    exact ⟨hlive, hv, mem_nodeList.mpr ⟨i, hi, hw.symm⟩⟩
  · intro hc
    obtain ⟨hlive, hv, hw⟩ := hc
    obtain ⟨i, hi, hwi⟩ := mem_nodeList.mp hw
    exact ⟨c, ⟨hlive, hv⟩, i, ⟨hi, hwi.symm⟩, rfl⟩

/-- A cell is listed as often as it has both nodes. -/
theorem CellInv.count_having2 {s : RefCell} (h : s.CellInv) (v w : Int) (c : Nat) :
    (s.having2 v w).count c =
      if s.Live c then (s.nodeList c).count v * (s.nodeList c).count w else 0 := by
  have hplaces : ∀ l : List Nat, (l.flatMap fun cell =>
      ((List.range s.nodePer).filter fun i => w = s.c2n cell i).map fun _ => cell).count c =
      l.count c * (s.nodeList c).count w := by
    intro l
    induction l with
    | nil => simp
    | cons cell rest ih =>
        rw [List.flatMap_cons, List.count_append, ih, List.count_cons, List.map_const',
          List.count_replicate, add_mul, add_comm]
        congr 1
        by_cases heq : cell = c
        · subst heq
          simp only [beq_self_eq_true, if_true, one_mul]
          rw [nodeList, List.count_eq_countP, List.countP_map, List.countP_eq_length_filter]
          congr 1
          apply List.filter_congr
          intro i _
          by_cases hi : s.c2n cell i = w
          · simp [hi]
          · simp [hi, Ne.symm hi]
        · simp [heq]
  rw [having2, hplaces, h.count_having]
  split <;> simp

theorem CellInv.nodup_having2 {s : RefCell} (h : s.CellInv) (hs : s.Simple) (v w : Int) :
    (s.having2 v w).Nodup := by
  apply List.nodup_iff_count_le_one.mpr
  intro c
  rw [h.count_having2]
  split
  · rename_i hlive
    have hv := List.nodup_iff_count_le_one.mp (hs c hlive) v
    have hw := List.nodup_iff_count_le_one.mp (hs c hlive) w
    exact Nat.mul_le_mul hv hw
  · omega

theorem listWith2_eq_ok {s : RefCell} {v w : Int} {maxCell : Nat} {l : List Nat}
    (hrun : s.listWith2 v w maxCell = .ok l) : l = s.having2 v w ∧ l.length ≤ maxCell := by
  simp only [listWith2] at hrun
  split at hrun
  · cases hrun
  · rename_i hlen
    rw [Except.ok.injEq] at hrun
    subst hrun
    exact ⟨rfl, not_lt.mp hlen⟩

/-- The rows of the cells that satisfy a property of their row. -/
theorem rows_of_mem_iff {s : RefCell} {l : List Nat} (hnodup : l.Nodup) (P : List Int → Prop)
    [DecidablePred P] (hl : ∀ c, c ∈ l ↔ s.Live c ∧ P (s.cellRow c)) :
    (l.map s.cellRow : Multiset (List Int)) = s.cells.filter P := by
  have hperm : l.Perm (s.validCells.filter fun c => P (s.cellRow c)) := by
    apply (List.perm_ext_iff_of_nodup hnodup (s.nodup_validCells.filter _)).mpr
    intro c
    rw [hl c]
    simp [mem_validCells]
  rw [cells, Multiset.filter_coe, List.filter_map]
  exact Multiset.coe_eq_coe.mpr (hperm.map _)

/-! ## Searching by node set -/

theorem withLoop_spec {s : RefCell} {n : Nat} (nodes : Nat → Int) (hn : 0 < n)
    {l : List Nat} (hl : ∀ c ∈ l, s.Live c) :
    (∃ c ∈ l, s.withLoop (sortUnique n nodes) l = .ok c ∧
        ∀ x, (∃ i, i < n ∧ nodes i = x) ↔ x ∈ s.nodeList c) ∨
      s.withLoop (sortUnique n nodes) l = .error .notFound ∧
        ∀ c ∈ l, ¬ ∀ x, (∃ i, i < n ∧ nodes i = x) ↔ x ∈ s.nodeList c := by
  induction l with
  | nil => exact Or.inr ⟨rfl, fun c hc => absurd hc List.not_mem_nil⟩
  | cons c rest ih =>
      have hlive := hl c List.mem_cons_self
      have hnodes : s.nodes c = .ok (s.c2n c) := by
        rw [RefCell.nodes, if_neg (not_not.mpr hlive)]
      have hsame : sameUnique (sortUnique n nodes) (sortUnique s.nodePer (s.c2n c)) ↔
          ∀ x, (∃ i, i < n ∧ nodes i = x) ↔ x ∈ s.nodeList c := by
        rw [sameUnique_iff nodes (s.c2n c) hn s.nodePer_pos]
        apply forall_congr'
        intro x
        rw [mem_nodeList]
      have hstep : s.withLoop (sortUnique n nodes) (c :: rest) =
          if sameUnique (sortUnique n nodes) (sortUnique s.nodePer (s.c2n c)) then .ok c
          else s.withLoop (sortUnique n nodes) rest := by
        rw [withLoop, hnodes]
        rfl
      by_cases hmatch : sameUnique (sortUnique n nodes) (sortUnique s.nodePer (s.c2n c))
      · refine Or.inl ⟨c, List.mem_cons_self, ?_, hsame.mp hmatch⟩
        rw [hstep, if_pos hmatch]
      · rw [hstep, if_neg hmatch]
        rcases ih fun c' hc' => hl c' (List.mem_cons_of_mem c hc') with ⟨c', hc', hrun, hset⟩ | ⟨hrun, hno⟩
        · exact Or.inl ⟨c', List.mem_cons_of_mem c hc', hrun, hset⟩
        · refine Or.inr ⟨hrun, fun c' hc' => ?_⟩
          rcases List.mem_cons.mp hc' with rfl | hc''
          · exact fun hx => hmatch (hsame.mpr hx)
          · exact hno c' hc''

/-- **`ref_cell_with`** answers a cell with the same set of nodes, or
`REF_NOT_FOUND` when there is none. -/
theorem cellWith_spec {s : RefCell} (h : s.CellInv) (nodes : Nat → Int) :
    (∃ c, s.cellWith nodes = .ok c ∧ s.Live c ∧
        ∀ x, (∃ i, i < s.nodePer ∧ nodes i = x) ↔ x ∈ s.nodeList c) ∨
      s.cellWith nodes = .error .notFound ∧
        ∀ c, s.Live c → ¬ ∀ x, (∃ i, i < s.nodePer ∧ nodes i = x) ↔ x ∈ s.nodeList c := by
  have hlive : ∀ c ∈ s.having (nodes 0), s.Live c := fun c hc => (h.mem_having.mp hc).1
  rcases withLoop_spec nodes s.nodePer_pos hlive with ⟨c, hc, hrun, hset⟩ | ⟨hrun, hno⟩
  · exact Or.inl ⟨c, hrun, (h.mem_having.mp hc).1, hset⟩
  · refine Or.inr ⟨hrun, fun c hlive hset => hno c ?_ hset⟩
    exact h.mem_having.mpr ⟨hlive, (hset (nodes 0)).mp ⟨0, s.nodePer_pos, rfl⟩⟩

/-! ## Searching by face -/

/-- The cells with a face on the given nodes, once for each such face. -/
def facesOn (s : RefCell) (nodes : Nat → Int) : List Nat :=
  (s.having (nodes 0)).flatMap fun cell =>
    (s.cellType.f2n.filter fun face =>
      sameUnique (sortUnique 4 nodes) (sortUnique 4 (s.faceNodes cell face))).map fun _ => cell

/-- The answer of `ref_cell_with_face` that stands for a list of cells. -/
def FoundCells (found : Int × Int) : List Nat → Prop
  | [] => found = (refEmpty, refEmpty)
  | [a] => found = ((a : Int), refEmpty)
  | [a, b] => found = ((a : Int), (b : Int))
  | _ => False

theorem FoundCells.step {s : RefCell} {target : Nat × (Nat → Int)} {found found' : Int × Int}
    {candidate : Nat × (Nat × Nat × Nat × Nat)} {l : List Nat} (h : FoundCells found l)
    (hmatch : sameUnique target (sortUnique 4 (s.faceNodes candidate.1 candidate.2)))
    (hrun : s.withFaceStep target found candidate = .ok found') :
    FoundCells found' (l ++ [candidate.1]) := by
  simp only [withFaceStep, if_pos hmatch] at hrun
  match l, h with
  | [], h =>
      simp only [FoundCells] at h
      subst h
      simpa [FoundCells, eq_comm] using hrun
  | [a], h =>
      simp only [FoundCells] at h
      subst h
      simpa [FoundCells, eq_comm] using hrun
  | [a, b], h =>
      simp only [FoundCells] at h
      subst h
      simp at hrun

/-- A face of a candidate on the given nodes. -/
def onNodes (s : RefCell) (nodes : Nat → Int) (candidate : Nat × (Nat × Nat × Nat × Nat)) : Bool :=
  decide (sameUnique (sortUnique 4 nodes) (sortUnique 4 (s.faceNodes candidate.1 candidate.2)))

theorem facesOn_eq_filter (s : RefCell) (nodes : Nat → Int) :
    s.facesOn nodes = ((((s.having (nodes 0)).flatMap fun cell =>
      s.cellType.f2n.map fun face => (cell, face)).filter (s.onNodes nodes)).map Prod.fst) := by
  rw [List.filter_flatMap, List.map_flatMap, facesOn]
  congr 1
  funext cell
  rw [List.filter_map, List.map_map]
  rfl

/-- **`ref_cell_with_face`** answers all cells with the face; it fails when
there are more than two. -/
theorem withFace_ok {s : RefCell} {nodes : Nat → Int} {found : Int × Int}
    (hrun : s.withFace nodes = .ok found) : FoundCells found (s.facesOn nodes) := by
  have hloop := ArrayLoop.foldlM_inv
    (fun done _ found => FoundCells found ((done.filter (s.onNodes nodes)).map Prod.fst))
    (by
      intro done candidate rest found found' h hstep
      rw [List.filter_append, List.map_append]
      by_cases hmatch : sameUnique (sortUnique 4 nodes)
          (sortUnique 4 (s.faceNodes candidate.1 candidate.2))
      · have hone : ([candidate].filter (s.onNodes nodes)).map Prod.fst = [candidate.1] := by
          simp [onNodes, hmatch]
        rw [hone]
        exact h.step hmatch hstep
      · have hnone : ([candidate].filter (s.onNodes nodes)).map Prod.fst = [] := by
          simp [onNodes, hmatch]
        rw [hnone, List.append_nil]
        simp only [withFaceStep, if_neg hmatch, Except.ok.injEq] at hstep
        exact hstep ▸ h)
    rfl hrun
  rw [facesOn_eq_filter]
  exact hloop

/-- `ref_cell_with_face` succeeds on a face of at most two cells. -/
theorem withFace_exists {s : RefCell} {nodes : Nat → Int} (h : (s.facesOn nodes).length ≤ 2) :
    ∃ found, s.withFace nodes = .ok found ∧ FoundCells found (s.facesOn nodes) := by
  rw [facesOn_eq_filter, List.length_map] at h
  suffices hrun : ∃ found, s.withFace nodes = .ok found by
    obtain ⟨found, hfound⟩ := hrun
    exact ⟨found, hfound, withFace_ok hfound⟩
  have hloop := ArrayLoop.foldlM_exists (f := s.withFaceStep (sortUnique 4 nodes))
    (fun done rest found => ((done ++ rest).filter (s.onNodes nodes)).length ≤ 2 ∧
      FoundCells found ((done.filter (s.onNodes nodes)).map Prod.fst))
    (by
      intro done candidate rest found hP
      obtain ⟨hlength, hfound⟩ := hP
      rw [List.append_cons] at hlength
      by_cases hmatch : sameUnique (sortUnique 4 nodes)
          (sortUnique 4 (s.faceNodes candidate.1 candidate.2))
      · -- at most one match before this one, so `cell1` is free
        have hone : [candidate].filter (s.onNodes nodes) = [candidate] := by
          simp [onNodes, hmatch]
        have hshort : (done.filter (s.onNodes nodes)).length ≤ 1 := by
          rw [List.filter_append, List.filter_append, hone] at hlength
          simp only [List.length_append, List.length_singleton] at hlength
          omega
        obtain ⟨found', hstep⟩ : ∃ found',
            s.withFaceStep (sortUnique 4 nodes) found candidate = .ok found' := by
          rw [withFaceStep, if_pos hmatch]
          match hdone : done.filter (s.onNodes nodes), hfound with
          | [], hfound =>
              obtain rfl : found = (refEmpty, refEmpty) := by simpa [hdone, FoundCells] using hfound
              exact ⟨_, if_pos rfl⟩
          | [a], hfound =>
              obtain rfl : found = ((a.1 : Int), refEmpty) := by
                simpa [hdone, FoundCells] using hfound
              refine ⟨_, (if_neg (natCast_ne_refEmpty _)).trans (if_neg ?_)⟩
              simp
          | _ :: _ :: _, _ =>
              rw [hdone] at hshort
              simp at hshort
        refine ⟨found', hstep, hlength, ?_⟩
        rw [List.filter_append, List.map_append, hone]
        exact hfound.step hmatch hstep
      · refine ⟨found, ?_, hlength, ?_⟩
        · rw [withFaceStep, if_neg hmatch]
        · have hnone : [candidate].filter (s.onNodes nodes) = [] := by simp [onNodes, hmatch]
          rw [List.filter_append, hnone, List.append_nil]
          exact hfound)
    (l := (s.having (nodes 0)).flatMap fun cell => s.cellType.f2n.map fun face => (cell, face))
    (b := (refEmpty, refEmpty)) ⟨h, rfl⟩
  obtain ⟨found, hfound, -⟩ := hloop
  exact ⟨found, hfound⟩

/-! ## Removing and adding -/

/-- A list is its entries in order. -/
theorem map_getD_range {row : List Int} {m : Nat} (h : row.length = m) :
    (List.range m).map (fun i => row.getD i 0) = row := by
  subst h
  apply List.ext_getElem (by simp)
  intro i hi hi'
  simp [hi']

/-- A store with one row more. -/
theorem cells_insert {s s' : RefCell} {cell : Nat} (htype : s'.cellType = s.cellType)
    (hdead : ¬ s.Live cell) (hlive : ∀ c, s'.Live c ↔ s.Live c ∨ c = cell)
    (hrows : ∀ c, s.Live c → s'.c2n c = s.c2n c) : s'.cells = s'.cellRow cell ::ₘ s.cells := by
  have hperm : s'.validCells.Perm (cell :: s.validCells) := by
    apply (List.perm_ext_iff_of_nodup s'.nodup_validCells ?_).mpr
    · intro c
      simp only [mem_validCells, List.mem_cons, hlive c]
      tauto
    · exact List.nodup_cons.mpr ⟨fun hc => hdead (mem_validCells.mp hc), s.nodup_validCells⟩
  have hmap : (s.validCells.map s'.cellRow) = s.validCells.map s.cellRow := by
    apply List.map_congr_left
    intro c hc
    exact cellRow_congr htype (hrows c (mem_validCells.mp hc))
  rw [cells, cells, Multiset.cons_coe, ← hmap]
  exact Multiset.coe_eq_coe.mpr (hperm.map _)

/-- What a sequence of removals and additions has done to `s`: the cells of
`gone` are no longer there, the rows of `fresh` are new, and every other cell
is where it was. -/
structure Replaced (s s' : RefCell) (gone : List Nat) (fresh : Multiset (List Int)) : Prop where
  inv : s'.CellInv
  type : s'.cellType = s.cellType
  keeps : ∀ c, s.Live c → c ∉ gone → s'.Live c ∧ s'.c2n c = s.c2n c
  cells : s'.cells + (gone.map s.cellRow : Multiset (List Int)) = s.cells + fresh

theorem Replaced.refl {s : RefCell} (h : s.CellInv) : Replaced s s [] 0 :=
  ⟨h, rfl, fun _ hc _ => ⟨hc, rfl⟩, by simp⟩

section Replaced

variable {s s' : RefCell} {gone : List Nat} {fresh : Multiset (List Int)}

theorem Replaced.sizePer (h : Replaced s s' gone fresh) : s'.sizePer = s.sizePer := by
  unfold RefCell.sizePer
  rw [h.type]

theorem Replaced.nodePer (h : Replaced s s' gone fresh) : s'.nodePer = s.nodePer := by
  unfold RefCell.nodePer
  rw [h.type]

/-- A cell that is still there can be removed. -/
theorem Replaced.remove (h : Replaced s s' gone fresh) {cell : Nat} (hlive : s.Live cell)
    (hnot : cell ∉ gone) :
    ∃ s'', s'.remove cell = .ok s'' ∧ Replaced s s'' (cell :: gone) fresh := by
  obtain ⟨hlive', hrow⟩ := h.keeps cell hlive hnot
  obtain ⟨s'', hrun, hinv, hlv, hother, htype, _⟩ := remove_spec h.inv hlive'
  refine ⟨s'', hrun, hinv, htype.trans h.type, ?_, ?_⟩
  · intro c hc hcnot
    have hne : c ≠ cell := fun e => hcnot (e ▸ List.mem_cons_self)
    obtain ⟨hc', hrow'⟩ := h.keeps c hc fun hg => hcnot (List.mem_cons_of_mem cell hg)
    exact ⟨(hlv c).mpr ⟨hc', hne⟩, (hother c hne).trans hrow'⟩
  · have hcells : s'.cells = s'.cellRow cell ::ₘ s''.cells := by
      have hdead : ¬ s''.Live cell := fun hl => ((hlv cell).mp hl).2 rfl
      apply cells_insert htype.symm hdead
      · intro c
        rw [hlv c]
        constructor
        · intro hc
          by_cases hcc : c = cell
          · exact Or.inr hcc
          · exact Or.inl ⟨hc, hcc⟩
        · intro hc
          rcases hc with hc | rfl
          · exact hc.1
          · exact hlive'
      · intro c hc
        exact (hother c ((hlv c).mp hc).2).symm
    have hrows := h.cells
    rw [hcells, cellRow_congr h.type hrow] at hrows
    rw [List.map_cons, ← Multiset.cons_coe, Multiset.add_cons, ← Multiset.cons_add]
    exact hrows

/-- A new cell is a new row. -/
theorem Replaced.add (h : Replaced s s' gone fresh) {s'' : RefCell} {nodes : Nat → Int}
    {cell : Nat} (hrun : s'.add nodes = .ok (s'', cell)) :
    Replaced s s'' gone ((List.range s.sizePer).map nodes ::ₘ fresh) := by
  obtain ⟨hinv, hdead, hlv, hself, hother, htype, _⟩ := add_spec h.inv hrun
  refine ⟨hinv, htype.trans h.type, ?_, ?_⟩
  · intro c hc hnot
    obtain ⟨hc', hrow⟩ := h.keeps c hc hnot
    exact ⟨(hlv c).mpr (Or.inl hc'), (hother c hc').trans hrow⟩
  · have hrow : s''.cellRow cell = (List.range s.sizePer).map nodes := by
      have hsize : s''.sizePer = s'.sizePer := by unfold RefCell.sizePer; rw [htype]
      rw [cellRow, hsize, ← h.sizePer]
      apply List.map_congr_left
      intro i hi
      exact hself i (List.mem_range.mp hi)
    rw [cells_insert htype hdead hlv hother, hrow, Multiset.cons_add, h.cells, Multiset.add_cons]

/-- A new cell given by its row. -/
theorem Replaced.addRow (h : Replaced s s' gone fresh) {s'' : RefCell} {row : List Int}
    {cell : Nat} (hlen : row.length = s.sizePer)
    (hrun : s'.add (fun i => row.getD i 0) = .ok (s'', cell)) :
    Replaced s s'' gone (row ::ₘ fresh) := by
  have hadd := h.add hrun
  rw [map_getD_range hlen] at hadd
  exact hadd

/-- When the cells that went away are those with a property, the others and
the new rows are left. -/
theorem Replaced.cells_eq (h : Replaced s s' gone fresh) (hnodup : gone.Nodup)
    (P : List Int → Prop) [DecidablePred P]
    (hgone : ∀ c, c ∈ gone ↔ s.Live c ∧ P (s.cellRow c)) :
    s'.cells = s.cells.filter (fun row => ¬ P row) + fresh := by
  have hrows := h.cells
  have hsplit : s.cells.filter P + s.cells.filter (fun row => ¬ P row) = s.cells :=
    Multiset.filter_add_not P s.cells
  rw [rows_of_mem_iff hnodup P hgone] at hrows
  have hassoc : s.cells + fresh =
      s.cells.filter (fun row => ¬ P row) + fresh + s.cells.filter P := by
    conv_lhs => rw [← hsplit]
    rw [add_comm (s.cells.filter P), add_assoc, add_comm (s.cells.filter P), ← add_assoc]
  rw [hassoc] at hrows
  exact add_right_cancel hrows

end Replaced

/-! ## Codes that are never returned -/

theorem add_plain {s : RefCell} {nodes : Nat → Int} {e : Status}
    (h : s.add nodes = .error e) : e.Plain := by
  simp only [add] at h
  rcases bind_eq_error.mp h with h | ⟨s1, _, h⟩
  · simp only [grow] at h
    split at h
    · cases h
    · split at h
      · cases h
        decide
      · split at h
        · cases h
          decide
        · split at h <;> cases h
          decide
  · rcases bind_eq_error.mp h with h | ⟨_, _, h⟩
    · obtain ⟨adj, node, hadd⟩ := ArrayLoop.exists_of_foldlM_error h
      exact RefAdj.add_plain hadd
    · cases h

theorem remove_plain {s : RefCell} {cell : Nat} {e : Status}
    (h : s.remove cell = .error e) : e.Plain := by
  simp only [remove] at h
  split at h
  · cases h
    decide
  · rcases bind_eq_error.mp h with h | ⟨_, _, h⟩
    · obtain ⟨adj, node, hremove⟩ := ArrayLoop.exists_of_foldlM_error h
      exact RefAdj.remove_plain hremove
    · cases h

theorem nodes_plain {s : RefCell} {cell : Nat} {e : Status}
    (h : s.nodes cell = .error e) : e.Plain := by
  simp only [nodes] at h
  split at h <;> cases h
  decide

theorem add_ne_increaseLimit (s : RefCell) (nodes : Nat → Int) :
    s.add nodes ≠ .error .increaseLimit := fun h => (add_plain h).1 rfl

theorem remove_ne_increaseLimit (s : RefCell) (cell : Nat) :
    s.remove cell ≠ .error .increaseLimit := fun h => (remove_plain h).1 rfl

theorem nodes_ne_increaseLimit (s : RefCell) (cell : Nat) :
    s.nodes cell ≠ .error .increaseLimit := fun h => (nodes_plain h).1 rfl

end RefCell

end RefineMesh
