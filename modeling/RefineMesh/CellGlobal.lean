import Mathlib.Tactic
import RefineMesh.CellRows
import RefineMesh.NodeGhostRuns
import RefineMesh.Numbering
import RefineMesh.Requests

/-!
# Global numbers of cells

`ref_cell_global` numbers the cells of all ranks.  A cell belongs to the part
of its node with the smallest global; every rank numbers the cells it owns
after those of the ranks before it and asks the owners for the rest.
-/

namespace RefineMesh

open Segments Spmd

variable {D : Type}

namespace RefCell

/-- The global of a node of a cell. -/
def nodeGlobal (s : RefCell) (refNode : RefNode D) (cell node : Nat) : Int :=
  refNode.global (s.c2n cell node).toNat

/-- The loop of `ref_cell_part_cell_node`. -/
def smallestGlobalNode (s : RefCell) (refNode : RefNode D) (cell : Nat) : Nat :=
  (List.range' 1 (s.nodePer - 1)).foldl (fun smallest node =>
    if s.nodeGlobal refNode cell node < s.nodeGlobal refNode cell smallest then node
    else smallest) 0

/-- `ref_cell_part_cell_node`. -/
def partCellNode (s : RefCell) (refNode : RefNode D) (cell : Nat) : Except Status Nat :=
  if s.max < cell then .error .invalid
  else if s.c2n cell 0 = refEmpty then .error .invalid
  else .ok (s.smallestGlobalNode refNode cell)

/-- `ref_cell_part`. -/
def part (s : RefCell) (refNode : RefNode D) (cell : Nat) : Except Status Nat := do
  let cellNode ← s.partCellNode refNode cell
  .ok (refNode.part (s.c2n cell cellNode).toNat)

/-- The part of a valid cell. -/
def cellPart (s : RefCell) (refNode : RefNode D) (cell : Nat) : Nat :=
  refNode.part (s.c2n cell (s.smallestGlobalNode refNode cell)).toNat

/-- `ref_cell_part` does not fail in a loop over the valid cells. -/
theorem part_eq {s : RefCell} {refNode : RefNode D} {cell : Nat} (hlive : s.Live cell) :
    s.part refNode cell = .ok (s.cellPart refNode cell) := by
  have hmax : ¬ s.max < cell := not_lt.mpr hlive.1.le
  rw [part, partCellNode, if_neg hmax, if_neg hlive.2]
  rfl

/-- The cells of this rank. -/
def ownedCells (s : RefCell) (refNode : RefNode D) : List Nat :=
  s.validCells.filter fun cell => refNode.rank = s.cellPart refNode cell

/-- The cells of other ranks. -/
def ghostCells (s : RefCell) (refNode : RefNode D) : List Nat :=
  s.validCells.filter fun cell => s.cellPart refNode cell ≠ refNode.rank

/-- The lookups of the owner: the nodes of a cell and the cell.  Entries past
`node_per` are not read. -/
def findCell (s : RefCell) (refNode : RefNode D) (globals : Nat → Int) : Except Status Nat := do
  let nodes ← (List.range s.nodePer).foldlM (fun (nodes : Nat → Int) cellNode => do
    let node ← refNode.nodeLocal (globals cellNode)
    .ok (Function.update nodes cellNode (node : Int))) fun _ => refEmpty
  s.cellWith nodes

/-- `ref_cell_ghost_long`. -/
def ghostLong (p : Nat) (s : RefCell) (refNode : RefNode D) (data : Nat → Int)
    (mem : RequestMemory Int) : RankProg D (Nat → Int) :=
  askOwners p s.nodePer .long (s.cellPart refNode) (s.ghostCells refNode) (s.nodeGlobal refNode)
    (s.findCell refNode) data mem

/-- The loop that numbers the owned cells from `offset` on. -/
def numberOwned (s : RefCell) (refNode : RefNode D) (offset : Int) (global : Nat → Int) :
    Int × (Nat → Int) :=
  s.validCells.foldl (fun acc cell =>
    if refNode.rank = s.cellPart refNode cell then
      (acc.1 + 1, Function.update acc.2 cell acc.1)
    else acc) (offset, global)

/-- `ref_cell_global`, over memory `global` for the result. -/
def cellGlobal (p : Nat) (s : RefCell) (refNode : RefNode D) (global : Nat → Int)
    (mem : RequestMemory Int) : RankProg D (Nat → Int) :=
  let ncell := (s.ownedCells refNode).length
  .allgather ncell fun counts =>
    let offset := ∑ proc ∈ Finset.range refNode.rank, counts proc
    s.ghostLong p refNode (s.numberOwned refNode offset global).2 mem

/-- A cell by the globals of its nodes. -/
def key (s : RefCell) (refNode : RefNode D) (cell : Nat) : Finset Int :=
  ((List.range s.nodePer).map (s.nodeGlobal refNode cell)).toFinset

theorem mem_key {s : RefCell} {refNode : RefNode D} {cell : Nat} {g : Int} :
    g ∈ s.key refNode cell ↔ ∃ i, i < s.nodePer ∧ s.nodeGlobal refNode cell i = g := by
  simp [key]

theorem nodeGlobal_mem_key {s : RefCell} (refNode : RefNode D) (cell : Nat) {i : Nat}
    (hi : i < s.nodePer) : s.nodeGlobal refNode cell i ∈ s.key refNode cell :=
  mem_key.mpr ⟨i, hi, rfl⟩

/-- The node with the smallest global. -/
theorem smallestGlobalNode_spec (s : RefCell) (refNode : RefNode D) (cell : Nat) :
    s.smallestGlobalNode refNode cell < s.nodePer ∧ ∀ i, i < s.nodePer →
      s.nodeGlobal refNode cell (s.smallestGlobalNode refNode cell) ≤ s.nodeGlobal refNode cell i := by
  have hpos := s.nodePer_pos
  have hloop := ArrayLoop.foldl_inv (l := List.range' 1 (s.nodePer - 1)) (b := 0)
    (f := fun smallest node => if s.nodeGlobal refNode cell node <
      s.nodeGlobal refNode cell smallest then node else smallest)
    (fun done rest smallest => done ++ rest = List.range' 1 (s.nodePer - 1) ∧
      smallest < s.nodePer ∧ ∀ i, i = 0 ∨ i ∈ done →
        s.nodeGlobal refNode cell smallest ≤ s.nodeGlobal refNode cell i)
    (by
      intro done node rest smallest hP
      obtain ⟨hlist, hlt, hmin⟩ := hP
      have hnode : node < s.nodePer := by
        have hin : node ∈ List.range' 1 (s.nodePer - 1) := by
          rw [← hlist]
          simp
        rw [List.mem_range'_1] at hin
        omega
      refine ⟨by simpa using hlist, ?_, ?_⟩
      · split
        · exact hnode
        · exact hlt
      · intro i hi
        rw [List.mem_append, List.mem_singleton, ← or_assoc] at hi
        split
        · rename_i hless
          rcases hi with hi | rfl
          · exact hless.le.trans (hmin i hi)
          · exact le_rfl
        · rename_i hless
          rcases hi with hi | rfl
          · exact hmin i hi
          · exact not_lt.mp hless)
    ⟨List.nil_append _, hpos, fun i hi => by
      rcases hi with rfl | hi
      · exact le_rfl
      · cases hi⟩
  refine ⟨hloop.2.1, ?_⟩
  intro i hi
  apply hloop.2.2 i
  rw [List.mem_range'_1]
  omega

theorem mem_ghostCells {s : RefCell} {refNode : RefNode D} {c : Nat} :
    c ∈ s.ghostCells refNode ↔ s.Live c ∧ s.cellPart refNode c ≠ refNode.rank := by
  simp [ghostCells, mem_validCells]

theorem mem_ownedCells {s : RefCell} {refNode : RefNode D} {c : Nat} :
    c ∈ s.ownedCells refNode ↔ s.Live c ∧ refNode.rank = s.cellPart refNode c := by
  simp [ownedCells, mem_validCells]

theorem mem_ownedCells_iff_notMem {s : RefCell} {refNode : RefNode D} {c : Nat}
    (hc : s.Live c) : c ∈ s.ownedCells refNode ↔ c ∉ s.ghostCells refNode := by
  rw [mem_ownedCells, mem_ghostCells]
  tauto

/-- The owned cells are numbered in their order. -/
theorem numberOwned_apply (s : RefCell) (refNode : RefNode D) (offset : Int) (global : Nat → Int)
    {j c : Nat} (hj : (s.ownedCells refNode)[j]? = some c) :
    (s.numberOwned refNode offset global).2 c = offset + j :=
  Numbering.foldl_step_apply (P := fun cell => refNode.rank = s.cellPart refNode cell) (fun n => n)
    s.nodup_validCells hj

end RefCell

/-! ## Distributed cells -/

/-- Cells on the same nodes have the same part. -/
theorem Partitioned.cellPart_eq {p : Nat} {node : Nat → RefNode D} (h : Partitioned p node)
    {s s' : RefCell} {r q c c' : Nat} (hr : r < p) (hq : q < p)
    (hlive : ∀ i, i < s.nodePer → (node r).Live (s.c2n c i).toNat)
    (hlive' : ∀ i, i < s'.nodePer → (node q).Live (s'.c2n c' i).toNat)
    (hkey : s.key (node r) c = s'.key (node q) c') :
    s.cellPart (node r) c = s'.cellPart (node q) c' := by
  obtain ⟨hlt, hmin⟩ := s.smallestGlobalNode_spec (node r) c
  obtain ⟨hlt', hmin'⟩ := s'.smallestGlobalNode_spec (node q) c'
  -- each smallest global is among the globals of the other copy
  have hin := RefCell.nodeGlobal_mem_key (node r) c hlt
  rw [hkey] at hin
  obtain ⟨i, hi, hglobal⟩ := RefCell.mem_key.mp hin
  have hin' := RefCell.nodeGlobal_mem_key (node q) c' hlt'
  rw [← hkey] at hin'
  obtain ⟨i', hi', hglobal'⟩ := RefCell.mem_key.mp hin'
  have hle := hmin' i hi
  have hle' := hmin i' hi'
  exact h.parts r q hr hq _ _ (hlive _ hlt) (hlive' _ hlt')
    (show s.nodeGlobal (node r) c _ = s'.nodeGlobal (node q) c' _ by omega)

/-- Cells of one type on all ranks, each rank with no cell twice, in which the
rank of the part of a cell holds it. -/
structure CellsDistributed (p : Nat) (node : Nat → RefNode D) (cell : Nat → RefCell)
    (type : CellType) : Prop extends Partitioned p node where
  cells : ∀ r, r < p → (cell r).CellInv
  types : ∀ r, r < p → (cell r).cellType = type
  nodes : ∀ r, r < p → ∀ c, (cell r).Live c → ∀ v ∈ (cell r).nodeList c,
    0 ≤ v ∧ (node r).Live v.toNat
  distinct : ∀ r, r < p → (cell r).DistinctSets
  owner : ∀ r, r < p → ∀ c, (cell r).Live c → (cell r).cellPart (node r) c < p ∧
    ∃ c', (cell ((cell r).cellPart (node r) c)).Live c' ∧
      (cell ((cell r).cellPart (node r) c)).key (node ((cell r).cellPart (node r) c)) c' =
        (cell r).key (node r) c

section Distributed

variable {p : Nat} {node : Nat → RefNode D} {cell : Nat → RefCell} {type : CellType}

theorem CellsDistributed.nodePer (h : CellsDistributed p node cell type) {r : Nat} (hr : r < p) :
    (cell r).nodePer = type.nodePer := by
  rw [RefCell.nodePer, h.types r hr]

theorem CellsDistributed.node_live (h : CellsDistributed p node cell type) {r c i : Nat}
    (hr : r < p) (hc : (cell r).Live c) (hi : i < (cell r).nodePer) :
    0 ≤ (cell r).c2n c i ∧ (node r).Live ((cell r).c2n c i).toNat :=
  h.nodes r hr c hc _ (RefCell.mem_nodeList.mpr ⟨i, hi, rfl⟩)

/-- The lookup finds the cell with the globals. -/
theorem CellsDistributed.findCell_ok (h : CellsDistributed p node cell type) {r c : Nat}
    (hr : r < p) (hc : (cell r).Live c) (globals : Nat → Int)
    (hkey : ∀ g, (∃ i, i < (cell r).nodePer ∧ globals i = g) ↔ g ∈ (cell r).key (node r) c) :
    (cell r).findCell (node r) globals = .ok c := by
  -- every global is the global of a node of the cell
  have hplace : ∀ i, i < (cell r).nodePer → ∃ j, j < (cell r).nodePer ∧
      (node r).nodeLocal (globals i) = .ok ((cell r).c2n c j).toNat := by
    intro i hi
    obtain ⟨j, hj, hglobal⟩ := RefCell.mem_key.mp ((hkey (globals i)).mp ⟨i, hi, rfl⟩)
    exact ⟨j, hj, ((h.inv r hr).nodeLocal_eq_ok_iff _ _).mpr ⟨(h.node_live hr hc hj).2, hglobal⟩⟩
  choose! slot hslot hlocal using hplace
  have hloop : (List.range (cell r).nodePer).foldlM (fun (nodes : Nat → Int) cellNode => do
      let node ← (node r).nodeLocal (globals cellNode)
      Except.ok (Function.update nodes cellNode (node : Int))) (fun _ => refEmpty) =
      .ok ((List.range (cell r).nodePer).foldl (fun (nodes : Nat → Int) i =>
        Function.update nodes i ((cell r).c2n c (slot i))) fun _ => refEmpty) := by
    apply ArrayLoop.foldlM_ok
    intro i hi nodes
    have hlt := List.mem_range.mp hi
    rw [hlocal i hlt]
    have hpos := (h.node_live hr hc (hslot i hlt)).1
    change Except.ok (Function.update nodes i (((cell r).c2n c (slot i)).toNat : Int)) = _
    rw [Int.toNat_of_nonneg hpos]
  have hnodes : ∀ i, i < (cell r).nodePer →
      (List.range (cell r).nodePer).foldl (fun (nodes : Nat → Int) i =>
        Function.update nodes i ((cell r).c2n c (slot i))) (fun _ => refEmpty) i =
          (cell r).c2n c (slot i) := by
    intro i hi
    refine ArrayLoop.foldl_establish (a := i)
      (Q := fun nodes : Nat → Int => nodes i = (cell r).c2n c (slot i)) (List.mem_range.mpr hi) ?_ ?_ _
    · intro nodes
      rw [Function.update_self]
    · intro i' _ hne nodes hold
      rw [Function.update_of_ne hne.symm]
      exact hold
  rw [RefCell.findCell, hloop]
  change (cell r).cellWith _ = .ok c
  generalize (List.range (cell r).nodePer).foldl (fun (nodes : Nat → Int) i =>
    Function.update nodes i ((cell r).c2n c (slot i))) (fun _ => refEmpty) = nodes at hnodes
  have hsame : ∀ x, (∃ i, i < (cell r).nodePer ∧ nodes i = x) ↔ x ∈ (cell r).nodeList c := by
    intro x
    constructor
    · rintro ⟨i, hi, rfl⟩
      rw [hnodes i hi]
      exact RefCell.mem_nodeList.mpr ⟨slot i, hslot i hi, rfl⟩
    · intro hx
      obtain ⟨j, hj, rfl⟩ := RefCell.mem_nodeList.mp hx
      obtain ⟨i, hi, hglobal⟩ := (hkey _).mpr (RefCell.mem_key.mpr ⟨j, hj, rfl⟩)
      refine ⟨i, hi, ?_⟩
      have hown := ((h.inv r hr).nodeLocal_eq_ok_iff (globals i) ((cell r).c2n c j).toNat).mpr
        ⟨(h.node_live hr hc hj).2, hglobal.symm⟩
      rw [hlocal i hi, Except.ok.injEq] at hown
      have hpos := (h.node_live hr hc hj).1
      have hpos' := (h.node_live hr hc (hslot i hi)).1
      rw [hnodes i hi]
      omega
  rcases RefCell.cellWith_spec (h.cells r hr) nodes with ⟨c', hrun, hc', hset⟩ | ⟨_, hnone⟩
  · rw [hrun, h.distinct r hr c' c hc' hc fun x => (hset x).symm.trans (hsame x)]
  · exact absurd hsame (hnone c hc)

theorem CellsDistributed.key_inj (h : CellsDistributed p node cell type) {r c c' : Nat}
    (hr : r < p) (hc : (cell r).Live c) (hc' : (cell r).Live c')
    (hkey : (cell r).key (node r) c = (cell r).key (node r) c') : c = c' := by
  have h1 := h.findCell_ok hr hc ((cell r).nodeGlobal (node r) c) fun g => RefCell.mem_key.symm
  have h2 := h.findCell_ok hr hc' ((cell r).nodeGlobal (node r) c) fun g => by
    rw [← hkey]
    exact RefCell.mem_key.symm
  exact Except.ok.inj (h1.symm.trans h2)

/-- Copies of a cell have one owner. -/
theorem CellsDistributed.cellPart_eq (h : CellsDistributed p node cell type) {r q c c' : Nat}
    (hr : r < p) (hq : q < p) (hc : (cell r).Live c) (hc' : (cell q).Live c')
    (hkey : (cell r).key (node r) c = (cell q).key (node q) c') :
    (cell r).cellPart (node r) c = (cell q).cellPart (node q) c' :=
  h.toPartitioned.cellPart_eq hr hq (fun _ hi => (h.node_live hr hc hi).2)
    (fun _ hi => (h.node_live hq hc' hi).2) hkey

/-- The owners of the cells, rank by rank. -/
def cellOwners (node : Nat → RefNode D) (cell : Nat → RefCell) (r : Nat) : Nat → Nat :=
  (cell r).cellPart (node r)

/-- The ghost cells, rank by rank. -/
def cellGhosts (node : Nat → RefNode D) (cell : Nat → RefCell) (r : Nat) : List Nat :=
  (cell r).ghostCells (node r)

/-- What is sent for a cell, rank by rank. -/
def cellRecords (node : Nat → RefNode D) (cell : Nat → RefCell) (r : Nat) : Nat → Nat → Int :=
  (cell r).nodeGlobal (node r)

/-- The index of a cell of rank `r` on its owner. -/
def ownerCell (node : Nat → RefNode D) (cell : Nat → RefCell) (r c : Nat) : Nat :=
  let owner := (cell r).cellPart (node r) c
  match (cell owner).findCell (node owner) ((cell r).nodeGlobal (node r) c) with
  | .ok c' => c'
  | .error _ => 0

theorem CellsDistributed.ownerCell_spec (h : CellsDistributed p node cell type) {r c : Nat}
    (hr : r < p) (hc : (cell r).Live c) :
    (cell (cellOwners node cell r c)).Live (ownerCell node cell r c) ∧
      (cell (cellOwners node cell r c)).key (node (cellOwners node cell r c))
        (ownerCell node cell r c) = (cell r).key (node r) c := by
  obtain ⟨hpart, c', hc', hkey⟩ := h.owner r hr c hc
  have hfind := h.findCell_ok hpart hc' ((cell r).nodeGlobal (node r) c) fun g => by
    rw [hkey, RefCell.mem_key, h.nodePer hr, h.nodePer hpart]
  have hslot : ownerCell node cell r c = c' := by
    simp only [ownerCell, hfind]
  rw [hslot]
  exact ⟨hc', hkey⟩

theorem CellsDistributed.dest_lt (h : CellsDistributed p node cell type) :
    ∀ q, q < p → ∀ c ∈ cellGhosts node cell q, cellOwners node cell q c < p := by
  intro q hq c hc
  exact (h.owner q hq c (RefCell.mem_ghostCells.mp hc).1).1

theorem CellsDistributed.finds (h : CellsDistributed p node cell type) :
    Finds p type.nodePer (cellOwners node cell) (cellGhosts node cell) (cellRecords node cell)
      (fun r => (cell r).findCell (node r)) (ownerCell node cell) := by
  intro r hr c hc globals hglobals
  have hlive := (RefCell.mem_ghostCells.mp hc).1
  obtain ⟨hslot, hkey⟩ := h.ownerCell_spec hr hlive
  have hpart := h.dest_lt r hr c hc
  apply h.findCell_ok hpart hslot
  intro g
  rw [hkey, RefCell.mem_key, h.nodePer hr, h.nodePer hpart]
  constructor
  · rintro ⟨i, hi, rfl⟩
    exact ⟨i, hi, (hglobals i hi).symm⟩
  · rintro ⟨i, hi, rfl⟩
    exact ⟨i, hi, hglobals i hi⟩

/-- The numbers of cells that a rank asks for and is asked for, times the nodes
of a cell, fit a `REF_INT`. -/
def CellsFit (p : Nat) (node : Nat → RefNode D) (cell : Nat → RefCell) (type : CellType) : Prop :=
  ∀ r, r < p → type.nodePer * ((cell r).ghostCells (node r)).length ≤ refIntMax ∧
    type.nodePer * ∑ q ∈ Finset.range p,
      (group ((cell q).cellPart (node q)) ((cell q).ghostCells (node q)) r).length ≤ refIntMax

theorem CellsDistributed.askFits (h : CellsDistributed p node cell type)
    (hfit : CellsFit p node cell type) :
    AskFits p type.nodePer (cellOwners node cell) (cellGhosts node cell) := by
  refine ⟨?_, fun r hr => ?_, fun r hr => ?_⟩
  · have := type.two_le_nodePer
    omega
  · rw [length_askOrder (h.dest_lt r hr) ((RefCell.nodup_validCells _).filter _)]
    exact (hfit r hr).1
  · rw [length_askedOrder]
    exact (hfit r hr).2

/-- The cells of all ranks, by the globals of their nodes. -/
def cellKeys (p : Nat) (node : Nat → RefNode D) (cell : Nat → RefCell) : Set (Finset Int) :=
  {k | ∃ r c, r < p ∧ (cell r).Live c ∧ (cell r).key (node r) c = k}

/-- The owned cells of all ranks, in the order of their numbers. -/
def keyList (p : Nat) (node : Nat → RefNode D) (cell : Nat → RefCell) : List (Finset Int) :=
  (List.range p).flatMap fun r => ((cell r).ownedCells (node r)).map ((cell r).key (node r))

theorem CellsDistributed.mem_keyList (h : CellsDistributed p node cell type) {k : Finset Int} :
    k ∈ keyList p node cell ↔ k ∈ cellKeys p node cell := by
  simp only [keyList, List.mem_flatMap, List.mem_range, List.mem_map, RefCell.mem_ownedCells]
  constructor
  · rintro ⟨r, hr, c, hc, rfl⟩
    exact ⟨r, c, hr, hc.1, rfl⟩
  · rintro ⟨r, c, hr, hc, rfl⟩
    obtain ⟨hslot, hkey⟩ := h.ownerCell_spec hr hc
    have hpart : cellOwners node cell r c < p := (h.owner r hr c hc).1
    refine ⟨cellOwners node cell r c, hpart, ownerCell node cell r c, ⟨hslot, ?_⟩, hkey⟩
    rw [h.rank _ hpart]
    exact (h.cellPart_eq hpart hr hslot hc hkey).symm

theorem CellsDistributed.nodup_keyList (h : CellsDistributed p node cell type) :
    (keyList p node cell).Nodup := by
  apply List.nodup_flatMap.mpr
  constructor
  · intro r hr
    apply List.Nodup.map_on _ ((RefCell.nodup_validCells _).filter _)
    intro c hc c' hc' hkey
    exact h.key_inj (List.mem_range.mp hr) (RefCell.mem_ownedCells.mp hc).1
      (RefCell.mem_ownedCells.mp hc').1 hkey
  · apply List.Pairwise.imp_of_mem _ List.nodup_range
    intro r q hr hq hne k hk hk'
    obtain ⟨c, hc, rfl⟩ := List.mem_map.mp hk
    obtain ⟨c', hc', hkey⟩ := List.mem_map.mp hk'
    rw [RefCell.mem_ownedCells, h.rank r (List.mem_range.mp hr)] at hc
    rw [RefCell.mem_ownedCells, h.rank q (List.mem_range.mp hq)] at hc'
    have hpart := h.cellPart_eq (List.mem_range.mp hr) (List.mem_range.mp hq) hc.1 hc'.1 hkey.symm
    exact hne (by omega)

/-- The number that its owner gives to a cell. -/
theorem CellsDistributed.number_eq (h : CellsDistributed p node cell type) {r c : Nat} (hr : r < p)
    (hc : c ∈ (cell r).ownedCells (node r)) (global : Nat → Int) :
    ((cell r).numberOwned (node r) (start (fun q => ((cell q).ownedCells (node q)).length) r)
      global).2 c = (keyList p node cell).idxOf ((cell r).key (node r) c) := by
  obtain ⟨j, hj⟩ := List.mem_iff_getElem?.mp hc
  have hlen : j < (((cell r).ownedCells (node r)).map ((cell r).key (node r))).length := by
    rw [List.length_map]
    exact (List.getElem?_eq_some_iff.mp hj).1
  have hplace : (keyList p node cell)[start (fun q =>
      (((cell q).ownedCells (node q)).map ((cell q).key (node q))).length) r + j]? =
      some ((cell r).key (node r) c) := by
    rw [keyList, getElem?_flatMap_range hr hlen, List.getElem?_map, hj]
    rfl
  simp only [List.length_map] at hplace
  obtain ⟨hlt, hget⟩ := List.getElem?_eq_some_iff.mp hplace
  rw [RefCell.numberOwned_apply _ _ _ _ hj, ← hget, h.nodup_keyList.idxOf_getElem]
  push_cast
  ring

/-- The numbers are a bijection from the cells onto `[0, total)`, and every
copy of a cell has its number. -/
def Numbered (p : Nat) (node : Nat → RefNode D) (cell : Nat → RefCell) (out : Nat → Nat → Int) :
    Prop :=
  ∃ number : Finset Int → Int,
    (∀ r, r < p → ∀ c, (cell r).Live c → out r c = number ((cell r).key (node r) c)) ∧
    Set.BijOn number (cellKeys p node cell) (Set.Ico 0 ((cellKeys p node cell).ncard : Int))

theorem CellsDistributed.bijOn_idxOf (h : CellsDistributed p node cell type) :
    Set.BijOn (fun k => ((keyList p node cell).idxOf k : Int)) (cellKeys p node cell)
      (Set.Ico 0 ((cellKeys p node cell).ncard : Int)) := by
  have hset : cellKeys p node cell = ((keyList p node cell).toFinset : Set (Finset Int)) := by
    ext k
    rw [← h.mem_keyList]
    simp
  have hcard : (cellKeys p node cell).ncard = (keyList p node cell).length := by
    rw [hset, Set.ncard_coe_finset, List.toFinset_card_of_nodup h.nodup_keyList]
  have hmem : cellKeys p node cell = {k | k ∈ keyList p node cell} := by
    ext k
    exact h.mem_keyList.symm
  rw [hcard, hmem]
  exact Numbering.bijOn_idxOf h.nodup_keyList

/-- The numbers after the owned cells are numbered. -/
def ownNumbers (node : Nat → RefNode D) (cell : Nat → RefCell) (global : Nat → Nat → Int)
    (r : Nat) : Nat → Int :=
  ((cell r).numberOwned (node r) (start (fun q => ((cell q).ownedCells (node q)).length) r)
    (global r)).2

/-- What the exchange leaves on a cell. -/
theorem CellsDistributed.fromOwners_eq (h : CellsDistributed p node cell type)
    (global : Nat → Nat → Int) {r c : Nat} (hr : r < p) (hc : (cell r).Live c) :
    fromOwners (cellOwners node cell) (cellGhosts node cell) (ownerCell node cell)
      (ownNumbers node cell global) r c = (keyList p node cell).idxOf ((cell r).key (node r) c) := by
  rw [fromOwners]
  split
  · obtain ⟨hslot, hkey⟩ := h.ownerCell_spec hr hc
    have hpart : cellOwners node cell r c < p := (h.owner r hr c hc).1
    have hown : ownerCell node cell r c ∈
        (cell (cellOwners node cell r c)).ownedCells (node (cellOwners node cell r c)) := by
      rw [RefCell.mem_ownedCells, h.rank _ hpart]
      exact ⟨hslot, (h.cellPart_eq hpart hr hslot hc hkey).symm⟩
    rw [ownNumbers, h.number_eq hpart hown, hkey]
  · rename_i hghost
    exact h.number_eq hr ((RefCell.mem_ownedCells_iff_notMem hc).mpr hghost) (global r)

/-- The exchange of the numbers. -/
theorem CellsDistributed.ghostLong_run (h : CellsDistributed p node cell type) (hp : 0 < p)
    (hfit : p ≤ 1 ∨ CellsFit p node cell type) (data : Nat → Nat → Int)
    (mem : Nat → RequestMemory Int) :
    Runs p (fun r => (cell r).ghostLong p (node r) (data r) (mem r))
      (fromOwners (cellOwners node cell) (cellGhosts node cell) (ownerCell node cell) data) := by
  by_cases hone : p ≤ 1
  · refine .ret fun r hr => ?_
    unfold RefCell.ghostLong askOwners
    rw [if_pos hone]
    congr 1
    funext c
    -- on one rank no cell is a ghost
    have hown : c ∉ cellGhosts node cell r := by
      intro hghost
      obtain ⟨hc, hne⟩ := RefCell.mem_ghostCells.mp hghost
      have hpart := (h.owner r hr c hc).1
      rw [h.rank r hr] at hne
      omega
    rw [fromOwners, if_neg hown]
  · have hrun := askOwners_run (D := D) (t := .long) mem (by omega) (h.askFits (hfit.resolve_left hone))
      h.dest_lt (fun r _ => (RefCell.nodup_validCells _).filter _) h.finds data
    apply hrun.congr
    intro r hr
    rw [RefCell.ghostLong, h.nodePer hr]
    rfl

theorem CellsDistributed.not_runs_ghostLong (h : CellsDistributed p node cell type) (hp : 1 < p)
    {r : Nat} (hr : r < p)
    (hover : refIntMax <
      type.nodePer * (askedOrder p (cellOwners node cell) (cellGhosts node cell) r).length)
    {data out : Nat → Nat → Int} {mem : Nat → RequestMemory Int} :
    ¬ Runs p (fun r => (cell r).ghostLong p (node r) (data r) (mem r)) out := by
  intro hrun
  have hask : Runs p (fun r => (askOwners p type.nodePer .long (cellOwners node cell r)
      (cellGhosts node cell r) (cellRecords node cell r) ((cell r).findCell (node r)) (data r)
      (mem r) : RankProg D (Nat → Int))) out := by
    apply hrun.congr
    intro r hr
    rw [RefCell.ghostLong, h.nodePer hr]
    rfl
  exact not_runs_askOwners_of_overflow (t := .long) hp hr hover hask

theorem CellsDistributed.not_runs_cellGlobal (h : CellsDistributed p node cell type) (hp : 1 < p)
    {r : Nat} (hr : r < p)
    (hover : refIntMax <
      type.nodePer * (askedOrder p (cellOwners node cell) (cellGhosts node cell) r).length)
    {global out : Nat → Nat → Int} {mem : Nat → RequestMemory Int} :
    ¬ Runs p (fun r => (cell r).cellGlobal p (node r) (global r) (mem r)) out := by
  intro hrun
  have hrest := (runs_allgather_iff (by omega) fun r _ => rfl).mp hrun
  exact h.not_runs_ghostLong hp hr hover hrest

end Distributed

/-- **Cells are numbered consistently.**  `ref_cell_global` completes; the
numbers are a bijection from the cells of all ranks onto `[0, total)` and all
copies of a cell have one number. -/
theorem cells_numbered {p : Nat} {node : Nat → RefNode D} {cell : Nat → RefCell} {type : CellType}
    (hp : 0 < p) (h : CellsDistributed p node cell type)
    (hfit : p ≤ 1 ∨ CellsFit p node cell type) (global : Nat → Nat → Int)
    (mem : Nat → RequestMemory Int) :
    Yields p (fun r => (cell r).cellGlobal p (node r) (global r) (mem r))
      (Numbered p node cell) := by
  have hghost := h.ghostLong_run hp hfit (ownNumbers node cell global) mem
  have hrun : Runs p (fun r => (cell r).cellGlobal p (node r) (global r) (mem r))
      (fromOwners (cellOwners node cell) (cellGhosts node cell) (ownerCell node cell)
        (ownNumbers node cell global)) := by
    refine .allgather _ _ (fun r _ => rfl) (hghost.congr ?_)
    intro r hr
    have hoffset : ∑ proc ∈ Finset.range (node r).rank,
        onRanks p (fun q => (((cell q).ownedCells (node q)).length : Int)) proc =
        (start (fun q => ((cell q).ownedCells (node q)).length) r : Nat) := by
      rw [h.rank r hr, start, Nat.cast_sum]
      apply Finset.sum_congr rfl
      intro q hq
      exact onRanks_of_lt _ ((Finset.mem_range.mp hq).trans hr)
    rw [hoffset]
    rfl
  apply hrun.yields
  intro out hout
  refine ⟨fun k => ((keyList p node cell).idxOf k : Int), ?_, h.bijOn_idxOf⟩
  intro r hr c hc
  rw [hout r hr, h.fromOwners_eq global hr hc]

/-! ## A cell that every rank holds -/

/-- One triangle; rank 0 and the other ranks start it at different nodes. -/
def sharedTri (r : Nat) : RefCell :=
  if r = 0 then RefCell.ofRows .tri [[0, 1, 2, 7]] else RefCell.ofRows .tri [[2, 0, 1, 7]]

theorem sharedTri_valid (r : Nat) : (sharedTri r).validCells = [0] := by
  unfold sharedTri
  split <;> decide

theorem sharedTri_live {r c : Nat} : (sharedTri r).Live c ↔ c = 0 := by
  rw [← RefCell.mem_validCells, sharedTri_valid, List.mem_singleton]

theorem sharedTri_part (r c : Nat) : (sharedTri r).cellPart (sharedStore 3 r) c = 0 := rfl

theorem sharedTri_distributed {p : Nat} (hp : 0 < p) :
    CellsDistributed p (sharedStore 3) sharedTri .tri := by
  have hstores : Distributed p (sharedStore 3) := sharedStore_distributed hp (by decide)
  have hholds : ∀ r, (sharedTri r).CellInv ∧ (sharedTri r).cellType = .tri := by
    intro r
    unfold sharedTri
    split
    · have h := RefCell.ofRows_spec (show RefCell.RowsFit .tri [[0, 1, 2, 7]] by decide)
      exact ⟨h.inv, h.type⟩
    · have h := RefCell.ofRows_spec (show RefCell.RowsFit .tri [[2, 0, 1, 7]] by decide)
      exact ⟨h.inv, h.type⟩
  refine { inv := hstores.inv, rank := hstores.rank, parts := fun r q _ _ i j _ _ _ => rfl,
           cells := fun r _ => (hholds r).1, types := fun r _ => (hholds r).2, nodes := ?_,
           distinct := ?_, owner := ?_ }
  · intro r _ c hc v hv
    rw [sharedTri_live] at hc
    subst hc
    have hall : ∀ v ∈ (sharedTri r).nodeList 0, 0 ≤ v ∧ v.toNat < 3 := by
      unfold sharedTri
      split <;> decide
    exact ⟨(hall v hv).1, (sharedStore_live _ _ _).mpr (hall v hv).2⟩
  · intro r _ c c' hc hc' _
    rw [sharedTri_live] at hc hc'
    rw [hc, hc']
  · intro r _ c hc
    rw [sharedTri_live] at hc
    subst hc
    rw [sharedTri_part]
    refine ⟨hp, 0, sharedTri_live.mpr rfl, ?_⟩
    by_cases hr : r = 0
    · rw [hr]
    · have hsame : (RefCell.ofRows .tri [[0, 1, 2, 7]]).key (sharedStore 3 0) 0 =
          (RefCell.ofRows .tri [[2, 0, 1, 7]]).key (sharedStore 3 0) 0 := by decide
      simp only [sharedTri, hr, if_true, if_false]
      exact hsame

theorem sharedTri_ghosts (r : Nat) :
    (sharedTri r).ghostCells (sharedStore 3 r) = if r = 0 then [] else [0] := by
  rw [RefCell.ghostCells, sharedTri_valid]
  by_cases hr : r = 0
  · subst hr
    rfl
  · have hrank : ¬ 0 = (sharedStore 3 r).rank := fun e => hr e.symm
    simp [hr, hrank, sharedTri_part]

/-- Rank 0 is asked for its triangle by every other rank. -/
theorem sharedTri_asked (p r : Nat) :
    ∑ q ∈ Finset.range (p + 1), (group ((sharedTri q).cellPart (sharedStore 3 q))
      ((sharedTri q).ghostCells (sharedStore 3 q)) r).length = if r = 0 then p else 0 := by
  have hzero : (sharedTri 0).ghostCells (sharedStore 3 0) = [] := by
    rw [sharedTri_ghosts, if_pos rfl]
  have hone : ∀ q, q ≠ 0 → ((sharedTri q).ghostCells (sharedStore 3 q)).length = 1 := by
    intro q hq
    rw [sharedTri_ghosts, if_neg hq]
    rfl
  have hshared := asked_of_shared sharedTri_part hzero hone p r
  rwa [Nat.mul_one] at hshared

theorem cells_numbered_two_ranks :
    Yields 2 (fun r => (sharedTri r).cellGlobal 2 (sharedStore 3 r) (fun _ => 0)
        ⟨fun _ => 0, fun _ => 0, fun _ => 0, fun _ => 0, fun _ => 0⟩)
      (Numbered 2 (sharedStore 3) sharedTri) := by
  apply cells_numbered (by decide) (sharedTri_distributed (by decide))
  right
  intro r _
  rw [sharedTri_ghosts, sharedTri_asked 1]
  by_cases hr : r = 0
  · simp [hr, refIntMax, CellType.nodePer]
  · simp [hr, refIntMax, CellType.nodePer]

/-- With 715827884 ranks around one triangle the owner's `3 * b_total` does not
fit. -/
theorem cells_numbered_overflow :
    ¬ ∀ (p : Nat) (node : Nat → RefNode Int) (cell : Nat → RefCell) (type : CellType)
      (global : Nat → Nat → Int) (mem : Nat → RequestMemory Int), 0 < p →
      CellsDistributed p node cell type →
      Yields p (fun r => (cell r).cellGlobal p (node r) (global r) (mem r))
        (Numbered p node cell) := by
  intro h
  obtain ⟨⟨out, hrun⟩, _⟩ := h (715827883 + 1) (sharedStore 3) sharedTri .tri (fun _ _ => 0)
    (fun _ => ⟨fun _ => 0, fun _ => 0, fun _ => 0, fun _ => 0, fun _ => 0⟩) (by decide)
    (sharedTri_distributed (by decide))
  have hover : refIntMax < CellType.tri.nodePer * (askedOrder (715827883 + 1)
      (cellOwners (sharedStore 3) sharedTri) (cellGhosts (sharedStore 3) sharedTri) 0).length := by
    rw [length_askedOrder]
    exact (show refIntMax < CellType.tri.nodePer * 715827883 by decide).trans_eq
      (congrArg _ (sharedTri_asked 715827883 0).symm)
  exact (sharedTri_distributed (by decide)).not_runs_cellGlobal (by decide) (by decide) hover hrun

end RefineMesh
