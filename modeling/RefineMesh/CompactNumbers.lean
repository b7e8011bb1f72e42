import Mathlib.Tactic
import RefineMesh.CellGlobal
import RefineMesh.NodeSyncRuns
import RefineMesh.Numbering

/-!
# Compact numberings of the nodes of all ranks

`ref_node_implicit_global_from_local` replaces the globals: each rank numbers
the nodes it owns in the order of their slots, after those of the ranks before
it, and the ghosts take the numbers of their owners.
`ref_grid_compact_cell_nodes` does the same for the nodes of one type of cells,
and `ref_grid_compact_cell_id_nodes` for those of the cells with one id.
-/

namespace RefineMesh

open Segments Spmd Numbering

variable {D : Type}

namespace RefNode

/-- The valid nodes of this rank, in slot order. -/
def ownedNodes (s : RefNode D) : List Nat := s.validNodes.filter fun node => s.Owned node

/-- The loop that numbers the owned nodes after `offset`. -/
def numberOwned (s : RefNode D) (offset : Int) (global : Nat → Int) : Int × (Nat → Int) :=
  s.validNodes.foldl (fun acc node =>
    if s.Owned node then (acc.1 + 1, Function.update acc.2 node (offset + acc.1)) else acc)
    (0, global)

end RefNode

/-- The results of `ref_grid_compact_cell_nodes`. -/
structure CompactNodes where
  nnodeGlobal : Int
  ncellGlobal : Int
  l2c : Nat → Int

/-- `ncell`, `nnode` and `l2c` in the loop over the cells. -/
structure CompactLoop where
  ncell : Nat
  numbered : Int × (Nat → Int)

namespace RefCell

/-- The nodes of a cell that are owned and have no number get the next ones. -/
def compactCell (s : RefCell) (refNode : RefNode D) (numbered : Int × (Nat → Int)) (cell : Nat) :
    Int × (Nat → Int) :=
  (List.range s.nodePer).foldl (fun acc cellNode =>
    let node := (s.c2n cell cellNode).toNat
    if refNode.Owned node ∧ acc.2 node = refEmpty then
      (acc.1 + 1, Function.update acc.2 node acc.1)
    else acc) numbered

/-- One step of the loop over the cells. -/
def compactStep (s : RefCell) (refNode : RefNode D) (chosen : Nat → Prop) [DecidablePred chosen]
    (acc : CompactLoop) (cell : Nat) : Except Status CompactLoop :=
  if chosen cell then do
    let part ← s.part refNode cell
    .ok { ncell := if refNode.rank = part then acc.ncell + 1 else acc.ncell
          numbered := s.compactCell refNode acc.numbered cell }
  else .ok acc

/-- The loop that adds the offset. -/
def shiftNumbers (refNode : RefNode D) (offset : Int) (l2c : Nat → Int) : Nat → Int := fun node =>
  if node < refNode.max ∧ l2c node ≠ refEmpty then l2c node + offset else l2c node

/-- The common part of `ref_grid_compact_cell_nodes` and
`ref_grid_compact_cell_id_nodes`: the cells that are `chosen`, and the sum of
the counts before this rank in the type of `offset`. -/
def compactChosen (p : Nat) (s : RefCell) (refNode : RefNode D) (chosen : Nat → Prop)
    [DecidablePred chosen] (toOffset : Int → Except Status Int) (mem : GhostMemory Int) :
    RankProg D CompactNodes :=
  (Prog.lift (s.validCells.foldlM (s.compactStep refNode chosen)
    ⟨0, 0, fun _ => refEmpty⟩)).bind fun done =>
      .allsum done.ncell fun ncellGlobal =>
        .allgather done.numbered.1 fun counts =>
          (Prog.lift (toOffset (∑ proc ∈ Finset.range refNode.rank, counts proc))).bind fun offset =>
            (ghostGlob p refNode (shiftNumbers refNode offset done.numbered.2) 1 mem).bind fun l2c =>
              .ret ⟨∑ proc ∈ Finset.range p, counts proc, ncellGlobal, l2c⟩

/-- `ref_grid_compact_cell_id_nodes`; `offset` is a `REF_INT`, and a cell
without an id has no `nodes[node_per]`. -/
def compactCellIdNodes (p : Nat) (s : RefCell) (refNode : RefNode D) (cellId : Int)
    (mem : GhostMemory Int) : RankProg D CompactNodes :=
  if s.cellType.lastNodeIsAnId then
    s.compactChosen p refNode (fun cell => cellId = s.c2n cell s.nodePer)
      (fun offset => if (refIntMax : Int) < offset then .error .undefined else .ok offset) mem
  else .fail .undefined

end RefCell

/-! ## Numbers of the owners -/

section Owners

variable {p : Nat} {node : Nat → RefNode D}

/-- The owner of a node holds it as a node of its own. -/
theorem Partitioned.owner_slot (h : Partitioned p node) (hown : Distributed p node) {r k : Nat}
    (hr : r < p) (hk : (node r).Live k) : (node r).part k < p ∧
      ∃ j, (node ((node r).part k)).Live j ∧ (node ((node r).part k)).Owned j ∧
        (node ((node r).part k)).global j = (node r).global k := by
  by_cases howned : (node r).Owned k
  · have hpart : (node r).part k = r := howned.symm.trans (h.rank r hr)
    rw [hpart]
    exact ⟨hr, k, hk, howned, rfl⟩
  · obtain ⟨hq, j, hj, hglobal⟩ := hown.owner r hr k (RefNode.mem_ghosts.mpr ⟨hk, howned⟩)
    refine ⟨hq, j, hj, ?_, hglobal⟩
    rw [RefNode.Owned, h.rank _ hq]
    exact (h.parts _ r hq hr j k hj hk hglobal).symm

/-- The globals of the nodes `own` of the ranks. -/
def ownGlobals (p : Nat) (node : Nat → RefNode D) (own : Nat → Set Nat) : Set Int :=
  {g | ∃ r k, r < p ∧ k ∈ own r ∧ (node r).global k = g}

/-- Nodes with one global are one node of one owner. -/
theorem Partitioned.injOn_global (h : Partitioned p node) (own : Nat → Set Nat)
    (hown : ∀ r, r < p → ∀ k ∈ own r, (node r).Live k ∧ (node r).Owned k) :
    Set.InjOn (fun x : Nat × Nat => (node x.1).global x.2) {x | x.1 < p ∧ x.2 ∈ own x.1} := by
  intro x hx y hy hsame
  have hglobal : (node x.1).global x.2 = (node y.1).global y.2 := hsame
  obtain ⟨hlive, howned⟩ := hown x.1 hx.1 x.2 hx.2
  obtain ⟨hlive', howned'⟩ := hown y.1 hy.1 y.2 hy.2
  have hparts := h.parts x.1 y.1 hx.1 hy.1 x.2 y.2 hlive hlive' hglobal
  have hrank : x.1 = y.1 := by
    rw [← h.rank x.1 hx.1, ← h.rank y.1 hy.1, howned, howned', hparts]
  refine Prod.ext hrank ?_
  rw [← hrank] at hlive' hglobal
  exact (h.inv x.1 hx.1).distinct x.2 y.2 hlive hlive' hglobal

/-- The exchange of numbers that the owners have given to their nodes `own`
leaves one number for each global. -/
theorem Partitioned.numbers_of_refreshed (h : Partitioned p node) (hd : Distributed p node)
    (own : Nat → Set Nat) {count : Nat → Nat} {number vector out : Nat → Nat → Int}
    (hown : ∀ r, r < p → ∀ k ∈ own r, (node r).Live k ∧ (node r).Owned k)
    (hnumber : ∀ r, r < p → Set.BijOn (number r) (own r) (Set.Ico 0 (count r : Int)))
    (hvector : ∀ r, r < p → ∀ k ∈ own r, vector r k = (start count r : Nat) + number r k)
    (hempty : ∀ r, r < p → ∀ k, (node r).Live k → (node r).Owned k → k ∉ own r →
      vector r k = refEmpty)
    (hout : Refreshed p node 1 vector out) :
    ∃ value : Int → Int,
      Set.BijOn value (ownGlobals p node own) (Set.Ico 0 ((start count p : Nat) : Int)) ∧
      (∀ r, r < p → ∀ k ∈ own r, value ((node r).global k) = (start count r : Nat) + number r k) ∧
      ∀ r, r < p → ∀ k, (node r).Live k →
        ((node r).global k ∈ ownGlobals p node own → out r k = value ((node r).global k)) ∧
        ((node r).global k ∉ ownGlobals p node own → out r k = refEmpty) := by
  obtain ⟨value, hvalue, hbij⟩ := exists_bijOn_key (bijOn_start hnumber) (h.injOn_global own hown)
  have himage : (fun x : Nat × Nat => (node x.1).global x.2) '' {x | x.1 < p ∧ x.2 ∈ own x.1} =
      ownGlobals p node own := by
    ext g
    simp [ownGlobals, and_assoc]
  rw [himage] at hbij
  have hentry : ∀ r, r < p → ∀ k ∈ own r,
      value ((node r).global k) = (start count r : Nat) + number r k :=
    fun r hr k hk => hvalue (r, k) ⟨hr, hk⟩
  -- the entry of an owned node, and then of any node
  have howned : ∀ r, r < p → ∀ k, (node r).Live k → (node r).Owned k →
      ((node r).global k ∈ ownGlobals p node own → vector r k = value ((node r).global k)) ∧
      ((node r).global k ∉ ownGlobals p node own → vector r k = refEmpty) := by
    intro r hr k hk hself
    constructor
    · rintro ⟨q, j, hq, hj, hglobal⟩
      obtain ⟨hlive, howned⟩ := hown q hq j hj
      have hsame : (q, j) = (r, k) := by
        apply h.injOn_global (fun r => {k | (node r).Live k ∧ (node r).Owned k})
          (fun _ _ _ hk => hk) ⟨hq, hlive, howned⟩ ⟨hr, hk, hself⟩ hglobal
      obtain ⟨rfl, rfl⟩ := Prod.mk.inj hsame
      rw [hvector _ hq _ hj, hentry _ hq _ hj]
    · intro hnone
      exact hempty r hr k hk hself fun hin => hnone ⟨r, k, hr, hin, rfl⟩
  refine ⟨value, hbij, hentry, ?_⟩
  intro r hr k hk
  obtain ⟨hkeep, htake⟩ := hout r hr k hk 0 Nat.one_pos
  rw [Nat.zero_add, Nat.one_mul] at hkeep htake
  by_cases hself : (node r).Owned k
  · rw [hkeep hself]
    exact howned r hr k hk hself
  · obtain ⟨hq, j, hj, hjown, hglobal⟩ := h.owner_slot hd hr hk
    rw [htake hself j hj hglobal, Nat.zero_add, Nat.one_mul, ← hglobal]
    exact howned _ hq j hj hjown

/-- The numbers of a ghost exchange of one component. -/
theorem Distributed.fits_one (h : Distributed p node)
    (hfit : ∀ r, r < p → requestCount p node r ≤ refIntMax) : GhostFits p node 1 := by
  refine ⟨Nat.one_pos, hfit, ?_⟩
  intro r hr k hk
  obtain ⟨hq, -⟩ := h.owner r hr k hk
  have hself := (RefNode.mem_ghosts.mp hk).1.1
  have hslot := ((h.inv _ hq).nodeLocal_eq_ok_iff _ _).mp (h.nodeLocal_owner hr hk)
  have hmax := (h.inv r hr).fits
  have hmax' := (h.inv _ hq).fits
  have := hslot.1.1
  constructor <;> omega

/-- The exchange of one number for each node. -/
theorem Distributed.ghostGlob_run (hp : 0 < p) (h : Distributed p node)
    (hfit : p ≤ 1 ∨ ∀ r, r < p → requestCount p node r ≤ refIntMax) (vector : Nat → Nat → Int)
    (mem : Nat → GhostMemory Int) :
    ∃ out, Runs p (fun r => ghostGlob p (node r) (vector r) 1 (mem r)) out ∧
      Refreshed p node 1 vector out := by
  have hyields := (ghost_exchange hp h .long 1 vector mem).1.mpr
    (hfit.imp_right fun hfit => ⟨h.fits_one hfit, Or.inl rfl⟩)
  obtain ⟨out, hrun⟩ := hyields.1
  exact ⟨out, hrun, hyields.2 out hrun⟩

end Owners

/-! ## Implicit globals -/

namespace RefNode

/-- The parts, the rank and the number of slots stay. -/
def SameParts (s s' : RefNode D) : Prop :=
  s'.part = s.part ∧ s'.rank = s.rank ∧ s'.max = s.max

/-- The owned nodes are numbered in slot order. -/
theorem numberOwned_apply (s : RefNode D) (offset : Int) (global : Nat → Int) {node : Nat}
    (hnode : node ∈ s.ownedNodes) :
    (s.numberOwned offset global).2 node = offset + s.ownedNodes.idxOf node := by
  have hnumber := foldl_step_eq_idxOf (P := s.Owned) (fun n => offset + n) s.nodup_validNodes
    (0, global) hnode
  simp only [zero_add] at hnumber
  exact hnumber

end RefNode

/-- The number of owned nodes of a rank. -/
def ownedCount (s : Nat → RefNode D) (r : Nat) : Nat := (s r).ownedNodes.length

/-- What `ref_node_implicit_global_from_local` leaves: the owned nodes of all
ranks have the numbers from 0 on, in the order of ranks and slots, and two
nodes have one number exactly when they are one thing. -/
structure ImplicitGlobals (p : Nat) (s : Nat → RefNode D) (N : Nat) (out : Nat → RefNode D) :
    Prop where
  inv : ∀ r, r < p → (out r).Inv
  slots : ∀ r, r < p → ∀ node, (out r).Live node ↔ (s r).Live node
  parts : ∀ r, r < p → RefNode.SameParts (s r) (out r)
  owned : Set.BijOn (fun x : Nat × Nat => (out x.1).global x.2)
    {x | x.1 < p ∧ (s x.1).Live x.2 ∧ (s x.1).Owned x.2}
    (Set.Ico 0 ((start (ownedCount s) p : Nat) : Int))
  order : ∀ r, r < p → ∀ node ∈ (s r).ownedNodes,
    (out r).global node = (start (ownedCount s) r : Nat) + (s r).ownedNodes.idxOf node
  part_lt : ∀ r, r < p → ∀ node ∈ (s r).ghosts, (s r).part node < p
  ghosts : ∀ r, r < p → ∀ node ∈ (s r).ghosts, ∃ j, (s ((s r).part node)).Live j ∧
    (s ((s r).part node)).Owned j ∧ (out r).global node = (out ((s r).part node)).global j
  consistent : ∀ r q, r < p → q < p → ∀ i j, (s r).Live i → (s q).Live j →
    ((out r).global i = (out q).global j ↔
      identity N r ((s r).global i) = identity N q ((s q).global j))

theorem ImplicitGlobals.congr {p N : Nat} {s out out' : Nat → RefNode D}
    (h : ImplicitGlobals p s N out) (heq : ∀ r, r < p → out' r = out r) :
    ImplicitGlobals p s N out' := by
  refine ⟨?_, ?_, ?_, h.owned.congr fun x hx => by simp only [heq x.1 hx.1], ?_,
    h.part_lt, ?_, ?_⟩
  · intro r hr
    rw [heq r hr]
    exact h.inv r hr
  · intro r hr
    rw [heq r hr]
    exact h.slots r hr
  · intro r hr
    rw [heq r hr]
    exact h.parts r hr
  · intro r hr
    rw [heq r hr]
    exact h.order r hr
  · intro r hr i hi
    rw [heq r hr, heq _ (h.part_lt r hr i hi)]
    exact h.ghosts r hr i hi
  · intro r q hr hq
    rw [heq r hr, heq q hq]
    exact h.consistent r q hr hq

section Implicit

variable {p N : Nat} {s t : Nat → RefNode D} {k : Nat → Nat} {nGlobal : Int}

theorem RefNode.SameParts.validNodes {s t : RefNode D} (h : SameParts s t)
    (hlive : ∀ i, t.Live i ↔ s.Live i) : t.validNodes = s.validNodes := by
  rw [RefNode.validNodes, RefNode.validNodes, h.2.2]
  exact List.filter_congr fun i _ => by rw [decide_eq_decide, hlive]

theorem RefNode.SameParts.owned_iff {s t : RefNode D} (h : SameParts s t) (i : Nat) :
    t.Owned i ↔ s.Owned i := by
  rw [RefNode.Owned, RefNode.Owned, h.1, h.2.1]

theorem RefNode.SameParts.ownedNodes {s t : RefNode D} (h : SameParts s t)
    (hlive : ∀ i, t.Live i ↔ s.Live i) : t.ownedNodes = s.ownedNodes := by
  rw [RefNode.ownedNodes, RefNode.ownedNodes, h.validNodes hlive]
  exact List.filter_congr fun i _ => by rw [decide_eq_decide, h.owned_iff]

theorem RefNode.SameParts.ghosts {s t : RefNode D} (h : SameParts s t)
    (hlive : ∀ i, t.Live i ↔ s.Live i) : t.ghosts = s.ghosts := by
  rw [RefNode.ghosts, RefNode.ghosts, h.validNodes hlive]
  exact List.filter_congr fun i _ => by rw [decide_eq_decide, h.owned_iff]

end Implicit

/-! ## The nodes of the cells -/

namespace RefCell

/-- The owned nodes of the chosen cells of `cells`. -/
def usedNodes (s : RefCell) (refNode : RefNode D) (chosen : Nat → Prop) (cells : List Nat) :
    Set Nat :=
  {k | refNode.Owned k ∧ ∃ c ∈ cells, chosen c ∧ ∃ l, l < s.nodePer ∧ (s.c2n c l).toNat = k}

theorem compactCell_given (s : RefCell) (refNode : RefNode D) {S : Set Nat}
    {numbered : Int × (Nat → Int)} (h : Given refEmpty S numbered) (cell : Nat) :
    Given refEmpty (S ∪ {k | (∃ l, l < s.nodePer ∧ (s.c2n cell l).toNat = k) ∧ refNode.Owned k})
      (s.compactCell refNode numbered cell) := by
  have hloop := h.foldl (by decide) (P := refNode.Owned)
    ((List.range s.nodePer).map fun l => (s.c2n cell l).toNat)
  rw [List.foldl_map] at hloop
  simp only [List.mem_map, List.mem_range] at hloop
  exact hloop

/-- The cells that a rank counts. -/
def countedCells (s : RefCell) (refNode : RefNode D) (chosen : Nat → Prop) [DecidablePred chosen] :
    List Nat :=
  s.validCells.filter fun cell => chosen cell ∧ refNode.rank = s.cellPart refNode cell

theorem mem_countedCells {s : RefCell} {refNode : RefNode D} {chosen : Nat → Prop}
    [DecidablePred chosen] {c : Nat} : c ∈ s.countedCells refNode chosen ↔
      s.Live c ∧ chosen c ∧ refNode.rank = s.cellPart refNode c := by
  simp [countedCells, mem_validCells]

/-- The loop over the cells counts the cells of this rank and numbers the
owned nodes of all of them. -/
theorem compactLoop_ok (s : RefCell) (refNode : RefNode D) (chosen : Nat → Prop)
    [DecidablePred chosen] :
    ∃ done, s.validCells.foldlM (s.compactStep refNode chosen) ⟨0, 0, fun _ => refEmpty⟩ =
        .ok done ∧
      done.ncell = (s.countedCells refNode chosen).length ∧
      Given refEmpty (s.usedNodes refNode chosen s.validCells) done.numbered := by
  have hstart : Given refEmpty (s.usedNodes refNode chosen []) (0, fun _ => refEmpty) := by
    have hnone : s.usedNodes refNode chosen [] = ∅ := by
      ext k
      simp [usedNodes]
    rw [hnone]
    exact given_empty refEmpty
  obtain ⟨done, hrun, -, hcount, hgiven⟩ := ArrayLoop.foldlM_exists
    (f := s.compactStep refNode chosen) (l := s.validCells) (b := ⟨0, 0, fun _ => refEmpty⟩)
    (fun done rest acc => done ++ rest = s.validCells ∧
      acc.ncell = (done.filter fun cell => chosen cell ∧
        refNode.rank = s.cellPart refNode cell).length ∧
      Given refEmpty (s.usedNodes refNode chosen done) acc.numbered)
    (by
      intro done c rest acc hP
      obtain ⟨hlist, hcount, hgiven⟩ := hP
      have hlive : s.Live c := mem_validCells.mp (hlist ▸ by simp)
      have hused : s.usedNodes refNode chosen (done ++ [c]) = s.usedNodes refNode chosen done ∪
          {k | (chosen c ∧ ∃ l, l < s.nodePer ∧ (s.c2n c l).toNat = k) ∧ refNode.Owned k} := by
        ext k
        simp only [usedNodes, Set.mem_union, Set.mem_ofPred_eq, List.mem_append,
          List.mem_singleton]
        grind
      rw [compactStep]
      by_cases hc : chosen c
      · rw [if_pos hc, part_eq hlive]
        refine ⟨_, rfl, by simpa using hlist, ?_, ?_⟩
        · rw [List.filter_append, List.length_append, ← hcount]
          by_cases hown : refNode.rank = s.cellPart refNode c
          · simp [hc, hown]
          · simp [hown]
        · rw [hused]
          have hnext := compactCell_given s refNode hgiven c
          simpa only [hc, true_and] using hnext
      · rw [if_neg hc]
        refine ⟨_, rfl, by simpa using hlist, ?_, ?_⟩
        · rw [List.filter_append, List.length_append, ← hcount]
          simp [hc]
        · rw [hused]
          simpa [hc] using hgiven)
    ⟨List.nil_append _, rfl, hstart⟩
  exact ⟨done, hrun, hcount, hgiven⟩

end RefCell

/-- Cells on all ranks by their names.  Copies of a cell have the same nodes,
and every rank that owns a node of a cell holds the cell. -/
structure CellsHeld {κ : Type} (p : Nat) (node : Nat → RefNode D) (cell : Nat → RefCell)
    (name : Nat → Nat → κ) : Prop extends Partitioned p node where
  nodes : ∀ r, r < p → ∀ c, (cell r).Live c → ∀ l, l < (cell r).nodePer →
    0 ≤ (cell r).c2n c l ∧ (node r).Live ((cell r).c2n c l).toNat
  once : ∀ r, r < p → ∀ c c', (cell r).Live c → (cell r).Live c' → name r c = name r c' → c = c'
  copies : ∀ r q, r < p → q < p → ∀ c c', (cell r).Live c → (cell q).Live c' →
    name r c = name q c' → (cell r).key (node r) c = (cell q).key (node q) c'
  held : ∀ r, r < p → ∀ c, (cell r).Live c → ∀ l, l < (cell r).nodePer →
    ∃ c', (cell ((node r).part ((cell r).c2n c l).toNat)).Live c' ∧
      name ((node r).part ((cell r).c2n c l).toNat) c' = name r c

/-- All copies of a cell are chosen or none is. -/
def ChosenByName {κ : Type} (p : Nat) (cell : Nat → RefCell) (chosen : Nat → Nat → Prop)
    (name : Nat → Nat → κ) : Prop :=
  ∀ r q, r < p → q < p → ∀ c c', (cell r).Live c → (cell q).Live c' → name r c = name q c' →
    (chosen r c ↔ chosen q c')

/-- The globals of the nodes of the chosen cells of all ranks. -/
def usedGlobals (p : Nat) (node : Nat → RefNode D) (cell : Nat → RefCell)
    (chosen : Nat → Nat → Prop) : Set Int :=
  {g | ∃ r c, r < p ∧ (cell r).Live c ∧ chosen r c ∧ g ∈ (cell r).key (node r) c}

/-- The names of the chosen cells of all ranks. -/
def chosenNames {κ : Type} (p : Nat) (cell : Nat → RefCell) (chosen : Nat → Nat → Prop)
    (name : Nat → Nat → κ) : Set κ :=
  {a | ∃ r c, r < p ∧ (cell r).Live c ∧ chosen r c ∧ name r c = a}

/-- What the compact numbering of the nodes of the chosen cells leaves. -/
structure Compacted {κ : Type} (p : Nat) (node : Nat → RefNode D) (cell : Nat → RefCell)
    (chosen : Nat → Nat → Prop) (name : Nat → Nat → κ) (out : Nat → CompactNodes) : Prop where
  numbers : ∃ number : Int → Int,
    Set.BijOn number (usedGlobals p node cell chosen)
      (Set.Ico 0 ((usedGlobals p node cell chosen).ncard : Int)) ∧
    ∀ r, r < p → ∀ k, (node r).Live k →
      ((node r).global k ∈ usedGlobals p node cell chosen →
        (out r).l2c k = number ((node r).global k)) ∧
      ((node r).global k ∉ usedGlobals p node cell chosen → (out r).l2c k = refEmpty)
  nnode : ∀ r, r < p → (out r).nnodeGlobal = (usedGlobals p node cell chosen).ncard
  ncell : ∀ r, r < p → (out r).ncellGlobal = (chosenNames p cell chosen name).ncard

section Compact

variable {κ : Type} {p : Nat} {node : Nat → RefNode D} {cell : Nat → RefCell}
  {name : Nat → Nat → κ} {chosen : Nat → Nat → Prop}

/-- The nodes that a rank numbers. -/
def numberedNodes (node : Nat → RefNode D) (cell : Nat → RefCell) (chosen : Nat → Nat → Prop)
    (r : Nat) : Set Nat :=
  (cell r).usedNodes (node r) (chosen r) (cell r).validCells

theorem mem_numberedNodes {r k : Nat} : k ∈ numberedNodes node cell chosen r ↔
    (node r).Owned k ∧ ∃ c, (cell r).Live c ∧ chosen r c ∧
      ∃ l, l < (cell r).nodePer ∧ ((cell r).c2n c l).toNat = k := by
  simp [numberedNodes, RefCell.usedNodes, RefCell.mem_validCells]

theorem CellsHeld.numbered_live (h : CellsHeld p node cell name) :
    ∀ r, r < p → ∀ k ∈ numberedNodes node cell chosen r, (node r).Live k ∧ (node r).Owned k := by
  intro r hr k hk
  obtain ⟨hown, c, hc, -, l, hl, rfl⟩ := mem_numberedNodes.mp hk
  exact ⟨(h.nodes r hr c hc l hl).2, hown⟩

/-- Every node of a chosen cell is numbered by its owner. -/
theorem CellsHeld.ownGlobals_numbered (h : CellsHeld p node cell name)
    (hd : Distributed p node) (hchosen : ChosenByName p cell chosen name) :
    ownGlobals p node (numberedNodes node cell chosen) = usedGlobals p node cell chosen := by
  ext g
  constructor
  · rintro ⟨r, k, hr, hk, rfl⟩
    obtain ⟨-, c, hc, hin, l, hl, rfl⟩ := mem_numberedNodes.mp hk
    exact ⟨r, c, hr, hc, hin, RefCell.nodeGlobal_mem_key (node r) c hl⟩
  · rintro ⟨r, c, hr, hc, hin, hg⟩
    obtain ⟨l, hl, rfl⟩ := RefCell.mem_key.mp hg
    have hlive := (h.nodes r hr c hc l hl).2
    have hq := (h.owner_slot hd hr hlive).1
    obtain ⟨c', hc', hname⟩ := h.held r hr c hc l hl
    obtain ⟨q, hqdef⟩ : ∃ q, q = (node r).part ((cell r).c2n c l).toNat := ⟨_, rfl⟩
    rw [← hqdef] at hq hc' hname
    -- the copy of the cell on the owner has the node
    rw [h.copies r q hr hq c c' hc hc' hname.symm] at hg
    obtain ⟨l', hl', hglobal⟩ := RefCell.mem_key.mp hg
    have hlive' := (h.nodes q hq c' hc' l' hl').2
    refine ⟨q, ((cell q).c2n c' l').toNat, hq, ?_, hglobal⟩
    refine mem_numberedNodes.mpr ⟨?_, c', hc', ?_, l', hl', rfl⟩
    · rw [RefNode.Owned, h.rank q hq]
      exact hqdef.trans (h.parts q r hq hr _ _ hlive' hlive hglobal).symm
    · exact (hchosen q r hq hr c' c hc' hc hname).mpr hin

variable [∀ r, DecidablePred (chosen r)]

/-- A cell is counted on the rank of its part, and there once. -/
theorem CellsHeld.counted_bijOn (h : CellsHeld p node cell name) (hd : Distributed p node)
    (hchosen : ChosenByName p cell chosen name) :
    ((chosenNames p cell chosen name).ncard : Int) =
      (start (fun r => ((cell r).countedCells (node r) (chosen r)).length) p : Nat) := by
  have hnumber : ∀ r, r < p → Set.BijOn
      (fun c => (((cell r).countedCells (node r) (chosen r)).idxOf c : Int))
      {c | c ∈ (cell r).countedCells (node r) (chosen r)}
      (Set.Ico 0 (((cell r).countedCells (node r) (chosen r)).length : Int)) :=
    fun r _ => bijOn_idxOf ((RefCell.nodup_validCells _).filter _)
  have hpart : ∀ r q, r < p → q < p → ∀ c c', (cell r).Live c → (cell q).Live c' →
      name r c = name q c' → (cell r).cellPart (node r) c = (cell q).cellPart (node q) c' :=
    fun r q hr hq c c' hc hc' hname => h.toPartitioned.cellPart_eq hr hq
      (fun i hi => (h.nodes r hr c hc i hi).2) (fun i hi => (h.nodes q hq c' hc' i hi).2)
      (h.copies r q hr hq c c' hc hc' hname)
  have hinj : Set.InjOn (fun x : Nat × Nat => name x.1 x.2)
      {x | x.1 < p ∧ x.2 ∈ (cell x.1).countedCells (node x.1) (chosen x.1)} := by
    rintro ⟨r, c⟩ ⟨hr, hc⟩ ⟨q, c'⟩ ⟨hq, hc'⟩ hname
    obtain ⟨hlive, -, hown⟩ := RefCell.mem_countedCells.mp hc
    obtain ⟨hlive', -, hown'⟩ := RefCell.mem_countedCells.mp hc'
    have hsame := hpart r q hr hq c c' hlive hlive' hname
    obtain rfl : r = q := by rw [← h.rank r hr, ← h.rank q hq, hown, hown', hsame]
    rw [h.once r hr c c' hlive hlive' hname]
  obtain ⟨value, -, hbij⟩ := exists_bijOn_key (bijOn_start hnumber) hinj
  have hnames : (fun x : Nat × Nat => name x.1 x.2) ''
      {x | x.1 < p ∧ x.2 ∈ (cell x.1).countedCells (node x.1) (chosen x.1)} =
      chosenNames p cell chosen name := by
    ext a
    constructor
    · rintro ⟨⟨r, c⟩, ⟨hr, hc⟩, rfl⟩
      obtain ⟨hlive, hin, -⟩ := RefCell.mem_countedCells.mp hc
      exact ⟨r, c, hr, hlive, hin, rfl⟩
    · rintro ⟨r, c, hr, hc, hin, rfl⟩
      obtain ⟨hlt, -⟩ := (cell r).smallestGlobalNode_spec (node r) c
      have hlive := (h.nodes r hr c hc _ hlt).2
      have hq := (h.owner_slot hd hr hlive).1
      obtain ⟨c', hc', hname⟩ := h.held r hr c hc _ hlt
      refine ⟨(_, c'), ⟨hq, RefCell.mem_countedCells.mpr ⟨hc', ?_, ?_⟩⟩, hname⟩
      · exact (hchosen _ r hq hr c' c hc' hc hname).mpr hin
      · rw [h.rank _ hq]
        exact (hpart _ r hq hr c' c hc' hc hname).symm
  have hall : Set.BijOn value ((fun x : Nat × Nat => name x.1 x.2) ''
      {x | x.1 < p ∧ x.2 ∈ (cell x.1).countedCells (node x.1) (chosen x.1)}) _ := hbij
  rw [hnames] at hall
  exact ncard_of_bijOn (Int.natCast_nonneg _) hall

/-- **The compact numbering** of the nodes of the chosen cells. -/
theorem CellsHeld.compactChosen_run (hp : 0 < p) (h : CellsHeld p node cell name)
    (hd : Distributed p node) (hchosen : ChosenByName p cell chosen name)
    (hghost : p ≤ 1 ∨ ∀ r, r < p → requestCount p node r ≤ refIntMax)
    (toOffset : Int → Except Status Int)
    (hoffset : ∀ n, n ≤ ((usedGlobals p node cell chosen).ncard : Int) → toOffset n = .ok n)
    (mem : Nat → GhostMemory Int) :
    Yields p (fun r => (cell r).compactChosen p (node r) (chosen r) toOffset (mem r))
      (Compacted p node cell chosen name) := by
  choose done hdone hncell hgiven using fun r =>
    RefCell.compactLoop_ok (cell r) (node r) (chosen r)
  obtain ⟨count, hcount⟩ : ∃ count : Nat → Nat, ∀ r, (done r).numbered.1 = (count r : Int) :=
    ⟨fun r => (done r).numbered.1.toNat, fun r => (Int.toNat_of_nonneg (hgiven r).nonneg).symm⟩
  have hsum : ∀ m, m ≤ p → ∑ proc ∈ Finset.range m,
      onRanks p (fun r => (done r).numbered.1) proc = (start count m : Nat) := by
    intro m hm
    rw [start, Nat.cast_sum]
    apply Finset.sum_congr rfl
    intro q hq
    rw [onRanks_of_lt _ ((Finset.mem_range.mp hq).trans_le hm), hcount]
  -- the numbers of the owners, and what the exchange makes of them
  let vector : Nat → Nat → Int := fun r =>
    RefCell.shiftNumbers (node r) (start count r : Nat) (done r).numbered.2
  obtain ⟨l2c, hl2c, hrefreshed⟩ := hd.ghostGlob_run hp hghost vector mem
  have hnumber : ∀ r, r < p → Set.BijOn (done r).numbered.2 (numberedNodes node cell chosen r)
      (Set.Ico 0 (count r : Int)) := by
    intro r _
    rw [← hcount]
    exact (hgiven r).bijOn
  obtain ⟨value, hbij, -, hall⟩ := h.toPartitioned.numbers_of_refreshed hd _ h.numbered_live hnumber
    (fun r hr k hk => by
      have hne : (done r).numbered.2 k ≠ refEmpty := fun he =>
        ((hgiven r).eq_empty_iff (by decide) k).mp he hk
      rw [add_comm]
      exact if_pos ⟨(h.numbered_live r hr k hk).1.1, hne⟩)
    (fun r hr k hk howned hnot => by
      have hnone := (hgiven r).other k hnot
      exact (if_neg fun hcond => hcond.2 hnone).trans hnone) hrefreshed
  rw [h.ownGlobals_numbered hd hchosen] at hbij hall
  have hcard : ((usedGlobals p node cell chosen).ncard : Int) = (start count p : Nat) :=
    ncard_of_bijOn (Int.natCast_nonneg _) hbij
  have hrun : Runs p (fun r => (cell r).compactChosen p (node r) (chosen r) toOffset (mem r))
      fun r => ⟨(start count p : Nat), ∑ q ∈ Finset.range p, ((done q).ncell : Int), l2c r⟩ := by
    refine .allsum (fun r => ((done r).ncell : Int)) (fun r ncellGlobal =>
      .allgather (done r).numbered.1 fun counts =>
        (Prog.lift (toOffset (∑ proc ∈ Finset.range (node r).rank, counts proc))).bind fun offset =>
          (ghostGlob p (node r) (RefCell.shiftNumbers (node r) offset (done r).numbered.2) 1
            (mem r)).bind fun l2c => .ret ⟨∑ proc ∈ Finset.range p, counts proc, ncellGlobal, l2c⟩)
      (fun r _ => by rw [RefCell.compactChosen, hdone r]; rfl) ?_
    refine .allgather _ _ (fun r _ => rfl) ?_
    refine Runs.congr (hl2c.bind (f := fun r l2c => .ret ⟨(start count p : Nat),
      ∑ q ∈ Finset.range p, ((done q).ncell : Int), l2c⟩) (.ret fun r _ => rfl)) ?_
    intro r hr
    have hle : ((start count r : Nat) : Int) ≤ (usedGlobals p node cell chosen).ncard := by
      rw [hcard]
      exact Int.ofNat_le.mpr (start_le hr.le)
    rw [h.rank r hr, hsum r hr.le, hsum p le_rfl, hoffset _ hle]
    rfl
  apply hrun.yields
  intro out hout
  refine ⟨⟨value, ?_, ?_⟩, ?_, ?_⟩
  · rw [hcard]
    exact hbij
  · intro r hr k hk
    rw [hout r hr]
    exact hall r hr k hk
  · intro r hr
    rw [hout r hr, hcard]
  · intro r hr
    rw [hout r hr, h.counted_bijOn hd hchosen]
    simp only [hncell, start, Nat.cast_sum]

end Compact

/-- **`ref_grid_compact_cell_id_nodes`** numbers the nodes of the cells with one
id, as long as their number is a `REF_INT`. -/
theorem compact_cell_id_nodes {κ : Type} {p : Nat} (hp : 0 < p) {node : Nat → RefNode D}
    {cell : Nat → RefCell} {name : Nat → Nat → κ} (h : CellsHeld p node cell name)
    (hd : Distributed p node) (cellId : Int)
    (hid : ∀ r, r < p → (cell r).cellType.lastNodeIsAnId)
    (hchosen : ChosenByName p cell (fun r c => cellId = (cell r).c2n c (cell r).nodePer) name)
    (hghost : p ≤ 1 ∨ ∀ r, r < p → requestCount p node r ≤ refIntMax)
    (hfit : (usedGlobals p node cell fun r c => cellId = (cell r).c2n c (cell r).nodePer).ncard ≤
      refIntMax) (mem : Nat → GhostMemory Int) :
    Yields p (fun r => (cell r).compactCellIdNodes p (node r) cellId (mem r))
      (Compacted p node cell (fun r c => cellId = (cell r).c2n c (cell r).nodePer) name) := by
  have hrun := h.compactChosen_run hp hd hchosen hghost
    (fun offset => if (refIntMax : Int) < offset then .error .undefined else .ok offset)
    (fun n hn => if_neg (by omega)) mem
  obtain ⟨out, hout⟩ := hrun.1
  have hall : Runs p (fun r => (cell r).compactCellIdNodes p (node r) cellId (mem r)) out :=
    hout.congr fun r hr => by rw [RefCell.compactCellIdNodes, if_pos (hid r hr)]
  exact hall.yields fun out' hout' => hrun.2 out' (hout.congr_out hout')

section Shared

variable {p : Nat}

theorem sharedStore_partitioned {m : Nat} (hp : 0 < p) (hm : m ≤ refIntMax) :
    Partitioned p (sharedStore m) := by
  have h := sharedStore_distributed hp hm
  exact ⟨h.inv, h.rank, fun r q _ _ i j _ _ _ => rfl⟩

end Shared

end RefineMesh
