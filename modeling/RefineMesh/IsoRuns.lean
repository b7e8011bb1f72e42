import Mathlib.Tactic
import RefineMesh.CellRows
import RefineMesh.CutTable
import RefineMesh.Iso
import RefineMesh.NodeRuns
import RefineMesh.NodeSyncRuns
import RefineMesh.SubdivRuns

/-!
# The isosurface on one rank

On one rank the exchanges of `ref_iso_insert` change nothing.  The loop over
the edges makes one node for each edge on which the field changes its sign, and
the tables for triangles and tets glue the cells of the surface along the
facets of the mesh.
-/

namespace RefineMesh

open ArrayLoop Segments Spmd CutTable

variable {D : Type}

/-! ## The calls on one rank -/

/-- What a synchronization of the globals leaves alone. -/
structure SameNodes (s s' : RefNode D) : Prop where
  rank : s'.rank = s.rank
  n : s'.n = s.n
  max : s'.max = s.max
  part : s'.part = s.part
  real : s'.real = s.real

namespace RefNode

/-- `ref_node_shift_new_globals` on one rank. -/
theorem shiftNewGlobals_alone {s : RefNode D} (hrank : s.rank = 0)
    (hnew : s.newNGlobal - s.oldNGlobal ≤ refIntMax) :
    (s.shiftNewGlobals 1).alone = some (s.initializeNGlobal s.newNGlobal) := by
  rw [shiftNewGlobals, if_neg (not_lt.mpr hnew)]
  simp only [Prog.alone, hrank, Finset.range_zero, Finset.sum_empty, Finset.range_one,
    Finset.sum_singleton, shiftNew, if_true, onRanks_of_lt _ Nat.one_pos, sub_add_cancel]

/-- **`ref_node_synchronize_globals` on one rank** succeeds. -/
theorem synchronizeGlobals_alone {s : RefNode D} (hrank : s.rank = 0)
    (hnew : s.newNGlobal - s.oldNGlobal ≤ refIntMax) (hunused : s.nUnused < refIntMax)
    (mem : Nat → Int) :
    ∃ s', (s.synchronizeGlobals 1 mem).alone = some s' ∧ SameNodes s s' := by
  have hcounts : ∀ m : Nat, start (fun part => (onRanks 1 (fun _ => (m : Int)) part).toNat) 1 = m := by
    intro m
    simp [start, onRanks]
  have hparts : ∀ counts : Nat → Nat, ∀ chunk,
      eliminateActiveParts 1 counts chunk 0 = .ok (1, counts 0) := by
    intro counts chunk
    simp [eliminateActiveParts, activePartsLoop]
  rw [synchronizeGlobals, synchronizeGlobalsBy, Prog.alone_bind, shiftNewGlobals_alone hrank hnew,
    Option.bind_some, eliminateUnusedGlobalsBy]
  simp only [Prog.alone]
  rw [hcounts, if_neg ?_, Prog.alone_bind]
  · simp only [eliminateRounds, Nat.zero_lt_one, if_true, hparts, Prog.lift_ok,
      Prog.ret_bind, Prog.alone, Option.bind_some]
    exact ⟨_, rfl, rfl, rfl, rfl, rfl, rfl⟩
  · have hsame : (s.initializeNGlobal s.newNGlobal).nUnused = s.nUnused := rfl
    rw [eliminateChunk, Nat.div_one, hsame]
    unfold refIntMax at *
    omega

end RefNode

/-! ## Drawing a new node -/

namespace RefNode

/-- A store that has only ever drawn its globals: they are `0, .., n - 1`. -/
structure Drawing (s : RefNode D) : Prop where
  inv : s.Inv
  new : s.newNGlobal = s.n
  unused : s.nUnused = 0
  below : ∀ k, s.Live k → s.global k < s.n

/-- The store with one node more. -/
structure Drawn (s s' : RefNode D) (node : Nat) : Prop where
  drawing : s'.Drawing
  dead : ¬ s.Live node
  live : ∀ k, s'.Live k ↔ s.Live k ∨ k = node
  n : s'.n = s.n + 1
  rank : s'.rank = s.rank
  old : s'.oldNGlobal = s.oldNGlobal
  part : s'.part node = s.rank
  keeps : ∀ k, k ≠ node → s'.part k = s.part k ∧ s'.real k = s.real k
  room : s'.max ≤ Nat.max s.max (s.n + Nat.max 5000 (3 * s.n / 2))

/-- **The next global is a new one** for such a store. -/
theorem Drawing.draw [RefDbl D] {s : RefNode D} (h : s.Drawing)
    (hfit : s.n + Nat.max 5000 (3 * s.n / 2) ≤ refIntMax) (hlog : IdentityHasLog D) :
    ∃ s0 s1 node, s.nextGlobal = .ok (s0, (s.n : Int)) ∧ s0.add s.n = .ok (s1, node) ∧
      Drawn s s1 node := by
  have hnext : s.nextGlobal = .ok ({ s with newNGlobal := s.newNGlobal + 1 }, (s.n : Int)) := by
    have hne : s.newNGlobal ≠ refEmpty := by
      rw [h.new]
      exact natCast_ne_refEmpty _
    rw [nextGlobal, if_neg (by rw [h.unused]; omega)]
    simp only [hne, if_false]
    rw [← h.new]
  set s0 : RefNode D := { s with newNGlobal := s.newNGlobal + 1 } with hs0
  have hinv0 : s0.Inv := Ledger.nextGlobal_inv h.inv hnext
  obtain ⟨s1, node, hadd, hmax⟩ := add_ok hinv0 (Int.natCast_nonneg s.n) hfit hlog
  obtain ⟨hinv1, hlive1, hglobal1, hcase⟩ := add_spec hinv0 hadd
  have hadds : AddsSlot s0 s1 s.n node := by
    rcases hcase with rfl | ⟨_, hadds⟩
    · exact absurd hglobal1 (h.below node hlive1).ne
    · exact hadds
  obtain ⟨max1, global1, blank1, row, sorted1, local1, hframe⟩ := hadds.frame
  refine ⟨s0, s1, node, hnext, hadd, ⟨hinv1, ?_, ?_, ?_⟩, hadds.dead, hadds.live, hadds.n, ?_, ?_,
    ?_, ?_, hmax⟩
  · rw [hadds.n, hframe]
    change s.newNGlobal + 1 = ((s.n + 1 : Nat) : Int)
    rw [h.new]
    rfl
  · rw [hframe]
    exact h.unused
  · intro k hk
    have hn : s1.n = s.n + 1 := hadds.n
    rw [hn]
    rcases (hadds.live k).mp hk with hk' | rfl
    · have hlt : s0.global k < s.n := h.below k hk'
      rw [hadds.global_old k hk']
      omega
    · rw [hadds.global_new]
      omega
  · rw [hframe]
  · rw [hframe]
  · rw [hframe]
    exact Function.update_self _ _ _
  · intro k hk
    rw [hframe]
    exact ⟨Function.update_of_ne hk _ _, Function.update_of_ne hk _ _⟩

/-- The coordinates are no part of the allocator. -/
theorem Drawn.setReal {s s' : RefNode D} {node : Nat} (h : Drawn s s' node) (row : Nat → D) :
    Drawn s { s' with real := Function.update s'.real node row } node := by
  obtain ⟨hdraw, hdead, hlive, hn, hrank, hold, hpart, hkeeps, hroom⟩ := h
  have hinv : RefNode.Inv { s' with real := Function.update s'.real node row } :=
    ⟨hdraw.inv.toSlotInv.congr rfl rfl rfl rfl, hdraw.inv.ascending, hdraw.inv.aligned,
      hdraw.inv.covers⟩
  refine ⟨⟨hinv, hdraw.new, hdraw.unused, hdraw.below⟩, hdead, hlive, hn, hrank, hold, hpart, ?_,
    hroom⟩
  intro k hk
  exact ⟨(hkeeps k hk).1, (Function.update_of_ne hk _ _).trans (hkeeps k hk).2⟩

end RefNode

/-! ## The nodes of the surface -/

section Points

variable [RefIsoDbl D]

/-- This rank makes a node on the edge. -/
def RefEdge.Cuts (s : RefEdge) (refNode : RefNode D) (field : Nat → D) (edge : Nat) : Prop :=
  refNode.rank = s.edgePart refNode edge ∧ Crosses field (s.endNode edge 0) (s.endNode edge 1)

/-- A coordinate of the point on an edge. -/
def RefEdge.isoPoint (s : RefEdge) (refNode : RefNode D) (field : Nat → D) (edge i : Nat) : D :=
  isoBlend (isoWeight field (s.endNode edge 0) (s.endNode edge 1))
    (refNode.real (s.endNode edge 0) i) (refNode.real (s.endNode edge 1) i)

/-- The nodes of the surface and the edges they are on. -/
structure PointsOn (s : RefEdge) (refNode : RefNode D) (field : Nat → D) (edges : Nat → Prop)
    (isoNode : RefNode D) (newNode : Nat → Int) : Prop where
  blank : ∀ e, ¬ edges e → newNode e = refEmpty
  made : ∀ e, edges e → ∃ k : Nat, newNode e = k ∧ isoNode.Live k ∧
    isoNode.part k = refNode.rank ∧ ∀ i, i < 3 → isoNode.real k i = s.isoPoint refNode field e i
  once : ∀ e e', edges e → newNode e = newNode e' → e = e'
  onto : ∀ k, isoNode.Live k → ∃ e, edges e ∧ newNode e = (k : Int)

/-- One more edge gets a node. -/
theorem PointsOn.insert {s : RefEdge} {refNode : RefNode D} {field : Nat → D} {edges : Nat → Prop}
    {isoNode isoNode' : RefNode D} {newNode : Nat → Int} {node edge : Nat}
    (h : PointsOn s refNode field edges isoNode newNode) (hdrawn : RefNode.Drawn isoNode isoNode' node)
    (hrank : isoNode.rank = refNode.rank) (hedge : ¬ edges edge)
    (hreal : ∀ i, i < 3 → isoNode'.real node i = s.isoPoint refNode field edge i) :
    PointsOn s refNode field (fun e => edges e ∨ e = edge) isoNode'
      (Function.update newNode edge node) := by
  have hother : ∀ e, edges e → e ≠ edge := fun e he hee => hedge (hee ▸ he)
  -- a node that is there is not the new one
  have hdiff : ∀ e, e ≠ edge → newNode e ≠ (node : Int) := by
    intro e _ he
    by_cases hin : edges e
    · obtain ⟨k, hk, hlive, _⟩ := h.made e hin
      rw [hk] at he
      exact hdrawn.dead (Int.natCast_inj.mp he ▸ hlive)
    · rw [h.blank e hin] at he
      exact refEmpty_ne_natCast node he
  constructor
  · intro e he
    rw [not_or] at he
    rw [Function.update_of_ne he.2]
    exact h.blank e he.1
  · intro e he
    rcases he with he | rfl
    · obtain ⟨k, hk, hlive, hpart, hpoint⟩ := h.made e he
      have hkn : k ≠ node := fun heq => hdrawn.dead (heq ▸ hlive)
      refine ⟨k, ?_, (hdrawn.live k).mpr (Or.inl hlive), ?_, ?_⟩
      · rw [Function.update_of_ne (hother e he)]
        exact hk
      · rw [(hdrawn.keeps k hkn).1]
        exact hpart
      · rw [(hdrawn.keeps k hkn).2]
        exact hpoint
    · exact ⟨node, Function.update_self _ _ _, (hdrawn.live node).mpr (Or.inr rfl),
        hdrawn.part.trans hrank, hreal⟩
  · intro e e' he heq
    by_cases hee : e = edge
    · by_cases hee' : e' = edge
      · rw [hee, hee']
      · rw [hee, Function.update_self, Function.update_of_ne hee'] at heq
        exact absurd heq.symm (hdiff e' hee')
    · have he0 : edges e := he.resolve_right hee
      by_cases hee' : e' = edge
      · rw [hee', Function.update_self, Function.update_of_ne hee] at heq
        exact absurd heq (hdiff e hee)
      · rw [Function.update_of_ne hee, Function.update_of_ne hee'] at heq
        exact h.once e e' he0 heq
  · intro k hk
    rcases (hdrawn.live k).mp hk with hk' | rfl
    · obtain ⟨e, hin, he⟩ := h.onto k hk'
      refine ⟨e, Or.inl hin, ?_⟩
      rw [Function.update_of_ne (hother e hin)]
      exact he
    · exact ⟨edge, Or.inr rfl, Function.update_self _ _ _⟩

theorem PointsOn.congr {s : RefEdge} {refNode : RefNode D} {field : Nat → D}
    {edges edges' : Nat → Prop} {isoNode : RefNode D} {newNode : Nat → Int}
    (h : PointsOn s refNode field edges isoNode newNode) (heq : ∀ e, edges' e ↔ edges e) :
    PointsOn s refNode field edges' isoNode newNode := by
  rwa [show edges' = edges from funext fun e => propext (heq e)]

/-- The loop over the edges after the edges of `done`. -/
structure IsoPoints (s : RefEdge) (refNode : RefNode D) (field : Nat → D) (done : List Nat)
    (acc : RefNode D × (Nat → Int)) : Prop where
  drawing : acc.1.Drawing
  rank : acc.1.rank = refNode.rank
  old : acc.1.oldNGlobal = 0
  size : acc.1.n ≤ done.length
  room : acc.1.max ≤ 3 * done.length + 5020
  points : PointsOn s refNode field (fun e => e ∈ done ∧ s.Cuts refNode field e) acc.1 acc.2

theorem isoPoints_start (mem : RefNode D) (s : RefEdge) (refNode : RefNode D) (field : Nat → D) :
    IsoPoints s refNode field []
      ((RefNode.create mem refNode.rank).initializeNGlobal 0, fun _ => refEmpty) := by
  have hdead := RefNode.create_dead mem refNode.rank
  have hinv := RefNode.create_inv mem refNode.rank
  have hno : ∀ e, ¬ (e ∈ ([] : List Nat) ∧ s.Cuts refNode field e) :=
    fun e he => absurd he.1 List.not_mem_nil
  refine ⟨⟨⟨hinv.toSlotInv.congr rfl rfl rfl rfl, hinv.ascending, hinv.aligned, hinv.covers⟩,
    rfl, rfl, fun k hk => absurd hk (hdead k)⟩, rfl, rfl, le_rfl, Nat.le_of_ble_eq_true rfl, ?_⟩
  exact ⟨fun _ _ => rfl, fun e he => absurd he (hno e), fun e _ he => absurd he (hno e),
    fun k hk => absurd hk (hdead k)⟩

/-- One edge: a node when the field changes its sign on it. -/
theorem IsoPoints.step {s : RefEdge} {refNode : RefNode D} {field : Nat → D} {done : List Nat}
    {acc : RefNode D × (Nat → Int)} (h : IsoPoints s refNode field done acc) (edge : Nat)
    (hnew : edge ∉ done) (hfit : 3 * done.length + 5000 ≤ refIntMax)
    (hlog : RefNode.IdentityHasLog D) :
    ∃ acc', s.isoNode refNode field acc edge = .ok acc' ∧
      IsoPoints s refNode field (done ++ [edge]) acc' := by
  have hsize := h.size
  have hroom := h.room
  have hlen : (done ++ [edge]).length = done.length + 1 := List.length_append
  by_cases hcut : s.Cuts refNode field edge
  swap
  · refine ⟨acc, if_neg hcut, h.drawing, h.rank, h.old, by omega, by omega, h.points.congr ?_⟩
    intro e
    rw [List.mem_append, List.mem_singleton]
    grind
  · have hmax : acc.1.n + Nat.max 5000 (3 * acc.1.n / 2) ≤ 3 * done.length + 5000 := by
      have : Nat.max 5000 (3 * acc.1.n / 2) ≤ 5000 + 3 * acc.1.n / 2 :=
        Nat.max_le.mpr ⟨by omega, by omega⟩
      omega
    obtain ⟨s0, s1, node, hnext, hadd, hdrawn⟩ := h.drawing.draw (hmax.trans hfit) hlog
    set xyz : Nat → D := fun i =>
      if i < 3 then s.isoPoint refNode field edge i else s1.real node i with hxyz
    have hdrawn' := hdrawn.setReal xyz
    set s2 : RefNode D := { s1 with real := Function.update s1.real node xyz }
    have hrun : s.isoNode refNode field acc edge =
        .ok (s2, Function.update acc.2 edge (node : Int)) := by
      have hcond : refNode.rank = s.edgePart refNode edge ∧
        Crosses field (s.endNode edge 0) (s.endNode edge 1) := hcut
      rw [RefEdge.isoNode, if_pos hcond]
      simp only [bind_eq_ok, hnext, Except.ok.injEq, exists_eq_left', hadd]
      rfl
    refine ⟨_, hrun, hdrawn'.drawing, hdrawn'.rank.trans h.rank, hdrawn'.old.trans h.old, ?_, ?_, ?_⟩
    · have hn : s2.n = acc.1.n + 1 := hdrawn'.n
      change s2.n ≤ _
      omega
    · exact hdrawn'.room.trans (Nat.max_le.mpr ⟨by omega, by omega⟩)
    · refine (h.points.insert hdrawn' h.rank (fun hin => hnew hin.1) ?_).congr ?_
      · intro i hi
        change Function.update s1.real node xyz node i = _
        rw [Function.update_self, hxyz]
        exact if_pos hi
      · intro e
        rw [List.mem_append, List.mem_singleton]
        grind

/-- **The loop over the edges**: one node for each edge on which the field
changes its sign. -/
theorem isoPoints_loop {s : RefEdge} {refNode : RefNode D} {field : Nat → D} {m : Nat}
    {acc : RefNode D × (Nat → Int)} (h : IsoPoints s refNode field [] acc)
    (hfit : 3 * m + 5000 ≤ refIntMax) (hlog : RefNode.IdentityHasLog D) :
    ∃ acc', (List.range m).foldlM (s.isoNode refNode field) acc = .ok acc' ∧
      IsoPoints s refNode field (List.range m) acc' := by
  induction m with
  | zero => exact ⟨acc, rfl, h⟩
  | succ m ih =>
      obtain ⟨acc1, hrun1, h1⟩ := ih (by omega)
      obtain ⟨acc2, hrun2, h2⟩ := h1.step m (by simp) (by simp; omega) hlog
      rw [← List.range_succ] at h2
      refine ⟨acc2, ?_, h2⟩
      rw [List.range_succ, List.foldlM_append, bind_eq_ok]
      exact ⟨acc1, hrun1, by simpa using hrun2⟩

/-! ## The exchanges on one rank -/

/-- A node that comes back is found where it is. -/
theorem RefEdge.isoGhostNode_same {isoNode : RefNode D} {newNode : Nat → Int}
    {edgeGlobal edgePart : Nat → Int} {edgeReal : Nat → D} {e k : Nat} (hinv : isoNode.Inv)
    (hk : newNode e = k) (hlive : isoNode.Live k) (hglobal : edgeGlobal e = isoNode.global k)
    (hpart : edgePart e = isoNode.part k)
    (hreal : ∀ i, i < refNodeRealPer → edgeReal (i + refNodeRealPer * e) = isoNode.real k i) :
    isoGhostNode edgeGlobal edgePart edgeReal (isoNode, newNode) e = .ok (isoNode, newNode) := by
  have hadd : isoNode.add (isoNode.global k) = .ok (isoNode, k) := RefNode.add_of_live hinv hlive
  have hne : isoNode.global k ≠ refEmpty := by
    have := hlive.2
    unfold refEmpty
    omega
  have hrow : (fun i => if i < refNodeRealPer then edgeReal (i + refNodeRealPer * e)
      else isoNode.real k i) = isoNode.real k := by
    funext i
    split
    · rename_i hi
      exact hreal i hi
    · rfl
  rw [isoGhostNode]
  simp only [hglobal, hne, ne_eq, not_false_iff, if_true, hadd, bind_eq_ok, Except.ok.injEq,
    exists_eq_left', hpart, Int.toNat_natCast, hrow, Function.update_eq_self, ← hk]

/-- **`ref_iso_ghost` on one rank** changes nothing. -/
theorem RefEdge.isoGhost_alone (mem : IsoMemory D) {s : RefEdge} {refNode isoNode : RefNode D}
    {newNode : Nat → Int} (hinv : isoNode.Inv) (hfit : refNodeRealPer * s.n ≤ refIntMax)
    (hnode : ∀ e, newNode e ≠ refEmpty → ∃ k : Nat, newNode e = k ∧ isoNode.Live k) :
    (s.isoGhost 1 mem refNode isoNode newNode).alone = some (isoNode, newNode) := by
  rw [isoGhost, if_neg (not_lt.mpr hfit)]
  simp only [ghostGlob, ghostInt, ghost, askOwners, ghostDbl, le_refl, if_true, Prog.ret_bind]
  apply Prog.alone_lift
  generalize List.range s.n = l
  induction l with
  | nil => rfl
  | cons e rest ih =>
      rw [List.foldlM_cons, bind_eq_ok]
      refine ⟨_, ?_, ih⟩
      by_cases hmine : e < s.n ∧ newNode e ≠ refEmpty ∧ isoNode.rank = s.edgePart refNode e
      · obtain ⟨k, hk, hlive⟩ := hnode e hmine.2.1
        apply isoGhostNode_same hinv hk hlive
        · rw [if_pos hmine, hk, Int.toNat_natCast]
        · rw [if_pos hmine, hk, Int.toNat_natCast]
        · intro i hi
          have hdiv : (i + refNodeRealPer * e) / refNodeRealPer = e := by
            unfold refNodeRealPer at *
            omega
          have hmod : (i + refNodeRealPer * e) % refNodeRealPer = i := by
            unfold refNodeRealPer at *
            omega
          rw [hdiv, hmod, if_pos hmine, hk, Int.toNat_natCast]
      · rw [isoGhostNode, if_neg (by rw [if_neg hmine]; simp)]

/-- `ref_iso_interp` on one rank succeeds. -/
theorem RefEdge.isoInterp_alone (mem : IsoMemory D) {s : RefEdge} {refNode isoNode : RefNode D}
    {newNode : Nat → Int} (field : Nat → D) {ldim : Nat} (input : Nat → D)
    (hfit : ldim * isoNode.max ≤ refIntMax) (hedges : ldim * s.n ≤ refIntMax) :
    ∃ out, (s.isoInterp 1 mem refNode isoNode newNode field ldim input).alone = some out := by
  by_cases hdim : ldim = 0
  · exact ⟨mem.out, by rw [isoInterp, if_pos hdim, Prog.alone_ret]⟩
  · rw [isoInterp, if_neg hdim, if_neg (by omega)]
    simp only [ghostDbl, le_refl, if_true, Prog.ret_bind, Prog.alone_ret]
    exact ⟨_, rfl⟩

end Points

/-! ## The tables -/

/-- The edges of a simplex whose corners differ in sign. -/
def edgeCut (ends : List (Nat × Nat)) (sign : Nat → Bool) (k : Nat) : Bool :=
  let e := ends.getD k (0, 0)
  sign e.1 != sign e.2

/-- The edges of a triangle in the order of `node0`, `node1`, `node2`. -/
def triEnds : List (Nat × Nat) := [(1, 2), (0, 2), (0, 1)]

/-- The pieces of a tet. -/
def tetPieces (cut : Nat → Bool) : List (List Nat) :=
  match tetCut cut with
  | .ok pieces => pieces
  | .error _ => []

/-- What the pieces of one simplex have in common. -/
def PiecesFit (size : Nat) (ends : List (Nat × Nat)) (cut : Nat → Bool) (corners : Nat)
    (pieces : List (List Nat)) : Prop :=
  (∀ K ∈ pieces, K.length = corners ∧ (∀ k ∈ K, k < ends.length ∧ cut k = true) ∧
    ∀ i, i < size → ∃ k ∈ K, i = (ends.getD k (0, 0)).1 ∨ i = (ends.getD k (0, 0)).2) ∧
  pieces.Pairwise (fun K L => ¬ ∀ k, k < ends.length → (k ∈ K ↔ k ∈ L)) ∧ pieces.length ≤ 2

instance (size : Nat) (ends : List (Nat × Nat)) (cut : Nat → Bool) (corners : Nat)
    (pieces : List (List Nat)) : Decidable (PiecesFit size ends cut corners pieces) :=
  inferInstanceAs (Decidable (_ ∧ _ ∧ _))

/-- If all edges of a side are cut, one piece has their points. -/
def OnePiece (cut : Nat → Bool) (pieces : List (List Nat)) (side : List Nat) : Prop :=
  (∀ k ∈ side, cut k = true) → pieces.countP (fun K => ∀ k ∈ side, k ∈ K) = 1

instance (cut : Nat → Bool) (pieces : List (List Nat)) (side : List Nat) :
    Decidable (OnePiece cut pieces side) :=
  inferInstanceAs (Decidable (_ → _))

/-- The signs of the first corners only. -/
def firstSigns (signs : List Bool) (i : Nat) : Bool := signs.getD i false

theorem edgeCut_firstSigns {ends : List (Nat × Nat)} {m : Nat} (sign : Nat → Bool)
    (hends : ∀ e ∈ ends, e.1 < m ∧ e.2 < m) (hm : 0 < m) :
    edgeCut ends sign = edgeCut ends (firstSigns ((List.range m).map sign)) := by
  have hfirst : ∀ i, i < m → firstSigns ((List.range m).map sign) i = sign i := by
    intro i hi
    simp [firstSigns, hi]
  funext k
  have hk : (ends.getD k (0, 0)).1 < m ∧ (ends.getD k (0, 0)).2 < m := by
    rw [List.getD_eq_getElem?_getD]
    cases hget : ends[k]? with
    | none => exact ⟨hm, hm⟩
    | some e => exact hends e (List.mem_of_getElem? hget)
  simp only [edgeCut, hfirst _ hk.1, hfirst _ hk.2]

/-- The table for triangles: each cut edge has one end of an edg. -/
theorem triCut_table : ∀ b0 b1 b2 : Bool,
    PiecesFit 3 triEnds (edgeCut triEnds (firstSigns [b0, b1, b2])) 2
      (triCut (edgeCut triEnds (firstSigns [b0, b1, b2]))) ∧
    ∀ k, k < 3 → OnePiece (edgeCut triEnds (firstSigns [b0, b1, b2]))
      (triCut (edgeCut triEnds (firstSigns [b0, b1, b2]))) [k] := by
  decide

/-- The table for tets: two cut edges that are not opposite have one triangle. -/
theorem tetCut_table : ∀ b0 b1 b2 b3 : Bool,
    succeeds (tetCut (edgeCut CellType.tet.e2n (firstSigns [b0, b1, b2, b3]))) = true ∧
    PiecesFit 4 CellType.tet.e2n (edgeCut CellType.tet.e2n (firstSigns [b0, b1, b2, b3])) 3
      (tetPieces (edgeCut CellType.tet.e2n (firstSigns [b0, b1, b2, b3]))) ∧
    ∀ k, k < 6 → ∀ l, l < 6 → k ≠ l → k + l ≠ 5 →
      OnePiece (edgeCut CellType.tet.e2n (firstSigns [b0, b1, b2, b3]))
        (tetPieces (edgeCut CellType.tet.e2n (firstSigns [b0, b1, b2, b3]))) [k, l] := by
  decide

theorem triCut_sound (sign : Nat → Bool) :
    PiecesFit 3 triEnds (edgeCut triEnds sign) 2 (triCut (edgeCut triEnds sign)) ∧
    ∀ k, k < 3 → OnePiece (edgeCut triEnds sign) (triCut (edgeCut triEnds sign)) [k] := by
  rw [edgeCut_firstSigns sign (m := 3) (by decide) (by decide)]
  exact triCut_table (sign 0) (sign 1) (sign 2)

theorem tetCut_sound (sign : Nat → Bool) :
    tetCut (edgeCut CellType.tet.e2n sign) = .ok (tetPieces (edgeCut CellType.tet.e2n sign)) ∧
    PiecesFit 4 CellType.tet.e2n (edgeCut CellType.tet.e2n sign) 3
      (tetPieces (edgeCut CellType.tet.e2n sign)) ∧
    ∀ k, k < 6 → ∀ l, l < 6 → k ≠ l → k + l ≠ 5 →
      OnePiece (edgeCut CellType.tet.e2n sign) (tetPieces (edgeCut CellType.tet.e2n sign)) [k, l] := by
  rw [edgeCut_firstSigns sign (m := 4) (by decide) (by decide)]
  obtain ⟨hok, htable⟩ := tetCut_table (sign 0) (sign 1) (sign 2) (sign 3)
  obtain ⟨pieces, hrun⟩ := exists_ok_of_succeeds hok
  refine ⟨?_, htable⟩
  rw [tetPieces]
  simp only [List.range, List.range.loop, List.map_cons, List.map_nil] at hrun ⊢
  rw [hrun]

/-! ## Filling the surface -/

/-- Rows that fit, one after the other. -/
theorem Filled.addRows {t : CellType} {rows : List (List Int)} {s : RefCell}
    (h : RefCell.Filled t rows s) (ht : t.sizePer ≤ 4) {more : List (Nat → Int)}
    (hlen : rows.length + more.length ≤ refIntMax / 4)
    (hnodes : ∀ nodes ∈ more, ∀ i, i < t.nodePer → 0 ≤ nodes i ∧ nodes i + 100 ≤ refIntMax) :
    ∃ s', RefSubdiv.addRows s more = .ok s' ∧
      RefCell.Filled t (rows ++ more.map fun nodes => (List.range t.sizePer).map nodes) s' := by
  induction more generalizing rows s with
  | nil => exact ⟨s, rfl, by simpa using h⟩
  | cons nodes rest ih =>
      rw [List.length_cons] at hlen
      obtain ⟨s1, cell, hrun, h1⟩ := h.add ht (by omega) (hnodes nodes List.mem_cons_self)
      obtain ⟨s2, hrest, h2⟩ := ih h1 (by rw [List.length_append, List.length_singleton]; omega)
        fun nodes' hn => hnodes nodes' (List.mem_cons_of_mem nodes hn)
      refine ⟨s2, ?_, by simpa using h2⟩
      rw [RefSubdiv.addRows, List.foldlM_cons, bind_eq_ok]
      exact ⟨s1, by rw [hrun]; rfl, hrest⟩

/-- A loop over cells that adds the rows of each. -/
theorem Filled.loop {t : CellType} {rows : List (List Int)} {s : RefCell}
    (h : RefCell.Filled t rows s) (ht : t.sizePer ≤ 4)
    {step : RefCell → Nat → Except Status RefCell} {cells : List Nat}
    (pieces : Nat → List (Nat → Int))
    (hstep : ∀ c ∈ cells, ∀ s, step s c = RefSubdiv.addRows s (pieces c))
    (hlen : rows.length + (cells.flatMap pieces).length ≤ refIntMax / 4)
    (hnodes : ∀ c ∈ cells, ∀ nodes ∈ pieces c, ∀ i, i < t.nodePer →
      0 ≤ nodes i ∧ nodes i + 100 ≤ refIntMax) :
    ∃ s', cells.foldlM step s = .ok s' ∧ RefCell.Filled t
      (rows ++ (cells.flatMap pieces).map fun nodes => (List.range t.sizePer).map nodes) s' := by
  induction cells generalizing rows s with
  | nil => exact ⟨s, rfl, by simpa using h⟩
  | cons c rest ih =>
      rw [List.flatMap_cons, List.length_append] at hlen
      obtain ⟨s1, hrun, h1⟩ := Filled.addRows h ht (by omega) (hnodes c List.mem_cons_self)
      obtain ⟨s2, hrest, h2⟩ := ih h1 (fun c' hc => hstep c' (List.mem_cons_of_mem c hc))
        (by rw [List.length_append, List.length_map]; omega)
        fun c' hc => hnodes c' (List.mem_cons_of_mem c hc)
      refine ⟨s2, ?_, by simpa using h2⟩
      rw [List.foldlM_cons, bind_eq_ok]
      exact ⟨s1, by rw [hstep c List.mem_cons_self, hrun], hrest⟩

end RefineMesh
