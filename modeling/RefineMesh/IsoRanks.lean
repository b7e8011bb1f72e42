import Mathlib.Tactic
import RefineMesh.CompactNumbers
import RefineMesh.IsoGrazed

/-!
# The isosurface on many ranks

Every rank runs `ref_iso_insert` up to its loop over the tets whatever the
field is; a new node is on an edge of a rank exactly when the field changes its
sign there.  What happens in that loop is decided by the tets of the rank.
-/

namespace Spmd

variable {Tag : Type} {Elem : Tag → Type} {ε α β : Type} {p : Nat}

/-- A program that returns how it ends. -/
def Prog.attempt : Prog Elem ε α → Prog Elem ε (Except ε α)
  | ret a => ret (.ok a)
  | fail e => ret (.error e)
  | allsum x k => allsum x fun v => (k v).attempt
  | allgather x k => allgather x fun v => (k v).attempt
  | allgatherv counts mine mem k => allgatherv counts mine mem fun v => (k v).attempt
  | alltoall send k => alltoall send fun v => (k v).attempt
  | alltoallv t send sendCount recvCount mem k =>
      alltoallv t send sendCount recvCount mem fun v => (k v).attempt
  | bcast t n buf k => bcast t n buf fun v => (k v).attempt
  | reduce t op n input mem k => reduce t op n input mem fun v => (k v).attempt

end Spmd

namespace RefineMesh

open ArrayLoop Segments Spmd

variable {D : Type}

/-! ## The exchanges -/

section Exchanges

variable {p : Nat} {node : Nat → RefNode D} {edge : Nat → RefEdge}

end Exchanges

/-! ## The ghosts of the surface -/

section Ghosts

variable [RefIsoDbl D]

/-- The loop over the edges of `ref_iso_ghost` after the edges of `done`; `m`
is the number of edges, `newNode0` and `global` are what the loop starts with. -/
structure GhostLoop (m : Nat) (newNode0 global : Nat → Int) (done : List Nat)
    (acc : RefNode D × (Nat → Int)) : Prop where
  inv : acc.1.Inv
  room : acc.1.max ≤ 3 * m + 5020
  onto : ∀ k, acc.1.Live k → ∃ e, e < m ∧ acc.2 e = (k : Int)
  slot : ∀ e, e < m → acc.2 e ≠ refEmpty → ∃ k : Nat, acc.2 e = k ∧ acc.1.Live k
  kept : ∀ e, e < m → newNode0 e ≠ refEmpty →
    acc.2 e = newNode0 e ∧ acc.1.global (newNode0 e).toNat = global e
  met : ∀ e ∈ done, acc.2 e ≠ refEmpty ↔ global e ≠ refEmpty
  rest : ∀ e, e ∉ done → acc.2 e = newNode0 e

omit [RefIsoDbl D] in
/-- There are at most as many nodes as edges. -/
theorem GhostLoop.size {m : Nat} {newNode0 global : Nat → Int} {done : List Nat}
    {acc : RefNode D × (Nat → Int)} (h : GhostLoop m newNode0 global done acc) : acc.1.n ≤ m := by
  rw [← h.inv.count, SlotList.liveCount]
  have hsub : (Finset.range acc.1.max).filter acc.1.Live ⊆
      (Finset.range m).image fun e => (acc.2 e).toNat := by
    intro k hk
    obtain ⟨e, he, hek⟩ := h.onto k (Finset.mem_filter.mp hk).2
    exact Finset.mem_image.mpr ⟨e, Finset.mem_range.mpr he, by rw [hek, Int.toNat_natCast]⟩
  calc ((Finset.range acc.1.max).filter acc.1.Live).card
      ≤ ((Finset.range m).image fun e => (acc.2 e).toNat).card := Finset.card_le_card hsub
    _ ≤ m := Finset.card_image_le.trans (Finset.card_range m).le

/-- One edge of the loop. -/
theorem GhostLoop.step {m : Nat} {newNode0 global part : Nat → Int} {real : Nat → D}
    {done : List Nat} {acc : RefNode D × (Nat → Int)} (h : GhostLoop m newNode0 global done acc)
    {e : Nat} (he : e < m) (hnew : e ∉ done) (hfit : 3 * m + 5020 ≤ refIntMax)
    (hglobal : global e ≠ refEmpty → 0 ≤ global e) (hlog : RefNode.IdentityHasLog D) :
    ∃ acc', RefEdge.isoGhostNode global part real acc e = .ok acc' ∧
      GhostLoop m newNode0 global (done ++ [e]) acc' := by
  have hstart : acc.2 e = newNode0 e := h.rest e hnew
  by_cases hempty : global e = refEmpty
  · refine ⟨acc, if_neg (not_not.mpr hempty), h.inv, h.room, h.onto, h.slot, h.kept, ?_, ?_⟩
    · intro e' he'
      rcases List.mem_append.mp he' with he' | he'
      · exact h.met e' he'
      · obtain rfl := List.mem_singleton.mp he'
        refine iff_of_false ?_ (not_not.mpr hempty)
        intro hne
        -- a node of the rank has a global
        rw [hstart] at hne
        obtain ⟨hkept, hg⟩ := h.kept e' he hne
        obtain ⟨k, hk, hlive⟩ := h.slot e' he (hkept ▸ hne)
        rw [← hkept, hk, Int.toNat_natCast, hempty] at hg
        have hnonneg := hlive.2
        rw [hg] at hnonneg
        exact absurd hnonneg (by decide)
    · intro e' he'
      exact h.rest e' fun hin => he' (List.mem_append_left _ hin)
  · have hsize := h.size
    have hbound : acc.1.n + Nat.max 5000 (3 * acc.1.n / 2) ≤ 3 * m + 5000 := by
      have : Nat.max 5000 (3 * acc.1.n / 2) ≤ 5000 + 3 * acc.1.n / 2 :=
        Nat.max_le.mpr ⟨by omega, by omega⟩
      omega
    obtain ⟨s1, node, hadd, hmax⟩ := RefNode.add_ok h.inv (hglobal hempty)
      (hbound.trans (by omega)) hlog
    obtain ⟨hinv, hlive, hnode, hcase⟩ := RefNode.add_spec h.inv hadd
    have hold : ∀ k, acc.1.Live k → s1.Live k ∧ s1.global k = acc.1.global k := by
      intro k hk
      rcases hcase with rfl | ⟨_, hadds⟩
      · exact ⟨hk, rfl⟩
      · exact ⟨(hadds.live k).mpr (Or.inl hk), hadds.global_old k hk⟩
    have hall : ∀ k, s1.Live k → acc.1.Live k ∨ k = node := by
      intro k hk
      rcases hcase with rfl | ⟨_, hadds⟩
      · exact Or.inl hk
      · exact (hadds.live k).mp hk
    -- an edge that has a node already gets that node again
    have hsame : newNode0 e ≠ refEmpty → newNode0 e = node := by
      intro hne
      obtain ⟨hkept, hg⟩ := h.kept e he hne
      obtain ⟨k, hk, hklive⟩ := h.slot e he (hkept ▸ hne)
      rw [← hkept, hk, Int.toNat_natCast] at hg
      obtain ⟨hk1, hkg⟩ := hold k hklive
      rw [← hkept, hk, hinv.distinct k node hk1 hlive (by rw [hkg, hg, hnode])]
    set s2 : RefNode D := { s1 with
      part := Function.update s1.part node (part e).toNat
      real := Function.update s1.real node fun i =>
        if i < refNodeRealPer then real (i + refNodeRealPer * e) else s1.real node i } with hs2
    have hrun : RefEdge.isoGhostNode global part real acc e =
        .ok (s2, Function.update acc.2 e (node : Int)) := by
      rw [RefEdge.isoGhostNode, if_pos hempty]
      simp only [hadd, bind, Except.bind]
      rfl
    refine ⟨_, hrun, ?_, ?_, ?_, ?_, ?_, ?_, ?_⟩
    · exact ⟨hinv.toSlotInv.congr rfl rfl rfl rfl, hinv.ascending, hinv.aligned, hinv.covers⟩
    · exact hmax.trans (Nat.max_le.mpr ⟨h.room, by omega⟩)
    · intro k hk
      rcases hall k hk with hk' | rfl
      · obtain ⟨e', he', hek⟩ := h.onto k hk'
        by_cases hee : e' = e
        · subst hee
          refine ⟨e', he', (Function.update_self _ _ _).trans ?_⟩
          rw [← hek, hstart]
          refine (hsame ?_).symm
          rw [← hstart, hek]
          exact natCast_ne_refEmpty k
        · exact ⟨e', he', (Function.update_of_ne hee _ _).trans hek⟩
      · exact ⟨e, he, Function.update_self _ _ _⟩
    · intro e' he' hne
      by_cases hee : e' = e
      · subst hee
        exact ⟨node, Function.update_self _ _ _, hlive⟩
      · simp only [Function.update_of_ne hee] at hne ⊢
        obtain ⟨k, hk, hklive⟩ := h.slot e' he' hne
        exact ⟨k, hk, (hold k hklive).1⟩
    · intro e' he' hne
      obtain ⟨hkept, hg⟩ := h.kept e' he' hne
      by_cases hee : e' = e
      · subst hee
        refine ⟨(Function.update_self _ _ _).trans (hsame hne).symm, ?_⟩
        rw [hsame hne, Int.toNat_natCast]
        exact hnode
      · refine ⟨(Function.update_of_ne hee _ _).trans hkept, ?_⟩
        obtain ⟨k, hk, hklive⟩ := h.slot e' he' (hkept ▸ hne)
        rw [← hkept, hk, Int.toNat_natCast] at hg ⊢
        exact ((hold k hklive).2).trans hg
    · intro e' he'
      by_cases hee : e' = e
      · subst hee
        simp only [Function.update_self]
        exact iff_of_true (natCast_ne_refEmpty node) hempty
      · rw [List.mem_append, List.mem_singleton, or_iff_left hee] at he'
        simp only [Function.update_of_ne hee]
        exact h.met e' he'
    · intro e' he'
      rw [List.mem_append, List.mem_singleton, not_or] at he'
      simp only [Function.update_of_ne he'.2]
      exact h.rest e' he'.1

/-- **The loop of `ref_iso_ghost`** gives a node to every edge with a global. -/
theorem GhostLoop.run {m : Nat} {newNode0 global part : Nat → Int} {real : Nat → D}
    {acc : RefNode D × (Nat → Int)} (h : GhostLoop m newNode0 global [] acc)
    (hfit : 3 * m + 5020 ≤ refIntMax) (hglobal : ∀ e, e < m → global e ≠ refEmpty → 0 ≤ global e)
    (hlog : RefNode.IdentityHasLog D) :
    ∃ acc', (List.range m).foldlM (RefEdge.isoGhostNode global part real) acc = .ok acc' ∧
      GhostLoop m newNode0 global (List.range m) acc' := by
  have hloop : ∀ l, l ≤ m → ∃ acc',
      (List.range l).foldlM (RefEdge.isoGhostNode global part real) acc = .ok acc' ∧
        GhostLoop m newNode0 global (List.range l) acc' := by
    intro l
    induction l with
    | zero => exact fun _ => ⟨acc, rfl, h⟩
    | succ l ih =>
        intro hl
        obtain ⟨acc1, hrun1, h1⟩ := ih (by omega)
        obtain ⟨acc2, hrun2, h2⟩ := h1.step (by omega) (by simp) hfit (hglobal l (by omega)) hlog
        rw [← List.range_succ] at h2
        refine ⟨acc2, ?_, h2⟩
        rw [List.range_succ, List.foldlM_append, bind_eq_ok]
        exact ⟨acc1, hrun1, by simpa using hrun2⟩
  exact hloop m le_rfl

end Ghosts

/-! ## The phases on all ranks -/

section Phases

variable [RefIsoDbl D] {p : Nat} {grid : Nat → RefGrid D} {field : Nat → Nat → D}

/-- Distributed grids with one field. -/
structure IsoDistributed (p : Nat) (grid : Nat → RefGrid D) (field : Nat → Nat → D) : Prop
    extends GridDistributed p grid where
  same : ∀ r q, r < p → q < p → ∀ i j, (grid r).node.Live i → (grid q).node.Live j →
    (grid r).node.global i = (grid q).node.global j → field r i = field q j

/-- The field changes its sign on an edge for all ranks that hold it. -/
theorem IsoDistributed.crosses_iff (h : IsoDistributed p grid field) {edge : Nat → RefEdge}
    (hd : EdgesDistributed p (fun r => (grid r).node) edge) {r q e e' : Nat} (hr : r < p)
    (hq : q < p) (he : e < (edge r).n) (he' : e' < (edge q).n)
    (hkey : (edge r).key (grid r).node e = (edge q).key (grid q).node e') :
    Crosses (field r) ((edge r).endNode e 0) ((edge r).endNode e 1) ↔
      Crosses (field q) ((edge q).endNode e' 0) ((edge q).endNode e' 1) := by
  have hsame : ∀ l l', l < 2 → l' < 2 →
      (edge r).endGlobal (grid r).node e l = (edge q).endGlobal (grid q).node e' l' →
      field r ((edge r).endNode e l) = field q ((edge q).endNode e' l') := by
    intro l l' hl hl' hglobal
    exact h.same r q hr hq _ _ (hd.ends r hr e he l hl).2 (hd.ends q hq e' he' l' hl').2 hglobal
  rw [RefEdge.key, RefEdge.key, Sym2.eq_iff] at hkey
  rcases hkey with ⟨h0, h1⟩ | ⟨h0, h1⟩
  · unfold Crosses
    rw [hsame 0 0 (by decide) (by decide) h0, hsame 1 1 (by decide) (by decide) h1]
  · rw [crosses_comm (a := (edge q).endNode e' 0)]
    unfold Crosses
    rw [hsame 0 1 (by decide) (by decide) h0, hsame 1 0 (by decide) (by decide) h1]

end Phases

/-! ## The whole command -/

/-- A mesh and a field on `p` ranks before the globals are synchronized: a node
of two ranks is one that stands for the same thing on both. -/
structure IsoGrids (p : Nat) (grid : Nat → RefGrid D) (field : Nat → Nat → D) (N : Nat)
    (k : Nat → Nat) : Prop where
  sync : Unsynchronized p (fun r => (grid r).node) N k
  parts : ∀ r q, r < p → q < p → ∀ i j, (grid r).node.Live i → (grid q).node.Live j →
    identity N r ((grid r).node.global i) = identity N q ((grid q).node.global j) →
      (grid r).node.part i = (grid q).node.part j
  same : ∀ r q, r < p → q < p → ∀ i j, (grid r).node.Live i → (grid q).node.Live j →
    identity N r ((grid r).node.global i) = identity N q ((grid q).node.global j) →
      field r i = field q j
  cells : ∀ r, r < p → (grid r).CellsInv
  nodes : ∀ r, r < p → ∀ t c, ((grid r).cell t).Live c → ∀ l, l < t.nodePer →
    0 ≤ ((grid r).cell t).c2n c l ∧ (grid r).node.Live (((grid r).cell t).c2n c l).toNat
  parts_lt : ∀ r, r < p → ∀ t c, ((grid r).cell t).Live c → ∀ l, l < t.nodePer →
    (grid r).node.part (((grid r).cell t).c2n c l).toNat < p
  held : ∀ r, r < p → ∀ t c, ((grid r).cell t).Live c → ∀ l, l < t.nodePer →
    let q := (grid r).node.part (((grid r).cell t).c2n c l).toNat
    ∃ c', ((grid q).cell t).Live c' ∧ ∀ m, m < t.nodePer →
      identity N q (((grid q).cell t).nodeGlobal (grid q).node c' m) =
        identity N r (((grid r).cell t).nodeGlobal (grid r).node c m)

section Command

variable [RefIsoDbl D] {p N : Nat} {k : Nat → Nat} {grid : Nat → RefGrid D}
  {field : Nat → Nat → D} {node : Nat → RefNode D}

omit [RefIsoDbl D] in
/-- After `ref_node_synchronize_globals` nodes are the same when their globals
are equal. -/
theorem IsoGrids.distributed (h : IsoGrids p grid field N k) {nGlobal : Int}
    (hsync : Synchronized p (fun r => (grid r).node) N nGlobal node)
    (hsame : ∀ r, r < p → RefNode.SameParts (grid r).node (node r)) :
    IsoDistributed p (fun r => { grid r with node := node r }) field := by
  have hpart : ∀ r, r < p → (node r).part = (grid r).node.part := fun r hr => (hsame r hr).1
  have hlive : ∀ r, r < p → ∀ i, (node r).Live i → (grid r).node.Live i :=
    fun r hr i => (hsync.slots r hr i).mp
  have hidentity : ∀ r q, r < p → q < p → ∀ i j, (node r).Live i → (node q).Live j →
      (node r).global i = (node q).global j →
        identity N r ((grid r).node.global i) = identity N q ((grid q).node.global j) :=
    fun r q hr hq i j hi hj => (hsync.consistent r q hr hq i j (hlive r hr i hi)
      (hlive q hq j hj)).mp
  constructor
  · refine ⟨⟨hsync.inv, fun r hr => (hsame r hr).2.1.trans (h.sync.rank r hr), ?_⟩,
      fun r hr => ⟨(h.cells r hr).type, (h.cells r hr).inv⟩, ?_, ?_, ?_⟩
    · intro r q hr hq i j hi hj hglobal
      change (node r).part i = (node q).part j
      rw [hpart r hr, hpart q hq]
      exact h.parts r q hr hq i j (hlive r hr i hi) (hlive q hq j hj)
        (hidentity r q hr hq i j hi hj hglobal)
    · intro r hr t c hc l hl
      obtain ⟨h0, hl'⟩ := h.nodes r hr t c hc l hl
      exact ⟨h0, (hsync.slots r hr _).mpr hl'⟩
    · intro r hr t c hc l hl
      change (node r).part _ < p
      rw [hpart r hr]
      exact h.parts_lt r hr t c hc l hl
    · intro r hr t c hc l hl
      change ∃ c', ((grid ((node r).part (((grid r).cell t).c2n c l).toNat)).cell t).Live c' ∧ _
      dsimp only
      rw [hpart r hr]
      obtain ⟨c', hc', hall⟩ := h.held r hr t c hc l hl
      have hq := h.parts_lt r hr t c hc l hl
      refine ⟨c', hc', fun m hm => ?_⟩
      exact (hsync.consistent _ r hq hr _ _ (h.nodes _ hq t c' hc' m hm).2
        (h.nodes r hr t c hc m hm).2).mpr (hall m hm)
  · intro r q hr hq i j hi hj hglobal
    exact h.same r q hr hq i j (hlive r hr i hi) (hlive q hq j hj)
      (hidentity r q hr hq i j hi hj hglobal)

end Command

/-! ## One tet with two zeros -/

/-- Positive at node 0, negative at node 1, zero at the other nodes. -/
def zerosFrom2 (k : Nat) : ℚ := if k = 0 then 1 else if k = 1 then -1 else 0

theorem fiveOnRank0_inv : fiveOnRank0.Inv := by
  refine ⟨⟨⟨[], rfl, List.nodup_nil, ?_⟩, ?_, ?_, by decide⟩, ?_, ?_, ?_⟩
  · intro k
    simp only [List.not_mem_nil, false_iff, not_and, not_not]
    exact fun _ => Int.natCast_nonneg k
  · rw [SlotList.liveCount, Finset.filter_true_of_mem]
    · exact Finset.card_range 5
    · exact fun k hk => (fiveOnRank0_live k).mpr (Finset.mem_range.mp hk)
  · exact fun i j _ _ heq => Int.natCast_inj.mp heq
  · exact fun i j hij _ => Int.ofNat_lt.mpr hij
  · exact fun i hi => ⟨(fiveOnRank0_live i).mpr hi, rfl⟩
  · exact fun k hk => ⟨k, (fiveOnRank0_live k).mp hk, rfl⟩

theorem fiveOnRank0_unsynchronized :
    Unsynchronized 1 (fun _ => fiveOnRank0) 5 fun _ => 0 := by
  have hholds : ∀ g, fiveOnRank0.Holds g → 0 ≤ g ∧ g < 5 := by
    intro g hg
    obtain ⟨k, hk, rfl⟩ := hg
    have hlt := (fiveOnRank0_live k).mp hk
    change (0 : Int) ≤ (k : Int) ∧ (k : Int) < 5
    omega
  have hnone : ∀ g, g ∉ fiveOnRank0.unusedList := fun g => List.not_mem_nil
  refine ⟨fun _ _ => fiveOnRank0_inv, fun r hr => (Nat.lt_one_iff.mp hr).symm, fun _ _ => rfl,
    fun _ _ => rfl, fun _ _ g hg => (hholds g hg).2, fun _ _ g hg => absurd hg (hnone g),
    fun _ _ => List.nodup_nil, fun _ _ _ _ _ g _ hg => absurd hg (hnone g),
    fun _ _ _ _ g _ hg => absurd hg (hnone g), fun _ _ g _ hg => absurd hg (hnone g), ?_, ?_⟩
  · intro g h0 hg
    refine Or.inl ⟨0, Nat.one_pos, g.toNat, (fiveOnRank0_live _).mpr (by omega), ?_⟩
    change ((g.toNat : Nat) : Int) = g
    omega
  · intro _ _ g hN hg
    simp only [Nat.cast_zero, add_zero] at hg
    omega

theorem tetsOnRank0_grids {tets : List (List Int)} (hfit : RefCell.RowsFit .tet tets)
    (hnodup : ∀ row ∈ tets, (row.take 4).Nodup) (hrange : ∀ row ∈ tets, ∀ v ∈ row, 0 ≤ v ∧ v < 5)
    (field : Nat → ℚ) :
    IsoGrids 1 (fun _ => tetsOnRank0 tets) (fun _ => field) 5 fun _ => 0 := by
  have hmesh := tetsOnRank0_mesh hfit hnodup hrange
  have hzero : ∀ r, r < 1 → r = 0 := fun r hr => Nat.lt_one_iff.mp hr
  have hglobal : ∀ r q i j, r < 1 → q < 1 → identity 5 r ((tetsOnRank0 tets).node.global i) =
      identity 5 q ((tetsOnRank0 tets).node.global j) → fiveOnRank0.Live i →
        fiveOnRank0.Live j → i = j := by
    intro r q i j _ _ heq hi hj
    have hi' := (fiveOnRank0_live i).mp hi
    have hj' := (fiveOnRank0_live j).mp hj
    have hold : ∀ r k, k < 5 → identity 5 r ((tetsOnRank0 tets).node.global k) =
        (none, (k : Int)) := by
      intro r k hk
      exact if_pos (by change (k : Int) < 5; omega)
    rw [hold r i hi', hold q j hj', Prod.mk.injEq, Int.natCast_inj] at heq
    exact heq.2
  have hcorner : ∀ t c, ((tetsOnRank0 tets).cell t).Live c → ∀ l, l < t.nodePer →
      0 ≤ ((tetsOnRank0 tets).cell t).c2n c l ∧
        fiveOnRank0.Live (((tetsOnRank0 tets).cell t).c2n c l).toNat := by
    intro t c hc l hl
    apply hmesh.nodes t c hc
    rw [← hmesh.cells.type t] at hl
    exact RefCell.mem_nodeList.mpr ⟨l, hl, rfl⟩
  constructor
  · exact fiveOnRank0_unsynchronized
  · exact fun _ _ _ _ _ _ _ _ _ => rfl
  · intro r q hr hq i j hi hj heq
    rw [hglobal r q i j hr hq heq hi hj]
  · exact fun _ _ => hmesh.cells
  · exact fun _ _ => hcorner
  · exact fun _ _ _ _ _ _ _ => Nat.one_pos
  · intro r hr t c hc l _
    exact ⟨c, hc, fun m _ => by rw [hzero r hr]; rfl⟩

/-- One tet of which one edge is cut. -/
theorem iso_insert_grazed_tet :
    IsoGrids 1 (fun _ => tetsOnRank0 [[0, 1, 2, 3]]) (fun _ => zerosFrom2) 5 (fun _ => 0) ∧
      (isoInsert 1 isoZero (tetsOnRank0 [[0, 1, 2, 3]]) false zerosFrom2 1
        fun _ => 0).attempt.alone.map (fun out => match out with
          | .ok _ => none
          | .error e => some e) = some (some .implement) :=
  ⟨tetsOnRank0_grids (by decide) (by decide) (by decide) zerosFrom2, by decide +kernel⟩

end RefineMesh
