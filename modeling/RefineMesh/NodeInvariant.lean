import Mathlib.Tactic
import RefineMesh.Node

/-!
# The representation invariant of the node store

The invariant comes in two layers.  `SlotInv` is about the slot array alone:
the blank list, the count and the distinctness of live globals.  `Inv` adds
the sorted pair.  The deferred removals keep only the first layer and
`rebuildSortedGlobal` restores the second from it.
-/

namespace RefineMesh

open SlotList

namespace RefNode

variable {D : Type}

/-- The invariant of the slot array. -/
structure SlotInv (s : RefNode D) : Prop where
  blank : FreeList index2next refEmpty s.global s.blank (fun k => k < s.max ∧ ¬ 0 ≤ s.global k)
  count : liveCount s.max s.Live = s.n
  distinct : ∀ i j, s.Live i → s.Live j → s.global i = s.global j → i = j
  fits : s.max ≤ refIntMax

/-- The invariant of the whole store. -/
structure Inv (s : RefNode D) : Prop extends SlotInv s where
  ascending : ∀ i j, i < j → j < s.n → s.sortedGlobal i < s.sortedGlobal j
  aligned : ∀ i, i < s.n → s.Live (s.sortedLocal i) ∧
    s.global (s.sortedLocal i) = s.sortedGlobal i
  covers : ∀ k, s.Live k → ∃ i, i < s.n ∧ s.sortedLocal i = k

theorem SlotInv.congr {s s' : RefNode D} (h : s.SlotInv) (hmax : s'.max = s.max)
    (hblank : s'.blank = s.blank) (hglobal : s'.global = s.global) (hn : s'.n = s.n) :
    s'.SlotInv := by
  have hlive : s'.Live = s.Live := by
    funext k
    simp only [Live, hmax, hglobal]
  refine ⟨?_, ?_, ?_, by rw [hmax]; exact h.fits⟩
  · rw [hmax, hblank, hglobal]
    exact h.blank
  · rw [hmax, hn, ← h.count]
    exact liveCount_congr fun k => by rw [hlive]
  · rw [hlive, hglobal]
    exact h.distinct

theorem Inv.nondecreasing {s : RefNode D} (h : s.Inv) :
    ∀ i j, i ≤ j → j < s.n → s.sortedGlobal i ≤ s.sortedGlobal j := by
  intro i j hij hj
  by_cases heq : i = j
  · rw [heq]
  · exact (h.ascending i j (by omega) hj).le

/-- **`ref_node_local` is exact.** -/
theorem Inv.nodeLocal_spec {s : RefNode D} (h : s.Inv) (g : Int) :
    (∃ k, s.nodeLocal g = .ok k ∧ s.Live k ∧ s.global k = g) ∨
      (s.nodeLocal g = .error .notFound ∧ ∀ k, s.Live k → s.global k ≠ g) := by
  rcases sortSearch_spec g h.nondecreasing with ⟨i, hi, hin, hval⟩ | ⟨hnone, habsent⟩
  · refine Or.inl ⟨s.sortedLocal i, by simp [nodeLocal, hi, Except.map], ?_⟩
    have hal := h.aligned i hin
    exact ⟨hal.1, hal.2.trans hval⟩
  · refine Or.inr ⟨by simp [nodeLocal, hnone, Except.map], fun k hk hkg => ?_⟩
    obtain ⟨i, hi, rfl⟩ := h.covers k hk
    exact habsent i hi ((h.aligned i hi).2.symm.trans hkg)

theorem Inv.nodeLocal_eq_ok_iff {s : RefNode D} (h : s.Inv) (g : Int) (k : Nat) :
    s.nodeLocal g = .ok k ↔ s.Live k ∧ s.global k = g := by
  rcases h.nodeLocal_spec g with ⟨j, hj, hlive, hg⟩ | ⟨hnone, habsent⟩
  · rw [hj]
    constructor
    · intro hjk
      rw [← Except.ok.inj hjk]
      exact ⟨hlive, hg⟩
    · rintro ⟨hk, hkg⟩
      rw [h.distinct j k hlive hk (hg.trans hkg.symm)]
  · rw [hnone]
    constructor
    · intro hk
      cases hk
    · rintro ⟨hk, hkg⟩
      exact absurd hkg (habsent k hk)

theorem Inv.nodeLocal_eq_notFound_iff {s : RefNode D} (h : s.Inv) (g : Int) :
    s.nodeLocal g = .error .notFound ↔ ∀ k, s.Live k → s.global k ≠ g := by
  rcases h.nodeLocal_spec g with ⟨j, hj, hlive, hg⟩ | ⟨hnone, habsent⟩
  · rw [hj]
    constructor
    · intro hk
      cases hk
    · intro hall
      exact absurd hg (hall j hlive)
  · exact ⟨fun _ => habsent, fun _ => hnone⟩

/-! ## Creation and growth -/

theorem linkFresh_neg {orig size k : Nat} {global : Nat → Int} (hk : orig ≤ k) (hk' : k < size) :
    linkFresh index2next refEmpty orig size global k < 0 := by
  rcases linkFresh_new index2next refEmpty global hk hk' with h | ⟨j, h⟩
  · rw [h]; simp [refEmpty]
  · rw [h]; exact index2next_neg j

theorem create_dead (mem : RefNode D) (rank k : Nat) : ¬ (create mem rank).Live k :=
  fun hk => absurd hk.2 (not_le.mpr (linkFresh_neg (Nat.zero_le k) hk.1))

theorem create_inv (mem : RefNode D) (rank : Nat) : (create mem rank).Inv := by
  have hneg : ∀ k, k < 20 → (create mem rank).global k < 0 :=
    fun k hk => linkFresh_neg (Nat.zero_le k) hk
  have hdead := create_dead mem rank
  refine ⟨⟨?_, ?_, fun i j hi => absurd hi (hdead i), by simp [create, refIntMax]⟩,
    fun i j _ hj => by simp [create] at hj, fun i hi => by simp [create] at hi,
    fun k hk => absurd hk (hdead k)⟩
  · refine (freeList_linkFresh _ _ mem.global (show 0 < 20 by omega)).congr (fun k => ?_)
      (fun _ _ => rfl)
    constructor
    · intro hk
      exact ⟨Nat.zero_le _, hk.1⟩
    · intro hk
      exact ⟨hk.2, not_le.mpr (hneg k hk.2)⟩
  · simp only [liveCount, hdead, Finset.filter_false, Finset.card_empty]
    rfl

/-- What growth does: the old slots keep their contents, the new ones are the
blank list. -/
theorem grow_spec {s s' : RefNode D} (h : s.SlotInv) (hblank : s.blank = refEmpty)
    (hrun : s.grow = .ok s') :
    s'.SlotInv ∧ s'.blank ≠ refEmpty ∧ (∀ k, s'.Live k ↔ s.Live k) ∧
      (∀ k, s.Live k → s'.global k = s.global k) ∧
      ∃ max global blank, s' = { s with max := max, global := global, blank := blank } := by
  simp only [grow] at hrun
  set size := s.max + Nat.max 5000 (3 * s.max / 2) with hsize
  have hgrow : s.max < size := by
    have : 5000 ≤ Nat.max 5000 (3 * s.max / 2) := Nat.le_max_left _ _
    omega
  by_cases hfit : refIntMax < size
  · simp [hfit] at hrun
  simp only [if_neg hfit, Except.ok.injEq] at hrun
  -- with the blank list exhausted every old slot is live
  have hfull : ∀ k, k < s.max → 0 ≤ s.global k := by
    intro k hk
    by_contra hneg
    exact (h.blank.eq_stop_iff index2next_ne_refEmpty).mp hblank k ⟨hk, hneg⟩
  have hmax : s'.max = size := by rw [← hrun]
  have hold : ∀ k, k < s.max → s'.global k = s.global k := by
    intro k hk
    rw [← hrun]
    exact linkFresh_old hgrow hk
  have hnew : ∀ k, s.max ≤ k → k < size → s'.global k < 0 := by
    intro k hk hk'
    rw [← hrun]
    exact linkFresh_neg hk hk'
  have hlive : ∀ k, s'.Live k ↔ s.Live k := by
    intro k
    by_cases hk : k < s.max
    · unfold Live
      rw [hold k hk, hmax]
      exact ⟨fun hl => ⟨hk, hl.2⟩, fun hl => ⟨by omega, hl.2⟩⟩
    · constructor
      · rintro ⟨hks, hpos⟩
        exact absurd hpos (not_le.mpr (hnew k (by omega) (hmax ▸ hks)))
      · intro hl
        exact absurd hl.1 hk
  refine ⟨⟨?_, ?_, ?_, by omega⟩, ?_, hlive, fun k hk => hold k hk.1, _, _, _, hrun.symm⟩
  · have hseg : FreeList index2next refEmpty s'.global s'.blank
        (fun k => s.max ≤ k ∧ k < size) := by
      rw [← hrun]
      exact freeList_linkFresh _ _ _ hgrow
    refine hseg.congr (fun k => ?_) (fun _ _ => rfl)
    rw [hmax]
    constructor
    · rintro ⟨hk, hneg⟩
      refine ⟨?_, hk⟩
      by_contra hlt
      exact hneg (by rw [hold k (by omega)]; exact hfull k (by omega))
    · rintro ⟨hk, hk'⟩
      exact ⟨hk', not_le.mpr (hnew k hk hk')⟩
  · have hn : s'.n = s.n := by rw [← hrun]
    rw [hn, ← h.count]
    refine liveCount_congr fun k => ?_
    rw [hlive k]
    exact ⟨fun hk => ⟨hk.2.1, hk.2⟩, fun hk => ⟨((hlive k).mpr hk.2).1, hk.2⟩⟩
  · intro i j hi hj hij
    have hi' := (hlive i).mp hi
    have hj' := (hlive j).mp hj
    rw [hold i hi'.1, hold j hj'.1] at hij
    exact h.distinct i j hi' hj' hij
  · rw [← hrun]
    exact index2next_ne_refEmpty _

theorem growIfFull_spec {s s' : RefNode D} (h : s.SlotInv) (hrun : s.growIfFull = .ok s') :
    s'.SlotInv ∧ s'.blank ≠ refEmpty ∧ (∀ k, s'.Live k ↔ s.Live k) ∧
      (∀ k, s.Live k → s'.global k = s.global k) ∧
      ∃ max global blank, s' = { s with max := max, global := global, blank := blank } := by
  by_cases hblank : s.blank = refEmpty
  · rw [growIfFull, if_pos hblank] at hrun
    exact grow_spec h hblank hrun
  · rw [growIfFull, if_neg hblank, Except.ok.injEq] at hrun
    subst hrun
    exact ⟨h, hblank, fun _ => Iff.rfl, fun _ _ => rfl, s.max, s.global, s.blank, rfl⟩

/-! ## Adding through the core -/

theorem metricSet_ok [RefDbl D] {s s' : RefNode D} {node : Nat} {m : Nat → D}
    (h : s.metricSet node m = .ok s') :
    ∃ row, s' = { s with real := Function.update s.real node row } := by
  simp only [metricSet, bind_eq_ok, Except.ok.injEq] at h
  obtain ⟨logM, _, rfl⟩ := h
  exact ⟨fun i => if 9 ≤ i ∧ i < 15 then logM (i - 9)
    else if 3 ≤ i ∧ i < 9 then m (i - 3) else s.real node i, by simp⟩

/-- Everything a successful `addCore` does: possible growth, then one slot of
the blank list filled.  The frame lets the sorted arrays vary, for the use in
`add`; `addCore` itself leaves them alone. -/
structure AddsSlot (s s' : RefNode D) (global : Int) (node : Nat) : Prop where
  nonneg : 0 ≤ global
  dead : ¬ s.Live node
  live : ∀ k, s'.Live k ↔ s.Live k ∨ k = node
  global_new : s'.global node = global
  global_old : ∀ k, s.Live k → s'.global k = s.global k
  n : s'.n = s.n + 1
  frame : ∃ max global blank row sortedGlobal sortedLocal, s' = { s with
    n := s.n + 1
    max := max
    global := global
    blank := blank
    sortedGlobal := sortedGlobal
    sortedLocal := sortedLocal
    part := Function.update s.part node s.rank
    age := Function.update s.age node 0
    real := Function.update s.real node row }

/-- Filling the first blank slot of a store whose blank list is not exhausted. -/
theorem fill_spec {s s' : RefNode D} {g : Int} {node : Nat} {row : Nat → D} (h : s.SlotInv)
    (hblank : s.blank ≠ refEmpty) (hg : 0 ≤ g) (hnew : ∀ k, s.Live k → s.global k ≠ g)
    (hnode : node = (next2index s.blank).toNat)
    (hs' : s' = { s with
      n := s.n + 1
      global := Function.update s.global node g
      blank := s.global node
      part := Function.update s.part node s.rank
      age := Function.update s.age node 0
      real := Function.update s.real node row }) :
    s'.SlotInv ∧ AddsSlot s s' g node := by
  obtain ⟨k, hk, hfree, hrest⟩ := h.blank.pop hblank
  have hkn : k = node := by rw [hnode, hk, next2index_index2next]
  subst hkn
  have hother : ∀ j, j ≠ k → s'.global j = s.global j := by
    intro j hj
    rw [hs']
    exact Function.update_of_ne hj _ _
  have hself : s'.global k = g := by
    rw [hs']
    exact Function.update_self _ _ _
  have hmax : s'.max = s.max := by rw [hs']
  have hdead : ¬ s.Live k := fun hl => hfree.2 hl.2
  have hlive : ∀ j, s'.Live j ↔ s.Live j ∨ j = k := by
    intro j
    by_cases hjk : j = k
    · subst hjk
      exact ⟨fun _ => Or.inr rfl, fun _ => ⟨by rw [hmax]; exact hfree.1, by rw [hself]; exact hg⟩⟩
    · unfold Live
      rw [hmax, hother j hjk]
      simp [hjk]
  refine ⟨⟨?_, ?_, ?_, by rw [hmax]; exact h.fits⟩,
    ⟨hg, hdead, hlive, hself, fun j hj => hother j ?_, by rw [hs'], _, _, _, row, _, _, hs'⟩⟩
  · have hb : s'.blank = s.global k := by rw [hs']
    rw [hb]
    refine hrest.congr (fun j => ?_) (fun j hj => hother j hj.2)
    rw [hmax]
    by_cases hjk : j = k
    · subst hjk
      simp [hself, hg]
    · simp [hother j hjk, hjk]
  · rw [hmax, liveCount_insert hfree.1 hdead hlive, h.count, hs']
  · intro i j hi hj hij
    rcases (hlive i).mp hi with hi' | rfl <;> rcases (hlive j).mp hj with hj' | rfl
    · rw [hother i (fun e => hdead (e ▸ hi')), hother j (fun e => hdead (e ▸ hj'))] at hij
      exact h.distinct i j hi' hj' hij
    · rw [hother i (fun e => hdead (e ▸ hi')), hself] at hij
      exact absurd hij (hnew i hi')
    · rw [hother j (fun e => hdead (e ▸ hj')), hself] at hij
      exact absurd hij.symm (hnew j hj')
    · rfl
  · rintro rfl
    exact hdead hj

/-- **`ref_node_add_core` fills one blank slot** and keeps the slot invariant,
provided the global is not live yet. -/
theorem addCore_spec [RefDbl D] {s s' : RefNode D} {g : Int} {node : Nat} (h : s.SlotInv)
    (hnew : ∀ k, s.Live k → s.global k ≠ g) (hrun : s.addCore g = .ok (s', node)) :
    s'.SlotInv ∧ AddsSlot s s' g node ∧ s'.sortedGlobal = s.sortedGlobal ∧
      s'.sortedLocal = s.sortedLocal := by
  by_cases hg : g < 0
  · simp [addCore, hg] at hrun
  simp only [addCore, if_neg hg, bind_eq_ok, metricForm] at hrun
  obtain ⟨s1, hgrow, s2, hmetric, hret⟩ := hrun
  obtain ⟨row, rfl⟩ := metricSet_ok hmetric
  simp only [Except.ok.injEq, Prod.mk.injEq] at hret
  obtain ⟨hs', hnode⟩ := hret
  rw [hnode] at hs'
  obtain ⟨hinv, hne, hlive, hold, max, global, blank, hframe⟩ := growIfFull_spec h hgrow
  have hnew' : ∀ k, s1.Live k → s1.global k ≠ g := by
    intro k hk
    rw [hold k ((hlive k).mp hk)]
    exact hnew k ((hlive k).mp hk)
  obtain ⟨hfilled, hadds⟩ := fill_spec hinv hne (not_lt.mp hg) hnew' hnode.symm hs'.symm
  refine ⟨hfilled, ⟨hadds.nonneg, fun hl => hadds.dead ((hlive node).mpr hl), ?_,
    hadds.global_new, ?_, ?_, ?_⟩, by rw [← hs', hframe], by rw [← hs', hframe]⟩
  · intro k
    rw [hadds.live k, hlive k]
  · intro k hk
    rw [hadds.global_old k ((hlive k).mpr hk), hold k hk]
  · rw [hadds.n, hframe]
  · rw [← hs', hframe]
    exact ⟨_, _, _, row, _, _, rfl⟩

/-! ## Insertion into the sorted pair -/

theorem insertPoint_le (sortedGlobal : Nat → Int) (g : Int) :
    ∀ n, insertPoint sortedGlobal g n ≤ n := by
  intro n
  induction n with
  | zero => simp [insertPoint]
  | succ k ih =>
      unfold insertPoint
      split
      · exact le_rfl
      · omega

theorem insertPoint_above (sortedGlobal : Nat → Int) (g : Int) :
    ∀ n k, insertPoint sortedGlobal g n ≤ k → k < n → g ≤ sortedGlobal k := by
  intro n
  induction n with
  | zero => intro k _ hk; omega
  | succ m ih =>
      intro k hp hk
      unfold insertPoint at hp
      split at hp
      · omega
      · by_cases hkm : k = m
        · subst hkm; omega
        · exact ih k hp (by omega)

theorem insertPoint_below {sortedGlobal : Nat → Int} {g : Int} :
    ∀ n, (∀ i j, i < j → j < n → sortedGlobal i < sortedGlobal j) →
      ∀ k, k < insertPoint sortedGlobal g n → sortedGlobal k < g := by
  intro n
  induction n with
  | zero => intro _ k hk; simp [insertPoint] at hk
  | succ m ih =>
      intro hasc k hk
      unfold insertPoint at hk
      split at hk
      · rename_i hm
        by_cases hkm : k = m
        · rw [hkm]; exact hm
        · exact (hasc k m (by omega) (by omega)).trans hm
      · exact ih (fun i j hij hj => hasc i j hij (by omega)) k hk

/-- **`ref_node_add`** returns the slot of a live global, or fills a blank slot
and keeps the whole invariant. -/
theorem add_spec [RefDbl D] {s s' : RefNode D} {g : Int} {node : Nat} (h : s.Inv)
    (hrun : s.add g = .ok (s', node)) :
    s'.Inv ∧ s'.Live node ∧ s'.global node = g ∧
      (s' = s ∨ (∀ k, s.Live k → s.global k ≠ g) ∧ AddsSlot s s' g node) := by
  by_cases hg : g < 0
  · simp [add, hg] at hrun
  rcases h.nodeLocal_spec g with ⟨k, hk, hlive, hkg⟩ | ⟨hnone, habsent⟩
  · simp only [add, if_neg hg, hk, Except.ok.injEq, Prod.mk.injEq] at hrun
    obtain ⟨rfl, rfl⟩ := hrun
    exact ⟨h, hlive, hkg, Or.inl rfl⟩
  simp only [add, if_neg hg, hnone, bind_eq_ok] at hrun
  obtain ⟨⟨s1, node1⟩, hcore, hret⟩ := hrun
  obtain ⟨hinv, hadds, hsg, hsl⟩ := addCore_spec h.toSlotInv habsent hcore
  simp only [Except.ok.injEq, Prod.mk.injEq, hadds.n, hsg, hsl, Nat.add_sub_cancel] at hret
  obtain ⟨hs', rfl⟩ := hret
  set p := insertPoint s.sortedGlobal g s.n with hp
  have hple : p ≤ s.n := insertPoint_le _ _ _
  have hbelow : ∀ k, k < p → s.sortedGlobal k < g := insertPoint_below s.n h.ascending
  have habove : ∀ k, p ≤ k → k < s.n → g < s.sortedGlobal k := by
    intro k hk hkn
    have hle := insertPoint_above s.sortedGlobal g s.n k hk hkn
    have hne : s.sortedGlobal k ≠ g := by
      rw [← (h.aligned k hkn).2]
      exact habsent _ (h.aligned k hkn).1
    omega
  have hn : s'.n = s.n + 1 := by rw [← hs']
  have hglobal : s'.global = s1.global := by rw [← hs']
  have hlive : ∀ k, s'.Live k ↔ s1.Live k := by intro k; rw [← hs']; rfl
  have hsg' : ∀ i, i ≤ s.n → s'.sortedGlobal i =
      if i < p then s.sortedGlobal i else if i = p then g else s.sortedGlobal (i - 1) := by
    intro i hi
    rw [← hs']
    exact ArrayLoop.update_shiftDown_apply p s.n _ _ i hi
  have hsl' : ∀ i, i ≤ s.n → s'.sortedLocal i =
      if i < p then s.sortedLocal i else if i = p then node1 else s.sortedLocal (i - 1) := by
    intro i hi
    rw [← hs']
    exact ArrayLoop.update_shiftDown_apply p s.n _ _ i hi
  have hslot : s'.SlotInv :=
    hinv.congr (by rw [← hs']) (by rw [← hs']) hglobal (by rw [hn, hadds.n])
  refine ⟨⟨hslot, ?_, ?_, ?_⟩, (hlive node1).mpr ((hadds.live node1).mpr (Or.inr rfl)),
    by rw [hglobal]; exact hadds.global_new, Or.inr ⟨habsent, ?_⟩⟩
  · intro i j hij hj
    rw [hsg' i (by omega), hsg' j (by omega)]
    split_ifs <;> first | omega | skip
    · exact h.ascending i j hij (by omega)
    · exact hbelow i (by omega)
    · exact (hbelow i (by omega)).trans (habove (j - 1) (by omega) (by omega))
    · exact habove (j - 1) (by omega) (by omega)
    · exact h.ascending (i - 1) (j - 1) (by omega) (by omega)
  · intro i hi
    rw [hsg' i (by omega), hsl' i (by omega), hlive, hadds.live, hglobal]
    split_ifs with hlt heq
    · have hal := h.aligned i (by omega)
      exact ⟨Or.inl hal.1, (hadds.global_old _ hal.1).trans hal.2⟩
    · exact ⟨Or.inr rfl, hadds.global_new⟩
    · have hal := h.aligned (i - 1) (by omega)
      exact ⟨Or.inl hal.1, (hadds.global_old _ hal.1).trans hal.2⟩
  · intro k hk
    rcases (hadds.live k).mp ((hlive k).mp hk) with hk' | rfl
    · obtain ⟨i, hi, hik⟩ := h.covers k hk'
      by_cases hip : i < p
      · exact ⟨i, by omega, by rw [hsl' i (by omega), if_pos hip, hik]⟩
      · refine ⟨i + 1, by omega, ?_⟩
        rw [hsl' (i + 1) (by omega), if_neg (by omega), if_neg (by omega), Nat.add_sub_cancel, hik]
    · exact ⟨p, by omega, by rw [hsl' p (by omega), if_neg (by omega), if_pos rfl]⟩
  · obtain ⟨max, global, blank, row, sg, sl, hframe⟩ := hadds.frame
    refine ⟨hadds.nonneg, hadds.dead, fun k => (hlive k).trans (hadds.live k), ?_, ?_, hn, ?_⟩
    · rw [hglobal]; exact hadds.global_new
    · intro k hk
      rw [hglobal]; exact hadds.global_old k hk
    · rw [← hs', hframe]
      exact ⟨_, _, _, row, _, _, rfl⟩

/-- A live global is found in its slot. -/
theorem add_of_live [RefDbl D] {s : RefNode D} {k : Nat} (h : s.Inv) (hlive : s.Live k) :
    s.add (s.global k) = .ok (s, k) := by
  have hlocal : s.nodeLocal (s.global k) = .ok k := (h.nodeLocal_eq_ok_iff _ k).mpr ⟨hlive, rfl⟩
  simp [add, not_lt.mpr hlive.2, hlocal]

/-- The logarithm of the identity, the metric of every new node, exists. -/
def IdentityHasLog (D : Type) [RefDbl D] : Prop :=
  ∀ (s : RefNode D) (node : Nat), ∃ s', s.metricForm node RefDbl.one RefDbl.zero RefDbl.zero
    RefDbl.one RefDbl.zero RefDbl.one = .ok s'

/-- A store without blank slots is full. -/
theorem SlotInv.full {s : RefNode D} (h : s.SlotInv) (hblank : s.blank = refEmpty) :
    s.n = s.max := by
  have hall : ∀ k, k < s.max → s.Live k := by
    intro k hk
    by_contra hdead
    exact (h.blank.eq_stop_iff index2next_ne_refEmpty).mp hblank k ⟨hk, fun hg => hdead ⟨hk, hg⟩⟩
  rw [← h.count, liveCount, Finset.filter_true_of_mem fun k hk => hall k (Finset.mem_range.mp hk),
    Finset.card_range]

/-- **`ref_node_add_core` succeeds** as long as the next size of the arrays is
a `REF_INT`. -/
theorem addCore_ok [RefDbl D] {s : RefNode D} {g : Int} (h : s.SlotInv) (hg : 0 ≤ g)
    (hfit : s.n + Nat.max 5000 (3 * s.n / 2) ≤ refIntMax) (hlog : IdentityHasLog D) :
    ∃ s' node, s.addCore g = .ok (s', node) ∧
      s'.max ≤ Nat.max s.max (s.n + Nat.max 5000 (3 * s.n / 2)) := by
  have hgrow : ∃ s1, s.growIfFull = .ok s1 ∧
      s1.max ≤ Nat.max s.max (s.n + Nat.max 5000 (3 * s.n / 2)) := by
    by_cases hblank : s.blank = refEmpty
    · have hfull := h.full hblank
      simp only [growIfFull, hblank, if_true, grow]
      rw [if_neg (by rw [← hfull]; omega)]
      exact ⟨_, rfl, by rw [← hfull]; exact Nat.le_max_right _ _⟩
    · exact ⟨s, by simp [growIfFull, hblank], Nat.le_max_left _ _⟩
  obtain ⟨s1, hrun1, hmax1⟩ := hgrow
  simp only [addCore, if_neg (not_lt.mpr hg), bind_eq_ok, hrun1, Except.ok.injEq,
    exists_eq_left', Prod.mk.injEq]
  obtain ⟨s3, hmetric⟩ := hlog { s1 with
    blank := s1.global (next2index s1.blank).toNat
    global := Function.update s1.global (next2index s1.blank).toNat g
    part := Function.update s1.part (next2index s1.blank).toNat s1.rank
    age := Function.update s1.age (next2index s1.blank).toNat 0 } (next2index s1.blank).toNat
  obtain ⟨row, hs3⟩ := metricSet_ok hmetric
  exact ⟨_, _, ⟨s3, hmetric, rfl, rfl⟩, by rw [hs3]; exact hmax1⟩

/-- **`ref_node_add` succeeds** as long as the next size of the arrays is a
`REF_INT`. -/
theorem add_ok [RefDbl D] {s : RefNode D} {g : Int} (h : s.Inv) (hg : 0 ≤ g)
    (hfit : s.n + Nat.max 5000 (3 * s.n / 2) ≤ refIntMax) (hlog : IdentityHasLog D) :
    ∃ s' node, s.add g = .ok (s', node) ∧
      s'.max ≤ Nat.max s.max (s.n + Nat.max 5000 (3 * s.n / 2)) := by
  rcases h.nodeLocal_spec g with ⟨k, hk, _, _⟩ | ⟨hnone, _⟩
  · refine ⟨s, k, ?_, Nat.le_max_left _ _⟩
    simp [add, not_lt.mpr hg, hk]
  · obtain ⟨s2, node, hrun2, hmax2⟩ := addCore_ok h.toSlotInv hg hfit hlog
    simp only [add, if_neg (not_lt.mpr hg), hnone, hrun2, bind_eq_ok, Except.ok.injEq,
      exists_eq_left', Prod.mk.injEq]
    exact ⟨_, _, ⟨rfl, rfl⟩, hmax2⟩

/-! ## Removal -/

/-- The parts of the store that neither insertion nor a removal without release
touches. -/
structure SameAllocator (s s' : RefNode D) : Prop where
  rank : s'.rank = s.rank
  nUnused : s'.nUnused = s.nUnused
  unusedGlobal : s'.unusedGlobal = s.unusedGlobal
  oldNGlobal : s'.oldNGlobal = s.oldNGlobal
  newNGlobal : s'.newNGlobal = s.newNGlobal

theorem SameAllocator.refl (s : RefNode D) : SameAllocator s s := ⟨rfl, rfl, rfl, rfl, rfl⟩

theorem SameAllocator.trans {s t u : RefNode D} (h : SameAllocator s t) (h' : SameAllocator t u) :
    SameAllocator s u :=
  ⟨h'.rank.trans h.rank, h'.nUnused.trans h.nUnused, h'.unusedGlobal.trans h.unusedGlobal,
    h'.oldNGlobal.trans h.oldNGlobal, h'.newNGlobal.trans h.newNGlobal⟩

theorem pushUnused_inv {s : RefNode D} (h : s.Inv) (g : Int) : (s.pushUnused g).Inv :=
  ⟨h.toSlotInv.congr rfl rfl rfl rfl, h.ascending, h.aligned, h.covers⟩

theorem release_live {s : RefNode D} (h : s.SlotInv) {node : Nat} (hlive : s.Live node) (k : Nat) :
    (s.release node).Live k ↔ s.Live k ∧ k ≠ node := by
  have hneg : s.blank < 0 := by
    by_cases hb : s.blank = refEmpty
    · simp [hb, refEmpty]
    · obtain ⟨j, hj, _⟩ := h.blank.pop hb
      rw [hj]
      exact index2next_neg j
  by_cases hk : k = node
  · subst hk
    simp [Live, release, hneg]
  · simp [Live, release, hk]

/-- The slot that a removal releases heads the blank list. -/
theorem release_slotInv {s : RefNode D} (h : s.SlotInv) {node : Nat} (hlive : s.Live node) :
    (s.release node).SlotInv := by
  have hl := release_live h hlive
  have hother : ∀ k, k ≠ node → (s.release node).global k = s.global k :=
    fun k hk => Function.update_of_ne hk _ _
  refine ⟨?_, ?_, ?_, h.fits⟩
  · have hpush := h.blank.push (k := node) (fun hfree => hfree.2 hlive.2)
    refine hpush.congr (fun k => ?_) (fun _ _ => rfl)
    have hk := hl k
    unfold Live at hk hlive
    change k < s.max ∧ ¬ 0 ≤ (s.release node).global k ↔ _
    change (k < s.max ∧ 0 ≤ (s.release node).global k ↔ _) at hk
    by_cases hkn : k = node
    · subst hkn
      simp_all
    · simp [hother k hkn, hkn]
  · have hcount := liveCount_erase hlive.1 hlive hl
    have := h.count
    change liveCount s.max (s.release node).Live = s.n - 1
    omega
  · intro i j hi hj hij
    rw [hl] at hi hj
    rw [hother i hi.2, hother j hj.2] at hij
    exact h.distinct i j hi.1 hj.1 hij

/-- Closing the gap of a released slot keeps the sorted pair exact. -/
theorem closeGap_release_inv {s : RefNode D} (h : s.Inv) {node location : Nat}
    (hlive : s.Live node) (hloc : location < s.n)
    (hval : s.sortedGlobal location = s.global node) :
    ((s.closeGap location).release node).Inv := by
  set s' := (s.closeGap location).release node with hs'
  have hslot : (s.closeGap location).SlotInv := h.toSlotInv.congr rfl rfl rfl rfl
  have hl : ∀ k, s'.Live k ↔ s.Live k ∧ k ≠ node := release_live hslot hlive
  have hother : ∀ k, k ≠ node → s'.global k = s.global k :=
    fun k hk => Function.update_of_ne hk _ _
  have hn : s'.n = s.n - 1 := rfl
  have hnode : s.sortedLocal location = node :=
    h.distinct _ _ (h.aligned _ hloc).1 hlive ((h.aligned _ hloc).2.trans hval)
  have hsg : ∀ i, i < s.n - 1 → s'.sortedGlobal i =
      if location ≤ i then s.sortedGlobal (i + 1) else s.sortedGlobal i :=
    fun i hi => ArrayLoop.shiftUp_gap s.sortedGlobal hloc hi
  have hsl : ∀ i, i < s.n - 1 → s'.sortedLocal i =
      if location ≤ i then s.sortedLocal (i + 1) else s.sortedLocal i :=
    fun i hi => ArrayLoop.shiftUp_gap s.sortedLocal hloc hi
  -- positions other than `location` hold other slots
  have hne : ∀ i, i < s.n → i ≠ location → s.sortedLocal i ≠ node := by
    intro i hi hil heq
    have hgi := (h.aligned i hi).2
    rw [heq, ← hval] at hgi
    rcases lt_or_gt_of_ne hil with hlt | hlt
    · exact absurd hgi (h.ascending i location hlt hloc).ne'
    · exact absurd hgi (h.ascending location i hlt hi).ne
  refine ⟨release_slotInv hslot hlive, ?_, ?_, ?_⟩
  · intro i j hij hj
    rw [hsg i (by omega), hsg j (by omega)]
    split_ifs
    · exact h.ascending _ _ (by omega) (by omega)
    · omega
    · exact h.ascending _ _ (by omega) (by omega)
    · exact h.ascending _ _ hij (by omega)
  · intro i hi
    rw [hsg i (by omega), hsl i (by omega)]
    split_ifs with hli
    · have hal := h.aligned (i + 1) (by omega)
      have hni := hne (i + 1) (by omega) (by omega)
      exact ⟨(hl _).mpr ⟨hal.1, hni⟩, (hother _ hni).trans hal.2⟩
    · have hal := h.aligned i (by omega)
      have hni := hne i (by omega) (by omega)
      exact ⟨(hl _).mpr ⟨hal.1, hni⟩, (hother _ hni).trans hal.2⟩
  · intro k hk
    obtain ⟨hk', hkn⟩ := (hl k).mp hk
    obtain ⟨i, hi, hik⟩ := h.covers k hk'
    have hil : i ≠ location := by
      rintro rfl
      exact hkn (hik.symm.trans hnode)
    rcases lt_or_gt_of_ne hil with hlt | hlt
    · exact ⟨i, by omega, by rw [hsl i (by omega), if_neg (by omega), hik]⟩
    · refine ⟨i - 1, by omega, ?_⟩
      rw [hsl (i - 1) (by omega), if_pos (by omega), show i - 1 + 1 = i by omega, hik]

/-- Everything a removal does to the slots. -/
structure RemovesSlot (s s' : RefNode D) (node : Nat) : Prop where
  was : s.Live node
  live : ∀ k, s'.Live k ↔ s.Live k ∧ k ≠ node
  global_old : ∀ k, s'.Live k → s'.global k = s.global k

theorem RemovesSlot.congr {s s' s'' : RefNode D} {node : Nat} (h : RemovesSlot s s' node)
    (hmax : s''.max = s'.max) (hglobal : s''.global = s'.global) : RemovesSlot s s'' node := by
  have hlive : s''.Live = s'.Live := by
    funext k
    simp only [Live, hmax, hglobal]
  exact ⟨h.was, by rw [hlive]; exact h.live, by rw [hlive, hglobal]; exact h.global_old⟩

theorem release_removes {s : RefNode D} (h : s.SlotInv) {node : Nat} (hlive : s.Live node) :
    RemovesSlot s (s.release node) node := by
  refine ⟨hlive, release_live h hlive, fun k hk => ?_⟩
  exact Function.update_of_ne ((release_live h hlive k).mp hk).2 _ _

/-- **`ref_node_remove_without_global`.** -/
theorem removeWithoutGlobal_spec {s s' : RefNode D} {node : Nat} (h : s.Inv)
    (hrun : s.removeWithoutGlobal node = .ok s') :
    s'.Inv ∧ RemovesSlot s s' node ∧ SameAllocator s s' := by
  by_cases hlive : s.Live node
  · simp only [removeWithoutGlobal, hlive, not_true, if_false, bind_eq_ok] at hrun
    obtain ⟨location, hloc, hret⟩ := hrun
    rcases sortSearch_spec (s.global node) h.nondecreasing with ⟨i, hi, hin, hval⟩ | ⟨hnone, _⟩
    · rw [hi, Except.ok.injEq] at hloc
      subst hloc
      rw [Except.ok.injEq] at hret
      subst hret
      exact ⟨closeGap_release_inv h hlive hin hval,
        (release_removes h.toSlotInv hlive).congr rfl rfl, ⟨rfl, rfl, rfl, rfl, rfl⟩⟩
    · rw [hnone] at hloc
      cases hloc
  · simp [removeWithoutGlobal, hlive] at hrun

/-- A valid node can be removed. -/
theorem removeWithoutGlobal_ok {s : RefNode D} {node : Nat} (h : s.Inv) (hlive : s.Live node) :
    ∃ s', s.removeWithoutGlobal node = .ok s' := by
  obtain ⟨i, hi, hlocal⟩ := h.covers node hlive
  have hal := (h.aligned i hi).2
  rw [hlocal] at hal
  rcases sortSearch_spec (s.global node) h.nondecreasing with ⟨k, hk, _, _⟩ | ⟨_, habsent⟩
  · exact ⟨_, by simp only [removeWithoutGlobal, hlive, not_true, if_false, hk]; rfl⟩
  · exact absurd hal.symm (habsent i hi)

/-- A removal leaves the parts alone. -/
theorem removeWithoutGlobal_part {s s' : RefNode D} {node : Nat}
    (hrun : s.removeWithoutGlobal node = .ok s') :
    s'.part = s.part ∧ s'.rank = s.rank ∧ s'.max = s.max := by
  by_cases hlive : s.Live node
  · simp only [removeWithoutGlobal, hlive, not_true, if_false, bind_eq_ok] at hrun
    obtain ⟨location, _, hret⟩ := hrun
    rw [← Except.ok.inj hret]
    exact ⟨rfl, rfl, rfl⟩
  · simp [removeWithoutGlobal, hlive] at hrun

/-- **`ref_node_remove`** is the same removal with the global released. -/
theorem remove_eq (s : RefNode D) (node : Nat) :
    s.remove node =
      (s.removeWithoutGlobal node).map fun s' => s'.pushUnused (s.global node) := by
  by_cases hlive : s.Live node
  · simp only [remove, removeWithoutGlobal, hlive, not_true, if_false]
    cases sortSearch s.n s.sortedGlobal (s.global node) with
    | error status => rfl
    | ok location => rfl
  · simp only [remove, removeWithoutGlobal, hlive, not_false_iff, if_true]
    rfl

/-! ## Rebuilding the sorted pair -/

theorem SlotInv.length_validNodes {s : RefNode D} (h : s.SlotInv) : s.validNodes.length = s.n := by
  rw [← h.count, liveCount, validNodes, ← List.toFinset_card_of_nodup]
  · congr 1
    ext k
    simp
  · exact List.nodup_range.filter _

theorem mem_validNodes {s : RefNode D} {k : Nat} : k ∈ s.validNodes ↔ s.Live k := by
  simp only [validNodes, List.mem_filter, List.mem_range, decide_eq_true_eq]
  exact ⟨fun hk => hk.2, fun hk => ⟨hk.1, hk⟩⟩

theorem nodup_validNodes (s : RefNode D) : s.validNodes.Nodup := List.nodup_range.filter _

/-- **`ref_node_rebuild_sorted_global`** restores the sorted pair from the
slots alone. -/
theorem rebuildSortedGlobal_inv {s : RefNode D} (h : s.SlotInv) : s.rebuildSortedGlobal.Inv := by
  have hlen := h.length_validNodes
  set pack : Nat → Nat := fun i => s.validNodes.getD i 0 with hpack
  set packed : Nat → Int := fun i =>
    if i < s.validNodes.length then s.global (pack i) else s.sortedGlobal i with hpacked
  obtain ⟨hlt, hinj, hsurj, hasc⟩ := sortHeap_bijOn s.n packed s.sortedLocal
  set order := sortHeap s.n packed s.sortedLocal with horder
  have hget : ∀ i (hi : i < s.n), pack i = s.validNodes[i] := by
    intro i hi
    simp [hpack, List.getD_eq_getElem?_getD, List.getElem?_eq_getElem (hlen ▸ hi)]
  have hpacklive : ∀ i, i < s.n → s.Live (pack i) := by
    intro i hi
    rw [hget i hi]
    exact mem_validNodes.mp (List.getElem_mem _)
  have hpackinj : ∀ i j, i < s.n → j < s.n → pack i = pack j → i = j := by
    intro i j hi hj hij
    rw [hget i hi, hget j hj] at hij
    exact (nodup_validNodes s).getElem_inj_iff.mp hij
  have hsl : ∀ i, i < s.n → s.rebuildSortedGlobal.sortedLocal i = pack (order i) :=
    fun i hi => if_pos hi
  have hsg : ∀ i, i < s.n → s.rebuildSortedGlobal.sortedGlobal i = s.global (pack (order i)) := by
    intro i hi
    rw [← hsl i hi]
    exact if_pos hi
  refine ⟨h.congr rfl rfl rfl rfl, ?_, ?_, ?_⟩
  · intro i j hij hj
    change j < s.n at hj
    rw [hsg i (by omega), hsg j hj]
    have hle := hasc i j (by omega) hj
    have hi' := hlt i (by omega)
    have hj' := hlt j hj
    simp only [hpacked, hlen, hi', hj', if_true] at hle
    refine lt_of_le_of_ne hle fun heq => ?_
    have hpk := h.distinct _ _ (hpacklive _ hi') (hpacklive _ hj') heq
    have := hinj i j (by omega) hj (hpackinj _ _ hi' hj' hpk)
    omega
  · intro i hi
    change i < s.n at hi
    rw [hsg i hi, hsl i hi]
    exact ⟨hpacklive _ (hlt i hi), rfl⟩
  · intro k hk
    obtain ⟨i, hi, hik⟩ := List.getElem_of_mem (mem_validNodes.mpr (show s.Live k from hk))
    have hin : i < s.n := by omega
    obtain ⟨j, hj, hji⟩ := hsurj i hin
    exact ⟨j, hj, by rw [hsl j hj, hji, hget i hin, hik]⟩

/-! ## Bulk insertion -/

/-- Entry `i` of the sorted candidates repeats an earlier one. -/
def Repeats (sorted : Nat → Nat) (global : Nat → Int) (i : Nat) : Prop :=
  ∃ j, j < i ∧ global (sorted j) = global (sorted i)

/-- The state of the loop of `ref_node_add_many` after the first `k` sorted
candidates: `j` leads the run that holds candidate `k - 1`. -/
structure BlankedTo (sorted : Nat → Nat) (n : Nat) (global : Nat → Int) (k : Nat)
    (acc : Nat × (Nat → Int)) : Prop where
  lead : acc.1 < k
  first : ¬ Repeats sorted global acc.1
  run : ∀ i, acc.1 ≤ i → i < k → global (sorted i) = global (sorted acc.1)
  blanked : ∀ i, i < k → Repeats sorted global i → acc.2 (sorted i) = refEmpty
  kept : ∀ i, i < k → ¬ Repeats sorted global i → acc.2 (sorted i) = global (sorted i)
  rest : ∀ i, k ≤ i → i < n → acc.2 (sorted i) = global (sorted i)

/-- One pass of the loop. -/
theorem BlankedTo.step {sorted : Nat → Nat} {n k : Nat} {global : Nat → Int}
    {acc : Nat × (Nat → Int)} (h : BlankedTo sorted n global k acc) (hk : k < n)
    (hinj : ∀ i j, i < n → j < n → sorted i = sorted j → i = j)
    (hasc : ∀ i j, i ≤ j → j < n → global (sorted i) ≤ global (sorted j)) :
    BlankedTo sorted n global (k + 1)
      (if acc.2 (sorted k) ≠ acc.2 (sorted acc.1) then (k, acc.2)
        else (acc.1, Function.update acc.2 (sorted k) refEmpty)) := by
  have hlead := h.lead
  have hk' : acc.2 (sorted k) = global (sorted k) := h.rest k le_rfl hk
  have hj' : acc.2 (sorted acc.1) = global (sorted acc.1) := h.kept _ hlead h.first
  rw [hk', hj']
  by_cases heq : global (sorted k) = global (sorted acc.1)
  · rw [if_neg (not_not.mpr heq)]
    have hother : ∀ i, i < n → i ≠ k →
        Function.update acc.2 (sorted k) refEmpty (sorted i) = acc.2 (sorted i) :=
      fun i hi hik => Function.update_of_ne (fun e => hik (hinj i k hi hk e)) _ _
    have hrep : Repeats sorted global k := ⟨acc.1, hlead, heq.symm⟩
    refine ⟨by dsimp only; omega, h.first, fun i hi hik => ?_, fun i hik hi => ?_,
      fun i hik hi => ?_, fun i hki hi => ?_⟩
    · by_cases he : i = k
      · rw [he]; exact heq
      · exact h.run i hi (by omega)
    · by_cases he : i = k
      · subst he; exact Function.update_self _ _ _
      · exact (hother i (by omega) he).trans (h.blanked i (by omega) hi)
    · have he : i ≠ k := fun e => hi (e ▸ hrep)
      exact (hother i (by omega) he).trans (h.kept i (by omega) hi)
    · exact (hother i hi (by omega)).trans (h.rest i (by omega) hi)
  · rw [if_pos heq]
    -- a new run: by the order no earlier candidate has this value
    have hnew : ¬ Repeats sorted global k := by
      intro hrep
      obtain ⟨i, hik, hi⟩ := hrep
      by_cases hle : acc.1 ≤ i
      · exact heq (hi ▸ h.run i hle hik)
      · have h1 := hasc i acc.1 (by omega) (by omega)
        have h2 := hasc acc.1 k (by omega) hk
        exact heq (le_antisymm (hi ▸ h1) h2)
    refine ⟨by dsimp only; omega, hnew, fun i hi hik => ?_, fun i hik hi => ?_,
      fun i hik hi => ?_, fun i hki hi => h.rest i (by omega) hi⟩
    · have he : i = k := by dsimp only at hi; omega
      rw [he]
    · have he : i ≠ k := fun e => hnew (e ▸ hi)
      exact h.blanked i (by omega) hi
    · by_cases he : i = k
      · rw [he]; exact hk'
      · exact h.kept i (by omega) hi

/-- The whole loop keeps one candidate of every value and blanks the rest. -/
theorem blankRepeats_spec {sorted : Nat → Nat} {n : Nat} {global : Nat → Int}
    (hinj : ∀ i j, i < n → j < n → sorted i = sorted j → i = j)
    (hasc : ∀ i j, i ≤ j → j < n → global (sorted i) ≤ global (sorted j)) (hn : 0 < n) :
    BlankedTo sorted n global n (blankRepeats sorted n global) := by
  have hloop := ArrayLoop.foldl_inv
    (f := fun (acc : Nat × (Nat → Int)) i =>
      if acc.2 (sorted i) ≠ acc.2 (sorted acc.1) then (i, acc.2)
      else (acc.1, Function.update acc.2 (sorted i) refEmpty))
    (P := fun done rest acc => done ++ rest = List.range' 1 (n - 1) ∧
      BlankedTo sorted n global (done.length + 1) acc)
    (l := List.range' 1 (n - 1)) (b := (0, global))
    (fun done i rest acc hP => ?_) ⟨rfl, ?_⟩
  · have := hloop.2
    rw [List.length_range', Nat.sub_add_cancel hn] at this
    exact this
  · obtain ⟨hsplit, hP⟩ := hP
    have hi : i = done.length + 1 ∧ done.length + 1 < n := by
      have hlen := congrArg List.length hsplit
      simp only [List.length_append, List.length_cons, List.length_range'] at hlen
      have hget : (done ++ i :: rest)[done.length]? = some i := by simp
      rw [hsplit, List.getElem?_range' (by omega), Option.some.injEq] at hget
      omega
    refine ⟨by simp [hsplit], ?_⟩
    rw [hi.1, List.length_append, List.length_singleton]
    exact hP.step hi.2 hinj hasc
  · refine ⟨by simp, ?_, ?_, ?_, ?_, fun _ _ _ => rfl⟩
    · rintro ⟨j, hj, _⟩
      exact absurd hj (Nat.not_lt_zero j)
    · intro i _ hi
      rw [show i = 0 by simp at hi; omega]
    · rintro i hi ⟨j, hj, _⟩
      simp at hi
      omega
    · exact fun _ _ _ => rfl

/-- Some live slot carries the global. -/
def Holds (s : RefNode D) (g : Int) : Prop := ∃ k, s.Live k ∧ s.global k = g

theorem AddsSlot.sameAllocator {s s' : RefNode D} {g : Int} {node : Nat}
    (h : AddsSlot s s' g node) : SameAllocator s s' := by
  obtain ⟨_, _, _, _, _, _, rfl⟩ := h.frame
  exact ⟨rfl, rfl, rfl, rfl, rfl⟩

theorem AddsSlot.holds {s s' : RefNode D} {g : Int} {node : Nat} (h : AddsSlot s s' g node)
    (g' : Int) : s'.Holds g' ↔ s.Holds g' ∨ g' = g := by
  constructor
  · rintro ⟨k, hk, rfl⟩
    rcases (h.live k).mp hk with hk' | rfl
    · exact Or.inl ⟨k, hk', (h.global_old k hk').symm⟩
    · exact Or.inr h.global_new
  · rintro (⟨k, hk, rfl⟩ | rfl)
    · exact ⟨k, (h.live k).mpr (Or.inl hk), h.global_old k hk⟩
    · exact ⟨node, (h.live node).mpr (Or.inr rfl), h.global_new⟩

/-- Every node stays in its slot with its data. -/
structure KeepsNodes (s s' : RefNode D) : Prop where
  live : ∀ k, s.Live k → s'.Live k
  global : ∀ k, s.Live k → s'.global k = s.global k
  part : ∀ k, s.Live k → s'.part k = s.part k
  age : ∀ k, s.Live k → s'.age k = s.age k
  real : ∀ k, s.Live k → s'.real k = s.real k
  aux : s'.aux = s.aux

theorem KeepsNodes.refl (s : RefNode D) : KeepsNodes s s :=
  ⟨fun _ h => h, fun _ _ => rfl, fun _ _ => rfl, fun _ _ => rfl, fun _ _ => rfl, rfl⟩

theorem KeepsNodes.trans {s t u : RefNode D} (h : KeepsNodes s t) (h' : KeepsNodes t u) :
    KeepsNodes s u where
  live k hk := h'.live k (h.live k hk)
  global k hk := (h'.global k (h.live k hk)).trans (h.global k hk)
  part k hk := (h'.part k (h.live k hk)).trans (h.part k hk)
  age k hk := (h'.age k (h.live k hk)).trans (h.age k hk)
  real k hk := (h'.real k (h.live k hk)).trans (h.real k hk)
  aux := h'.aux.trans h.aux

/-- The slot that is filled was not live. -/
theorem AddsSlot.keeps {s s' : RefNode D} {g : Int} {node : Nat} (h : AddsSlot s s' g node) :
    KeepsNodes s s' := by
  have hne : ∀ k, s.Live k → k ≠ node := by
    intro k hk heq
    exact h.dead (heq ▸ hk)
  obtain ⟨max, global, blank, row, sortedGlobal, sortedLocal, hframe⟩ := h.frame
  refine ⟨fun k hk => (h.live k).mpr (Or.inl hk), h.global_old, ?_, ?_, ?_, by rw [hframe]⟩
  · intro k hk
    rw [hframe]
    exact Function.update_of_ne (hne k hk) _ _
  · intro k hk
    rw [hframe]
    exact Function.update_of_ne (hne k hk) _ _
  · intro k hk
    rw [hframe]
    exact Function.update_of_ne (hne k hk) _ _

/-- What the insertions of `ref_node_add_many` have done after the candidates
`done`. -/
structure AddedMany (s : RefNode D) (global : Nat → Int) (done : List Nat) (s' : RefNode D) :
    Prop where
  slots : s'.SlotInv
  same : SameAllocator s s'
  keeps : KeepsNodes s s'
  count : s'.n ≤ s.n + done.length
  holds : ∀ g, s'.Holds g ↔ s.Holds g ∨ ∃ i ∈ done, global i = g ∧ g ≠ refEmpty

theorem AddedMany.step [RefDbl D] {s s' s'' : RefNode D} {global : Nat → Int} {done : List Nat}
    {i : Nat} (h : AddedMany s global done s')
    (hnew : global i ≠ refEmpty → ¬ s'.Holds (global i))
    (hrun : (if global i ≠ refEmpty then (s'.addCore (global i)).map Prod.fst else .ok s') =
      .ok s'') : AddedMany s global (done ++ [i]) s'' := by
  have hcount := h.count
  by_cases hi : global i = refEmpty
  · simp only [hi, ne_eq, not_true, if_false, Except.ok.injEq] at hrun
    subst hrun
    refine ⟨h.slots, h.same, h.keeps, ?_, fun g => ?_⟩
    · rw [List.length_append]
      omega
    · rw [h.holds g]
      simp only [List.mem_append, List.mem_singleton, or_and_right, exists_or, exists_eq_left, hi]
      grind
  · rw [if_pos hi] at hrun
    cases hcore : s'.addCore (global i) with
    | error status => simp [hcore, Except.map] at hrun
    | ok r =>
        simp only [hcore, Except.map, Except.ok.injEq] at hrun
        subst hrun
        have hfresh : ∀ k, s'.Live k → s'.global k ≠ global i :=
          fun k hk hg => hnew hi ⟨k, hk, hg⟩
        obtain ⟨hslots, hadds, _⟩ := addCore_spec h.slots hfresh (hcore.trans (by rw [Prod.mk.eta]))
        refine ⟨hslots, h.same.trans hadds.sameAllocator, h.keeps.trans hadds.keeps, ?_,
          fun g => ?_⟩
        · rw [hadds.n, List.length_append, List.length_singleton]
          omega
        · rw [hadds.holds g, h.holds g]
          simp only [List.mem_append, List.mem_singleton, or_and_right, exists_or, exists_eq_left]
          grind

/-- The candidates that survive `blankRepeats` are distinct, and every value
among the candidates survives. -/
theorem blankRepeats_candidates (candidates : List Int) :
    let n := candidates.length
    let sorted := sortHeap n (fun i => candidates.getD i 0) (fun _ => 0)
    let global := (blankRepeats sorted n (fun i => candidates.getD i 0)).2
    (∀ i j, i < n → j < n → global i ≠ refEmpty → global i = global j → i = j) ∧
      ∀ g, g ≠ refEmpty → ((∃ i, i < n ∧ global i = g) ↔ g ∈ candidates) := by
  intro n sorted global
  by_cases hn : n = 0
  · have hnil : candidates = [] := List.length_eq_zero_iff.mp hn
    refine ⟨fun i j hi => by omega, fun g _ => ⟨?_, ?_⟩⟩
    · rintro ⟨i, hi, _⟩
      omega
    · rw [hnil]
      intro hg
      cases hg
  set value : Nat → Int := fun i => candidates.getD i 0 with hvalue
  obtain ⟨hlt, hinj, hsurj, hasc⟩ := sortHeap_bijOn n value (fun _ => 0)
  change ∀ i, i < n → sorted i < n at hlt
  change ∀ k, k < n → ∃ i, i < n ∧ sorted i = k at hsurj
  have hB : BlankedTo sorted n value n (blankRepeats sorted n value) :=
    blankRepeats_spec hinj hasc (by omega)
  -- every entry is read at the position the sort gave it
  have hentry : ∀ i, i < n → global (sorted i) ≠ refEmpty →
      ¬ Repeats sorted value i ∧ global (sorted i) = value (sorted i) := by
    intro i hi hne
    have hnot : ¬ Repeats sorted value i := fun hrep => hne (hB.blanked i hi hrep)
    exact ⟨hnot, hB.kept i hi hnot⟩
  refine ⟨fun k l hk hl hne heq => ?_, fun g hg => ⟨?_, ?_⟩⟩
  · obtain ⟨i, hi, rfl⟩ := hsurj k hk
    obtain ⟨j, hj, rfl⟩ := hsurj l hl
    obtain ⟨hi1, hi2⟩ := hentry i hi hne
    obtain ⟨hj1, hj2⟩ := hentry j hj (heq ▸ hne)
    rw [hi2, hj2] at heq
    rcases lt_trichotomy i j with hij | rfl | hij
    · exact absurd ⟨i, hij, heq⟩ hj1
    · rfl
    · exact absurd ⟨j, hij, heq.symm⟩ hi1
  · rintro ⟨k, hk, rfl⟩
    obtain ⟨i, hi, rfl⟩ := hsurj k hk
    rw [(hentry i hi hg).2]
    have hget : sorted i < candidates.length := hk
    simp only [hvalue, List.getD_eq_getElem?_getD, List.getElem?_eq_getElem hget, Option.getD_some]
    exact List.getElem_mem hget
  · intro hmem
    obtain ⟨k, hk, hkg⟩ := List.getElem_of_mem hmem
    have hval : value k = g := by
      simp [hvalue, List.getD_eq_getElem?_getD, List.getElem?_eq_getElem hk, hkg]
    -- the first of the run of this value is kept
    have hex : ∃ i, i < n ∧ value (sorted i) = g := by
      obtain ⟨i, hi, hik⟩ := hsurj k hk
      exact ⟨i, hi, by rw [hik, hval]⟩
    classical
    have hfirst := Nat.find_spec hex
    refine ⟨sorted (Nat.find hex), hlt _ hfirst.1, ?_⟩
    refine (hB.kept _ hfirst.1 ?_).trans hfirst.2
    rintro ⟨j, hj, hjv⟩
    exact Nat.find_min hex hj ⟨by omega, hjv.trans hfirst.2⟩

/-- The length and the entries of the array `global` of `ref_node_add_many`
when its last loop starts. -/
def bulkGlobals (s : RefNode D) (globalOrig : List Int) : Nat × (Nat → Int) :=
  let candidates := globalOrig.filter (fun g => s.nodeLocal g = .error .notFound)
  (candidates.length, (blankRepeats (sortHeap candidates.length (fun i => candidates.getD i 0)
    (fun _ => 0)) candidates.length (fun i => candidates.getD i 0)).2)

/-- The entries that are kept are distinct, and they are the new globals. -/
theorem bulkGlobals_spec {s : RefNode D} (h : s.Inv) (globalOrig : List Int) :
    let bulk := s.bulkGlobals globalOrig
    (∀ i j, i < bulk.1 → j < bulk.1 → bulk.2 i ≠ refEmpty → bulk.2 i = bulk.2 j → i = j) ∧
      (∀ g, g ≠ refEmpty →
        ((∃ i, i < bulk.1 ∧ bulk.2 i = g) ↔ g ∈ globalOrig ∧ ¬ s.Holds g)) ∧
      bulk.1 ≤ globalOrig.length := by
  set candidates := globalOrig.filter (fun g => s.nodeLocal g = .error .notFound) with hcand
  obtain ⟨hdistinct, hvalues⟩ := blankRepeats_candidates candidates
  refine ⟨hdistinct, fun g hne => (hvalues g hne).trans ?_, List.length_filter_le _ _⟩
  simp only [hcand, List.mem_filter, decide_eq_true_eq, h.nodeLocal_eq_notFound_iff]
  apply and_congr_right
  intro _
  constructor
  · intro hall hg
    obtain ⟨k, hk, hkg⟩ := hg
    exact hall k hk hkg
  · exact fun hno k hk hkg => hno ⟨k, hk, hkg⟩

/-- The body of the last loop. -/
def bulkStep [RefDbl D] (global : Nat → Int) (s : RefNode D) (i : Nat) :
    Except Status (RefNode D) :=
  if global i ≠ refEmpty then (s.addCore (global i)).map Prod.fst else .ok s

theorem addMany_eq_ok [RefDbl D] {s s' : RefNode D} {globalOrig : List Int} :
    s.addMany globalOrig = .ok s' ↔ ∃ s1, (List.range (s.bulkGlobals globalOrig).1).foldlM
      (bulkStep (s.bulkGlobals globalOrig).2) s = .ok s1 ∧ s1.rebuildSortedGlobal = s' := by
  simp only [addMany, bind_eq_ok, Except.ok.injEq]
  exact Iff.rfl

section Bulk

variable [RefDbl D] {s : RefNode D} {globalOrig : List Int}

omit [RefDbl D] in
/-- The next entry is not live yet. -/
theorem AddedMany.fresh {s' : RefNode D} {m : Nat} (h : s.Inv)
    (hm : m < (s.bulkGlobals globalOrig).1)
    (hP : AddedMany s (s.bulkGlobals globalOrig).2 (List.range m) s')
    (hne : (s.bulkGlobals globalOrig).2 m ≠ refEmpty) :
    ¬ s'.Holds ((s.bulkGlobals globalOrig).2 m) := by
  obtain ⟨hdistinct, hvalues, _⟩ := bulkGlobals_spec h globalOrig
  intro hholds
  rcases (hP.holds _).mp hholds with hold | ⟨j, hj, hji, _⟩
  · exact ((hvalues _ hne).mp ⟨m, hm, rfl⟩).2 hold
  · have hlt := List.mem_range.mp hj
    have hmj := hdistinct m j hm (by omega) hne hji.symm
    omega

/-- The last loop of `ref_node_add_many` after `m` entries. -/
theorem bulk_run (h : s.Inv) {m : Nat} (hm : m ≤ (s.bulkGlobals globalOrig).1) :
    ∀ {s1 : RefNode D}, (List.range m).foldlM (bulkStep (s.bulkGlobals globalOrig).2) s = .ok s1 →
      AddedMany s (s.bulkGlobals globalOrig).2 (List.range m) s1 := by
  induction m with
  | zero =>
      intro s1 hrun
      obtain rfl : s = s1 := Except.ok.inj hrun
      exact ⟨h.toSlotInv, SameAllocator.refl s, KeepsNodes.refl s, le_rfl, by simp⟩
  | succ m ih =>
      intro s1 hrun
      rw [List.range_succ, List.foldlM_append, bind_eq_ok] at hrun
      obtain ⟨s2, hrun2, hstep⟩ := hrun
      have hP := ih (by omega) hrun2
      rw [List.range_succ]
      have hbulk : bulkStep (s.bulkGlobals globalOrig).2 s2 m = .ok s1 := by simpa using hstep
      exact hP.step (hP.fresh h hm) hbulk

/-- The size of the arrays after a growth with `n` nodes. -/
def grownMax (n : Nat) : Nat := n + Nat.max 5000 (3 * n / 2)

theorem grownMax_mono {n m : Nat} (h : n ≤ m) : grownMax n ≤ grownMax m :=
  Nat.add_le_add h (max_le_max le_rfl (Nat.div_le_div_right (by omega)))

/-- **`ref_node_add_many`** adds every listed global once.  The value
`REF_EMPTY` in the list is skipped like a repeat. -/
theorem addMany_spec {s' : RefNode D} (h : s.Inv) (hrun : s.addMany globalOrig = .ok s') :
    s'.Inv ∧ SameAllocator s s' ∧ KeepsNodes s s' ∧
      ∀ g, s'.Holds g ↔ s.Holds g ∨ g ∈ globalOrig ∧ g ≠ refEmpty := by
  obtain ⟨_, hvalues, _⟩ := bulkGlobals_spec h globalOrig
  obtain ⟨s1, hloop, rfl⟩ := addMany_eq_ok.mp hrun
  have hmany := bulk_run h le_rfl hloop
  refine ⟨rebuildSortedGlobal_inv hmany.slots, hmany.same.trans ⟨rfl, rfl, rfl, rfl, rfl⟩,
    hmany.keeps.trans ⟨fun _ hk => hk, fun _ _ => rfl, fun _ _ => rfl, fun _ _ => rfl,
      fun _ _ => rfl, rfl⟩, fun g => ?_⟩
  have hholds : s1.rebuildSortedGlobal.Holds g ↔ s1.Holds g := Iff.rfl
  rw [hholds, hmany.holds g]
  constructor
  · intro hg
    rcases hg with hg | ⟨i, hi, hig, hne⟩
    · exact Or.inl hg
    · exact Or.inr ⟨((hvalues g hne).mp ⟨i, List.mem_range.mp hi, hig⟩).1, hne⟩
  · intro hg
    by_cases hold : s.Holds g
    · exact Or.inl hold
    · obtain ⟨hmem, hne⟩ := hg.resolve_left hold
      obtain ⟨i, hi, hig⟩ := (hvalues g hne).mpr ⟨hmem, hold⟩
      exact Or.inr ⟨i, List.mem_range.mpr hi, hig, hne⟩

end Bulk

end RefNode

end RefineMesh
