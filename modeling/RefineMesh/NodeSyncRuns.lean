import Mathlib.Tactic
import RefineMesh.NodeSync

/-!
# Runs of the synchronization

The rounds of the elimination are carried by `AtRound`: when the ranks below
`a` are done, every live global and every released global still waiting has
been squeezed by the released globals of those ranks.  A round squeezes by the
numbers the next ranks' released globals have by then, which is the same as to
squeeze by all of them at once.
-/

namespace RefineMesh

open Segments Spmd Compaction RefNode

variable {D : Type}

/-! ## Active parts -/

theorem activePartsLoop_spec {n : Nat} {counts : Nat → Nat} {chunk : Nat} :
    ∀ {fuel active1 nactive : Nat} {result : Nat × Nat},
      activePartsLoop n counts chunk fuel active1 nactive = .ok result → active1 ≤ n →
      active1 ≤ result.1 ∧ result.1 ≤ n := by
  intro fuel
  induction fuel with
  | zero =>
      intro active1 nactive result hrun hle
      obtain rfl := Except.ok.inj hrun
      exact ⟨le_rfl, hle⟩
  | succ fuel ih =>
      intro active1 nactive result hrun hle
      unfold activePartsLoop at hrun
      split at hrun
      · split at hrun
        · cases hrun
        · split at hrun
          · have hnext := ih hrun (by omega)
            omega
          · obtain rfl := Except.ok.inj hrun
            exact ⟨le_rfl, hle⟩
      · obtain rfl := Except.ok.inj hrun
        exact ⟨le_rfl, hle⟩

/-- A round has at least one rank. -/
theorem eliminateActiveParts_spec {n : Nat} {counts : Nat → Nat} {chunk active0 : Nat}
    {result : Nat × Nat} (hrun : eliminateActiveParts n counts chunk active0 = .ok result)
    (hactive : active0 < n) : active0 < result.1 ∧ result.1 ≤ n := by
  have h := activePartsLoop_spec hrun (by omega)
  omega

/-! ## Pools of released globals -/

/-- The released globals of the ranks below `a`. -/
def pool (unused : Nat → List Int) (a : Nat) : List Int := (List.range a).flatMap unused

theorem pool_append {unused : Nat → List Int} {a a1 : Nat} (ha : a ≤ a1) (m : Nat) :
    pool unused a ++
        ((List.range m).flatMap fun q => if a ≤ q ∧ q < a1 then unused q else []) =
      pool unused (max a (min m a1)) := by
  induction m with
  | zero => simp
  | succ m ih =>
      rw [List.range_succ, List.flatMap_append, ← List.append_assoc, ih]
      by_cases hin : a ≤ m ∧ m < a1
      · rw [show max a (min m a1) = m by omega, show max a (min (m + 1) a1) = m + 1 by omega]
        simp [pool, List.range_succ, hin]
      · rw [show max a (min (m + 1) a1) = max a (min m a1) by omega]
        simp [hin]

theorem mem_pool {unused : Nat → List Int} {a : Nat} {g : Int} :
    g ∈ pool unused a ↔ ∃ q, q < a ∧ g ∈ unused q := by
  simp [pool]

/-- The pools of fewer ranks have no repetition either, and the released
globals of later ranks are not in them. -/
theorem pool_nodup {unused : Nat → List Int} {a p : Nat} (ha : a ≤ p)
    (h : (pool unused p).Nodup) : (pool unused a).Nodup ∧
      ∀ q, a ≤ q → q < p → ∀ g ∈ unused q, g ∉ pool unused a := by
  rw [pool, List.nodup_flatMap] at h
  refine ⟨List.nodup_flatMap.mpr ⟨fun q hq => h.1 q ?_, ?_⟩, ?_⟩
  · have := List.mem_range.mp hq
    exact List.mem_range.mpr (by omega)
  · exact h.2.sublist (List.range_sublist.mpr ha)
  · intro q haq hq g hg hpool
    obtain ⟨q', hq', hg'⟩ := mem_pool.mp hpool
    have hdisj := List.pairwise_iff_getElem.mp h.2 q' q (by simp; omega) (by simp; omega) (by omega)
    simp only [List.getElem_range] at hdisj
    exact hdisj hg' hg

/-! ## Rounds -/

/-- Stores of all ranks that number `M` globals together: every one of them is
live somewhere or waits, once, in the pool of the released globals. -/
structure Pooled (p : Nat) (b : Nat → RefNode D) (M : Nat) : Prop where
  inv : ∀ r, r < p → (b r).Inv
  rank : ∀ r, r < p → (b r).rank = r
  count : ∀ r, r < p → (b r).oldNGlobal = M
  nodup : (pool (fun r => (b r).unusedList) p).Nodup
  bounds : ∀ u ∈ pool (fun r => (b r).unusedList) p, 0 ≤ u ∧ u < M
  liveBound : ∀ r, r < p → ∀ g, (b r).Holds g → g < M
  apart : ∀ r, r < p → ∀ g, (b r).Holds g → g ∉ pool (fun r => (b r).unusedList) p
  cover : ∀ g : Int, 0 ≤ g → g < M →
    (∃ r, r < p ∧ (b r).Holds g) ∨ g ∈ pool (fun r => (b r).unusedList) p

/-- The store of rank `r` when the ranks below `a` are done. -/
structure AtRound (b : Nat → RefNode D) (a r : Nat) (s : RefNode D) : Prop where
  frame : s = { b r with
    nUnused := s.nUnused, sortedGlobal := s.sortedGlobal, unusedGlobal := s.unusedGlobal }
  sorted : ∀ i, i < (b r).n →
    s.sortedGlobal i = squeeze (pool (fun r => (b r).unusedList) a) ((b r).sortedGlobal i)
  done : r < a → s.nUnused = 0
  todo : a ≤ r → s.nUnused = (b r).nUnused ∧ ∀ i, i < (b r).nUnused →
    s.unusedGlobal i = squeeze (pool (fun r => (b r).unusedList) a) ((b r).unusedGlobal i)

section Rounds

variable {p M : Nat} {b : Nat → RefNode D}

theorem Pooled.holds_not_mem_pool (h : Pooled p b M) {a r : Nat} (ha : a ≤ p) (hr : r < p)
    {g : Int} (hg : (b r).Holds g) : g ∉ pool (fun r => (b r).unusedList) a := by
  intro hpool
  obtain ⟨q, hq, hgq⟩ := mem_pool.mp hpool
  exact h.apart r hr g hg (mem_pool.mpr ⟨q, by omega, hgq⟩)

theorem mem_unusedList {s : RefNode D} {i : Nat} (hi : i < s.nUnused) :
    s.unusedGlobal i ∈ s.unusedList :=
  List.mem_map.mpr ⟨i, List.mem_range.mpr hi, rfl⟩

/-- Squeezing keeps the order of entries that stay, repetitions included. -/
theorem squeeze_le {l : List Int} {x y : Int} (hnodup : l.Nodup) (hx : x ∉ l) (hxy : x ≤ y) :
    squeeze l x ≤ squeeze l y := by
  rcases lt_or_eq_of_le hxy with hlt | heq
  · exact (squeeze_lt hnodup hx hlt).le
  · rw [heq]

/-- What a round gathers: the released globals of its ranks as they are
numbered by then. -/
theorem map_gathered_active {counts : Nat → Nat} {a a1 : Nat} {s : Nat → RefNode D}
    (hcounts : ∀ q, q < p → counts q = (b q).nUnused) (hs : ∀ q, q < p → AtRound b a q (s q))
    (mem : Nat → Int) :
    (List.range (start (fun q => if a ≤ q ∧ q < a1 then counts q else 0) p)).map
        (gathered p (fun q => if a ≤ q ∧ q < a1 then counts q else 0)
          (fun q => (s q).unusedGlobal) mem) =
      ((List.range p).flatMap fun q => if a ≤ q ∧ q < a1 then (b q).unusedList else []).map
        (squeeze (pool (fun r => (b r).unusedList) a)) := by
  rw [map_gathered, List.map_flatMap]
  apply List.flatMap_congr
  intro q hq
  have hq : q < p := List.mem_range.mp hq
  by_cases hin : a ≤ q ∧ q < a1
  · simp only [if_pos hin]
    rw [unusedList, List.map_map, hcounts q hq]
    apply List.map_congr_left
    intro i hi
    exact ((hs q hq).todo hin.1).2 i (List.mem_range.mp hi)
  · simp only [if_neg hin]
    rfl

/-- **One round.** -/
theorem AtRound.step {counts : Nat → Nat} {a a1 r : Nat} {s : Nat → RefNode D}
    (h : Pooled p b M)
    (hsorted : ∀ r, r < p → ∀ i j, i ≤ j → j < (b r).nUnused →
      (b r).unusedGlobal i ≤ (b r).unusedGlobal j)
    (hcounts : ∀ q, q < p → counts q = (b q).nUnused) (ha : a < a1) (hap : a1 ≤ p)
    (hs : ∀ q, q < p → AtRound b a q (s q)) (hr : r < p) (mem : Nat → Int) :
    AtRound b a1 r ((s r).eliminateGathered a a1
      (start (fun q => if a ≤ q ∧ q < a1 then counts q else 0) p)
      (gathered p (fun q => if a ≤ q ∧ q < a1 then counts q else 0)
        (fun q => (s q).unusedGlobal) mem)) := by
  set total := start (fun q => if a ≤ q ∧ q < a1 then counts q else 0) p
  set list := gathered p (fun q => if a ≤ q ∧ q < a1 then counts q else 0)
    (fun q => (s q).unusedGlobal) mem with hlist
  obtain ⟨hnodup, hlater⟩ := pool_nodup (show a ≤ p by omega) h.nodup
  obtain ⟨hasc, hperm⟩ := sortInPlace_spec total list
  -- a number that is not in the pool yet goes from the pool of `a` to that of `a1`
  have hround : ∀ x, x ∉ pool (fun r => (b r).unusedList) a →
      squeeze ((List.range total).map (sortInPlace total list))
          (squeeze (pool (fun r => (b r).unusedList) a) x) =
        squeeze (pool (fun r => (b r).unusedList) a1) x := by
    intro x hx
    rw [squeeze_perm hperm, hlist, map_gathered_active hcounts hs, squeeze_squeeze hnodup hx,
      pool_append ha.le, show max a (min p a1) = a1 by omega]
    intro u hu
    simp only [List.mem_flatMap, List.mem_range] at hu
    obtain ⟨q, hq, hu⟩ := hu
    split at hu
    · rename_i hin
      exact hlater q hin.1 hq u hu
    · cases hu
  have hn : (s r).n = (b r).n := by rw [(hs r hr).frame]
  have hrank : (s r).rank = r := by rw [(hs r hr).frame]; exact h.rank r hr
  refine ⟨?_, ?_, ?_, ?_⟩
  · have hframe := (hs r hr).frame
    rw [eliminateGathered, hframe]
  · intro i hi
    have hlive : ∀ j, j < (b r).n → (b r).sortedGlobal j ∉ pool (fun r => (b r).unusedList) a :=
      fun j hj => h.holds_not_mem_pool (by omega) hr ((h.inv r hr).holds_sorted hj)
    change eliminateUnusedOffset (s r).n (s r).sortedGlobal total (sortInPlace total list) i = _
    rw [eliminateUnusedOffset_apply _ hasc, hn, if_pos hi, (hs r hr).sorted i hi,
      hround _ (hlive i hi)]
    intro j k hjk hk
    rw [hn] at hk
    rw [(hs r hr).sorted j (by omega), (hs r hr).sorted k hk]
    exact squeeze_le hnodup (hlive j (by omega)) ((h.inv r hr).nondecreasing j k hjk hk)
  · intro hdone
    change (if a ≤ (s r).rank ∧ (s r).rank < a1 then 0 else (s r).nUnused) = 0
    rw [hrank]
    split
    · rfl
    · rename_i hpassive
      exact (hs r hr).done (by omega)
  · intro htodo
    obtain ⟨hcount, hval⟩ := (hs r hr).todo (by omega)
    have hpassive : (if a ≤ (s r).rank ∧ (s r).rank < a1 then 0 else (s r).nUnused) =
        (b r).nUnused := by
      rw [hrank, if_neg (by omega), hcount]
    have hout : ∀ j, j < (b r).nUnused →
        (b r).unusedGlobal j ∉ pool (fun r => (b r).unusedList) a :=
      fun j hj => hlater r (by omega) hr _ (mem_unusedList hj)
    refine ⟨hpassive, ?_⟩
    intro i hi
    change eliminateUnusedOffset
      (if a ≤ (s r).rank ∧ (s r).rank < a1 then 0 else (s r).nUnused) (s r).unusedGlobal total
      (sortInPlace total list) i = _
    rw [hpassive, eliminateUnusedOffset_apply _ hasc, if_pos hi, hval i hi, hround _ (hout i hi)]
    intro j k hjk hk
    rw [hval j (by omega), hval k hk]
    exact squeeze_le hnodup (hout j (by omega)) (hsorted r hr j k hjk hk)

end Rounds

/-! ## The elimination -/

section Elimination

variable {p M : Nat} {b : Nat → RefNode D}

end Elimination

/-! ## The whole synchronization -/

/-- What a global stands for: the same thing on all ranks when it is old, a
thing of this rank alone when the rank has created it. -/
def identity (N : Nat) (r : Nat) (g : Int) : Option Nat × Int :=
  if g < N then (none, g) else (some r, g)

/-- The ranks before the call: `N` old globals, `k r` new ones on rank `r`,
every one of them live or released and never both. -/
structure Unsynchronized (p : Nat) (s : Nat → RefNode D) (N : Nat) (k : Nat → Nat) : Prop where
  inv : ∀ r, r < p → (s r).Inv
  rank : ∀ r, r < p → (s r).rank = r
  old : ∀ r, r < p → (s r).oldNGlobal = N
  new : ∀ r, r < p → (s r).newNGlobal = N + k r
  liveBound : ∀ r, r < p → ∀ g, (s r).Holds g → g < N + k r
  releasedBound : ∀ r, r < p → ∀ g ∈ (s r).unusedList, 0 ≤ g ∧ g < N + k r
  releasedOnce : ∀ r, r < p → (s r).unusedList.Nodup
  releasedOnOne : ∀ r r', r < p → r' < p → r ≠ r' → ∀ g : Int, g < N →
    g ∈ (s r).unusedList → g ∉ (s r').unusedList
  notBothOld : ∀ r r', r < p → r' < p → ∀ g : Int, g < N → g ∈ (s r).unusedList →
    ¬ (s r').Holds g
  notBothNew : ∀ r, r < p → ∀ g : Int, N ≤ g → g ∈ (s r).unusedList → ¬ (s r).Holds g
  coverOld : ∀ g : Int, 0 ≤ g → g < N →
    (∃ r, r < p ∧ (s r).Holds g) ∨ ∃ r, r < p ∧ g ∈ (s r).unusedList
  coverNew : ∀ r, r < p → ∀ g : Int, N ≤ g → g < N + k r → (s r).Holds g ∨ g ∈ (s r).unusedList

/-- The ranks after the call: `nGlobal` globals on all of them, all live. -/
structure Synchronized (p : Nat) (s : Nat → RefNode D) (N : Nat) (nGlobal : Int)
    (out : Nat → RefNode D) : Prop where
  inv : ∀ r, r < p → (out r).Inv
  slots : ∀ r, r < p → ∀ node, (out r).Live node ↔ (s r).Live node
  old : ∀ r, r < p → (out r).oldNGlobal = nGlobal
  new : ∀ r, r < p → (out r).newNGlobal = nGlobal
  released : ∀ r, r < p → (out r).nUnused = 0
  compact : ∀ g, (∃ r, r < p ∧ (out r).Holds g) ↔ 0 ≤ g ∧ g < nGlobal
  consistent : ∀ r r', r < p → r' < p → ∀ node node', (s r).Live node → (s r').Live node' →
    ((out r).global node = (out r').global node' ↔
      identity N r ((s r).global node) = identity N r' ((s r').global node'))

section Synchronization

variable {p N : Nat} {s : Nat → RefNode D} {k : Nat → Nat}

end Synchronization

/-! ## Nothing to do -/

section Settled

variable {p N : Nat} {s : Nat → RefNode D}

theorem eliminateGathered_nothing {s : RefNode D} (h : s.Inv) (hnone : s.nUnused = 0) (a a1 : Nat)
    (unused : Nat → Int) : s.eliminateGathered a a1 0 unused = s := by
  have hsorted : eliminateUnusedOffset s.n s.sortedGlobal 0 (sortInPlace 0 unused) =
      s.sortedGlobal := by
    funext i
    rw [eliminateUnusedOffset_apply h.nondecreasing fun i j _ hj => absurd hj (Nat.not_lt_zero j)]
    simp [squeeze]
  have hcount : (if a ≤ s.rank ∧ s.rank < a1 then 0 else s.nUnused) = s.nUnused := by
    rw [hnone, ite_self]
  unfold eliminateGathered
  simp only [hsorted, hcount]
  rw [hnone]
  simp only [eliminateUnusedOffset, List.range_zero, List.foldl_nil]
  rw [← hnone]

theorem activePartsLoop_nothing (chunk : Nat) :
    ∀ fuel a1, ∃ active, activePartsLoop p (fun _ => 0) chunk fuel a1 0 = .ok active := by
  intro fuel
  induction fuel with
  | zero => exact fun a1 => ⟨_, rfl⟩
  | succ fuel ih =>
      intro a1
      rw [activePartsLoop]
      split
      · rw [if_neg (by simp), if_pos (by simp)]
        exact ih (a1 + 1)
      · exact ⟨_, rfl⟩

theorem eliminateRounds_nothing (hinv : ∀ r, r < p → (s r).Inv)
    (hnone : ∀ r, r < p → (s r).nUnused = 0) (chunk : Nat) (mem : Nat → Nat → Int) :
    ∀ fuel a, a ≤ p → p - a ≤ fuel →
      Runs p (fun r => (s r).eliminateRounds p (fun _ => 0) chunk (mem r) fuel a) s := by
  intro fuel
  induction fuel with
  | zero => exact fun a _ _ => .ret fun r _ => rfl
  | succ fuel ih =>
      intro a ha hfuel
      by_cases hend : a < p
      · obtain ⟨active, hactive⟩ := activePartsLoop_nothing (p := p) chunk p (a + 1)
        obtain ⟨hgrow, hle⟩ := eliminateActiveParts_spec hactive hend
        refine .allgatherv (fun _ _ => 0) (fun r => (s r).unusedGlobal) mem
          (fun r unused => eliminateRounds p (fun _ => 0) chunk (mem r) fuel active.1
            ((s r).eliminateGathered a active.1 0 unused))
          (fun r hr => ?_) (fun r q hr hq => rfl) ?_
        · rw [eliminateRounds, if_pos hend, eliminateActiveParts, hactive]
          simp only [ite_self, start, Finset.sum_const_zero]
          rfl
        · refine (ih active.1 hle (by omega)).congr fun r hr => ?_
          rw [eliminateGathered_nothing (hinv r hr) (hnone r hr)]
      · refine .ret fun r _ => ?_
        rw [eliminateRounds, if_neg hend]

theorem copySorted_nothing {s : RefNode D} (h : s.Inv) : s.copySorted = s := by
  have hglobal : (List.range s.n).foldl
      (fun global i => Function.update global (s.sortedLocal i) (s.sortedGlobal i)) s.global =
      s.global := by
    suffices haux : ∀ l : List Nat, (∀ i ∈ l, i < s.n) → l.foldl
        (fun global i => Function.update global (s.sortedLocal i) (s.sortedGlobal i)) s.global =
        s.global from haux _ fun i hi => List.mem_range.mp hi
    intro l
    induction l with
    | nil => exact fun _ => rfl
    | cons i l ih =>
        intro hl
        have hsame : Function.update s.global (s.sortedLocal i) (s.sortedGlobal i) = s.global := by
          rw [← (h.aligned i (hl i List.mem_cons_self)).2, Function.update_eq_self]
        rw [List.foldl_cons, hsame]
        exact ih fun j hj => hl j (List.mem_cons_of_mem _ hj)
  unfold copySorted
  rw [hglobal]

/-- Ranks without new and without released globals stay as they are. -/
theorem synchronizeGlobals_nothing (hinv : ∀ r, r < p → (s r).Inv)
    (hold : ∀ r, r < p → (s r).oldNGlobal = N) (hnew : ∀ r, r < p → (s r).newNGlobal = N)
    (hnone : ∀ r, r < p → (s r).nUnused = 0) (mem : Nat → Nat → Int) :
    Runs p (fun r => (s r).synchronizeGlobals p (mem r)) s := by
  have hzero : ∀ m, ∑ proc ∈ Finset.range m,
      onRanks p (fun r => (s r).newNGlobal - (s r).oldNGlobal) proc = 0 := by
    intro m
    apply Finset.sum_eq_zero
    intro q _
    unfold onRanks
    split
    · rename_i hq
      simp only [hnew q hq, hold q hq, sub_self]
    · rfl
  have hsame : ∀ u : RefNode D, u.oldNGlobal = N → u.newNGlobal = N →
      u.initializeNGlobal N = u := by
    intro u hu hu'
    cases u
    simp_all [initializeNGlobal]
  have hshift : Runs p (fun r => (s r).shiftNewGlobals p) s := by
    refine .allgather (fun r => (s r).newNGlobal - (s r).oldNGlobal)
      (fun r everyones => .ret (((s r).shiftNew
        (∑ proc ∈ Finset.range (s r).rank, everyones proc)).initializeNGlobal
          (∑ proc ∈ Finset.range p, everyones proc + (s r).oldNGlobal)))
      (fun r hr => ?_) (.ret fun r hr => ?_)
    · rw [shiftNewGlobals, if_neg (by rw [hnew r hr, hold r hr]; simp [refIntMax])]
    · rw [hzero, hzero, shiftNew, if_pos rfl, zero_add, hold r hr, hsame _ (hold r hr) (hnew r hr)]
  have hgathered : onRanks p (fun r => ((s r).nUnused : Int)) = fun _ => 0 := by
    funext q
    unfold onRanks
    split
    · rename_i hq
      simp only [hnone q hq, Nat.cast_zero]
    · rfl
  have hsort : ∀ r, r < p →
      { s r with unusedGlobal := sortInPlace (s r).nUnused (s r).unusedGlobal } = s r := by
    intro r hr
    simp only [hnone r hr, sortInPlace, Nat.zero_lt_two, if_true]
    rw [← hnone r hr]
  apply hshift.bind
  have hrounds := eliminateRounds_nothing hinv hnone (eliminateChunk 0 p) mem p 0 (Nat.zero_le p)
    (by omega)
  let total : (Nat → Int) → Nat := fun gathered => start (fun part => (gathered part).toNat) p
  refine .allgather (fun r => ((s r).nUnused : Int))
    (fun r gathered =>
      if refIntMax < eliminateChunk (total gathered) p then .fail .undefined
      else ((s r).eliminateRounds p (fun part => (gathered part).toNat)
        (eliminateChunk (total gathered) p) (mem r) p 0).bind fun u =>
          .ret (u.copySorted.initializeNGlobal (u.oldNGlobal - total gathered)))
    (fun r hr => ?_) ?_
  · rw [eliminateUnusedGlobalsBy, hsort r hr]
  · refine Runs.congr (hrounds.bind (f := fun _ u =>
      .ret (u.copySorted.initializeNGlobal (u.oldNGlobal - (0 : Nat)))) (.ret fun r hr => ?_)) ?_
    · rw [copySorted_nothing (hinv r hr), hold r hr, Nat.cast_zero, sub_zero,
        hsame _ (hold r hr) (hnew r hr)]
    · intro r _
      have htotal : total (fun _ => 0) = 0 := by simp [total, start]
      rw [hgathered]
      simp only [htotal]
      rw [if_neg (by simp [eliminateChunk, refIntMax])]
      rfl

end Settled

/-! ## Two ranks with released globals -/

end RefineMesh
