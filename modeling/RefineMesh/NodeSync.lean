import Mathlib.Tactic
import RefineMesh.ArrayLoops
import RefineMesh.Compaction
import RefineMesh.NodeInvariant
import RefineMesh.Mpi

/-!
# Synchronizing the globals

`ref_node_synchronize_globals` first gives every rank its own range above the
old globals for the globals it has created, then takes the released globals of
all ranks out of the numbering.  The second step goes in rounds: each round
gathers the released globals of a range of ranks and lowers every other global
by the number of them below it.

`REF_GLOB` is a 64 bit integer and is not bounded here; counts are `REF_INT`.
-/

namespace RefineMesh

open Segments Spmd Compaction

variable {D : Type}

namespace RefNode

/-- The loop of `ref_node_shift_new_globals` over `sorted_global`, from the
largest entry down. -/
def shiftTail (oldNGlobal offset : Int) : Nat → (Nat → Int) → (Nat → Int)
  | 0, sortedGlobal => sortedGlobal
  | k+1, sortedGlobal =>
      if oldNGlobal ≤ sortedGlobal k then
        shiftTail oldNGlobal offset k
          (Function.update sortedGlobal k (sortedGlobal k + offset))
      else sortedGlobal

/-- `ref_node_shift_unused`. -/
def shiftUnused (s : RefNode D) (equalAndAbove shift : Int) : RefNode D :=
  { s with
    unusedGlobal := fun i =>
      if i < s.nUnused ∧ equalAndAbove ≤ s.unusedGlobal i then s.unusedGlobal i + shift
      else s.unusedGlobal i }

/-- The shift of all globals that this rank has created. -/
def shiftNew (s : RefNode D) (offset : Int) : RefNode D :=
  if offset = 0 then s
  else
    let s := { s with
      global := fun node =>
        if s.Live node ∧ s.oldNGlobal ≤ s.global node then s.global node + offset
        else s.global node
      sortedGlobal := shiftTail s.oldNGlobal offset s.n s.sortedGlobal }
    s.shiftUnused s.oldNGlobal offset

/-- `ref_node_shift_new_globals`. -/
def shiftNewGlobals (p : Nat) (s : RefNode D) : RankProg D (RefNode D) :=
  let newNodes := s.newNGlobal - s.oldNGlobal
  if (refIntMax : Int) < newNodes then .fail .undefined
  else
    .allgather newNodes fun everyonesNewNodes =>
      let offset := ∑ proc ∈ Finset.range s.rank, everyonesNewNodes proc
      let totalNewNodes := ∑ proc ∈ Finset.range p, everyonesNewNodes proc
      .ret ((s.shiftNew offset).initializeNGlobal (totalNewNodes + s.oldNGlobal))

end RefNode

/-- The inner loop of `ref_node_eliminate_unused_offset`. -/
def advanceOffset (nunused : Nat) (sortedUnused : Nat → Int) (global : Int) : Nat → Nat → Nat
  | 0, offset => offset
  | fuel+1, offset =>
      if offset < nunused ∧ sortedUnused offset < global then
        advanceOffset nunused sortedUnused global fuel (offset + 1)
      else offset

/-- One step of `ref_node_eliminate_unused_offset`. -/
def offsetStep (nunused : Nat) (sortedUnused : Nat → Int) (acc : Nat × (Nat → Int)) (i : Nat) :
    Nat × (Nat → Int) :=
  let offset := advanceOffset nunused sortedUnused (acc.2 i) nunused acc.1
  (offset, Function.update acc.2 i (acc.2 i - offset))

/-- `ref_node_eliminate_unused_offset`. -/
def eliminateUnusedOffset (nglobal : Nat) (sortedGlobals : Nat → Int) (nunused : Nat)
    (sortedUnused : Nat → Int) : Nat → Int :=
  ((List.range nglobal).foldl (offsetStep nunused sortedUnused) (0, sortedGlobals)).2

/-- The loop of `ref_node_eliminate_active_parts`; the sum is a `REF_INT`. -/
def activePartsLoop (n : Nat) (counts : Nat → Nat) (chunk : Nat) :
    Nat → Nat → Nat → Except Status (Nat × Nat)
  | 0, active1, nactive => .ok (active1, nactive)
  | fuel+1, active1, nactive =>
      if active1 < n then
        if refIntMax < nactive + counts active1 then .error .undefined
        else if nactive + counts active1 ≤ chunk then
          activePartsLoop n counts chunk fuel (active1 + 1) (nactive + counts active1)
        else .ok (active1, nactive)
      else .ok (active1, nactive)

/-- `ref_node_eliminate_active_parts`: the end of the active range and the
number of released globals in it. -/
def eliminateActiveParts (n : Nat) (counts : Nat → Nat) (chunk active0 : Nat) :
    Except Status (Nat × Nat) :=
  activePartsLoop n counts chunk n (active0 + 1) (counts active0)

/-- The heuristic of `ref_node_eliminate_unused_globals` for the size of a
round. -/
def eliminateChunk (totalUnused n : Nat) : Nat := max (totalUnused / n + 1) 100000

namespace RefNode

/-- What a round does with the released globals it has gathered. -/
def eliminateGathered (s : RefNode D) (active0 active1 totalActive : Nat) (unused : Nat → Int) :
    RefNode D :=
  let unused := sortInPlace totalActive unused
  let nUnused := if active0 ≤ s.rank ∧ s.rank < active1 then 0 else s.nUnused
  { s with
    nUnused := nUnused
    sortedGlobal := eliminateUnusedOffset s.n s.sortedGlobal totalActive unused
    unusedGlobal := eliminateUnusedOffset nUnused s.unusedGlobal totalActive unused }

/-- The rounds of `ref_node_eliminate_unused_globals` from `active0` on; `mem`
is the memory of the gathered list. -/
def eliminateRounds (p : Nat) (counts : Nat → Nat) (chunk : Nat) (mem : Nat → Int) :
    Nat → Nat → RefNode D → RankProg D (RefNode D)
  | 0, _, s => .ret s
  | fuel+1, active0, s =>
      if active0 < p then
        (Prog.lift (eliminateActiveParts p counts chunk active0)).bind fun active =>
          let active1 := active.1
          let activeCounts := fun part =>
            if active0 ≤ part ∧ part < active1 then counts part else 0
          let totalActive := start activeCounts p
          .allgatherv activeCounts s.unusedGlobal mem fun unused =>
            eliminateRounds p counts chunk mem fuel active1
              (s.eliminateGathered active0 active1 totalActive unused)
      else .ret s

/-- The copy of `sorted_global` back into `global`. -/
def copySorted (s : RefNode D) : RefNode D :=
  { s with
    global := (List.range s.n).foldl
      (fun global i => Function.update global (s.sortedLocal i) (s.sortedGlobal i)) s.global }

/-- `ref_node_eliminate_unused_globals` with any heuristic for the chunks. -/
def eliminateUnusedGlobalsBy (chunkOf : Nat → Nat → Nat) (p : Nat) (mem : Nat → Int)
    (s : RefNode D) : RankProg D (RefNode D) :=
  let s := { s with unusedGlobal := sortInPlace s.nUnused s.unusedGlobal }
  .allgather s.nUnused fun gatheredCounts =>
    let counts := fun part => (gatheredCounts part).toNat
    let totalUnused := start counts p
    let chunk := chunkOf totalUnused p
    if refIntMax < chunk then .fail .undefined
    else
      (eliminateRounds p counts chunk mem p 0 s).bind fun s =>
        .ret (s.copySorted.initializeNGlobal (s.oldNGlobal - totalUnused))

/-- `ref_node_synchronize_globals` with any heuristic for the chunks. -/
def synchronizeGlobalsBy (chunkOf : Nat → Nat → Nat) (p : Nat) (mem : Nat → Int) (s : RefNode D) :
    RankProg D (RefNode D) :=
  (s.shiftNewGlobals p).bind (eliminateUnusedGlobalsBy chunkOf p mem)

/-- `ref_node_synchronize_globals`. -/
def synchronizeGlobals (p : Nat) (mem : Nat → Int) (s : RefNode D) : RankProg D (RefNode D) :=
  s.synchronizeGlobalsBy eliminateChunk p mem

end RefNode

/-! ## Offsets of the released globals -/

/-- How far the released globals below a bound reach. -/
theorem countP_map_range {m o : Nat} {unused : Nat → Int} {x : Int} (ho : o ≤ m)
    (hbelow : ∀ j, j < o → unused j < x) (habove : ∀ j, o ≤ j → j < m → ¬ unused j < x) :
    ((List.range m).map unused).countP (· < x) = o := by
  induction m with
  | zero =>
      obtain rfl : o = 0 := by omega
      rfl
  | succ m ih =>
      rw [List.range_succ, List.map_append, List.countP_append]
      by_cases hall : o = m + 1
      · have hm : ((List.range m).map unused).countP (· < x) = m := by
          rw [List.countP_eq_length.mpr, List.length_map, List.length_range]
          intro u hu
          obtain ⟨j, hj, rfl⟩ := List.mem_map.mp hu
          simpa using hbelow j (by have := List.mem_range.mp hj; omega)
        rw [hm]
        simp [hbelow m (by omega), hall]
      · rw [ih (by omega) fun j hj hjm => habove j hj (by omega)]
        have hlast := habove m (by omega) (by omega)
        simp [hlast]

/-- The inner loop stops at the number of released globals below `x`. -/
theorem advanceOffset_spec {m : Nat} {unused : Nat → Int} (x : Int)
    (hunused : ∀ i j, i ≤ j → j < m → unused i ≤ unused j) :
    ∀ fuel offset, m - offset ≤ fuel → offset ≤ m → (∀ j, j < offset → unused j < x) →
      advanceOffset m unused x fuel offset = ((List.range m).map unused).countP (· < x) ∧
        ∀ j, j < advanceOffset m unused x fuel offset → unused j < x := by
  intro fuel
  induction fuel with
  | zero =>
      intro offset hfuel hle hbelow
      rw [countP_map_range hle hbelow (fun j hj hjm => by omega)]
      exact ⟨rfl, hbelow⟩
  | succ fuel ih =>
      intro offset hfuel hle hbelow
      unfold advanceOffset
      split
      · rename_i hnext
        apply ih (offset + 1) (by omega) (by omega)
        intro j hj
        exact (hunused j offset (by omega) hnext.1).trans_lt hnext.2
      · rename_i hstop
        rw [countP_map_range hle hbelow]
        · exact ⟨rfl, hbelow⟩
        · intro j hj hjm hlt
          exact hstop ⟨by omega, (hunused offset j hj hjm).trans_lt hlt⟩

/-- **`ref_node_eliminate_unused_offset`** lowers every entry by the number of
released globals below it. -/
theorem eliminateUnusedOffset_apply {n m : Nat} {sorted unused : Nat → Int}
    (hsorted : ∀ i j, i ≤ j → j < n → sorted i ≤ sorted j)
    (hunused : ∀ i j, i ≤ j → j < m → unused i ≤ unused j) (i : Nat) :
    eliminateUnusedOffset n sorted m unused i =
      if i < n then squeeze ((List.range m).map unused) (sorted i) else sorted i := by
  -- the offset reached is below every entry still to come
  let P : List Nat → List Nat → Nat × (Nat → Int) → Prop := fun done rest acc =>
    done ++ rest = List.range n ∧ acc.1 ≤ m ∧
      (∀ j, j < acc.1 → ∀ i, done.length ≤ i → i < n → unused j < sorted i) ∧
      ∀ i, acc.2 i = if i < done.length then squeeze ((List.range m).map unused) (sorted i)
        else sorted i
  have hend : P (List.range n) []
      ((List.range n).foldl (offsetStep m unused) (0, sorted)) := by
    apply ArrayLoop.foldl_inv P
    · intro done k rest acc hP
      obtain ⟨hsplit, hle, hbelow, hval⟩ := hP
      obtain ⟨rfl, hlt⟩ := ArrayLoop.range_split hsplit
      have hcur : acc.2 done.length = sorted done.length := by
        rw [hval, if_neg (lt_irrefl _)]
      obtain ⟨hoffset, hreached⟩ := advanceOffset_spec (sorted done.length) hunused m acc.1
        (by omega) hle fun j hj => hbelow j hj done.length le_rfl hlt
      rw [← hcur] at hoffset hreached
      refine ⟨by simpa using hsplit, ?_, ?_, ?_⟩
      · change advanceOffset m unused (acc.2 done.length) m acc.1 ≤ m
        rw [hoffset]
        exact List.countP_le_length.trans (by simp)
      · intro j hj i hi hin
        rw [List.length_append] at hi
        calc unused j < acc.2 done.length := hreached j hj
          _ = sorted done.length := hcur
          _ ≤ sorted i := hsorted done.length i (by omega) hin
      · intro i
        change Function.update acc.2 done.length _ i = _
        rw [List.length_append, List.length_singleton]
        by_cases hi : i = done.length
        · subst hi
          rw [Function.update_self, if_pos (by omega), hoffset, hcur]
          rfl
        · rw [Function.update_of_ne hi, hval]
          by_cases hi' : i < done.length
          · rw [if_pos hi', if_pos (by omega)]
          · rw [if_neg hi', if_neg (by omega)]
    · refine ⟨rfl, Nat.zero_le m, fun j hj => absurd hj (Nat.not_lt_zero j), fun i => ?_⟩
      rw [List.length_nil, if_neg (Nat.not_lt_zero i)]
  have hval := hend.2.2.2 i
  rwa [List.length_range] at hval

/-! ## Renaming the live globals -/

namespace RefNode

/-- `s'` is `s` with the globals of the valid nodes renamed. -/
structure Relabels (φ : Int → Int) (s s' : RefNode D) : Prop where
  n : s'.n = s.n
  max : s'.max = s.max
  blank : s'.blank = s.blank
  sortedLocal : s'.sortedLocal = s.sortedLocal
  rank : s'.rank = s.rank
  live : ∀ k, s.Live k → s'.global k = φ (s.global k)
  dead : ∀ k, ¬ s.Live k → s'.global k = s.global k
  sorted : ∀ i, i < s.n → s'.sortedGlobal i = φ (s.sortedGlobal i)

/-- A renaming that keeps the order of the live globals. -/
structure KeepsOrder (φ : Int → Int) (s : RefNode D) : Prop where
  nonneg : ∀ g, s.Holds g → 0 ≤ φ g
  strictMono : ∀ g g', s.Holds g → s.Holds g' → g < g' → φ g < φ g'

theorem Relabels.live_iff {φ : Int → Int} {s s' : RefNode D} (h : Relabels φ s s')
    (hφ : KeepsOrder φ s) (k : Nat) : s'.Live k ↔ s.Live k := by
  by_cases hk : s.Live k
  · refine iff_of_true ⟨?_, ?_⟩ hk
    · rw [h.max]
      exact hk.1
    · rw [h.live k hk]
      exact hφ.nonneg _ ⟨k, hk, rfl⟩
  · refine iff_of_false ?_ hk
    intro hk'
    refine hk ⟨?_, ?_⟩
    · rw [← h.max]
      exact hk'.1
    · rw [← h.dead k hk]
      exact hk'.2

theorem Inv.holds_sorted {s : RefNode D} (h : s.Inv) {i : Nat} (hi : i < s.n) :
    s.Holds (s.sortedGlobal i) := ⟨s.sortedLocal i, h.aligned i hi⟩

/-- The invariant survives a renaming that keeps the order. -/
theorem Relabels.inv {φ : Int → Int} {s s' : RefNode D} (h : Relabels φ s s')
    (hφ : KeepsOrder φ s) (hinv : s.Inv) : s'.Inv := by
  have hlive := h.live_iff hφ
  refine ⟨⟨?_, ?_, ?_, ?_⟩, ?_, ?_, ?_⟩
  · rw [h.blank]
    apply hinv.blank.congr
    · intro k
      have := hlive k
      unfold Live at this
      rw [h.max] at this ⊢
      grind
    · intro k hk
      exact h.dead k fun hlive => hk.2 hlive.2
  · rw [h.n, h.max, ← hinv.count]
    apply SlotList.liveCount_congr
    intro k
    rw [hlive]
  · intro i j hi hj heq
    have hi := (hlive i).mp hi
    have hj := (hlive j).mp hj
    rw [h.live i hi, h.live j hj] at heq
    apply hinv.distinct i j hi hj
    rcases lt_trichotomy (s.global i) (s.global j) with hlt | he | hlt
    · exact absurd heq (hφ.strictMono _ _ ⟨i, hi, rfl⟩ ⟨j, hj, rfl⟩ hlt).ne
    · exact he
    · exact absurd heq (hφ.strictMono _ _ ⟨j, hj, rfl⟩ ⟨i, hi, rfl⟩ hlt).ne'
  · rw [h.max]
    exact hinv.fits
  · intro i j hij hj
    rw [h.n] at hj
    rw [h.sorted i (by omega), h.sorted j hj]
    exact hφ.strictMono _ _ (hinv.holds_sorted (by omega)) (hinv.holds_sorted hj)
      (hinv.ascending i j hij hj)
  · intro i hi
    rw [h.n] at hi
    obtain ⟨hl, hg⟩ := hinv.aligned i hi
    rw [h.sortedLocal, h.sorted i hi, hlive, h.live _ hl, hg]
    exact ⟨hl, rfl⟩
  · intro k hk
    rw [h.n, h.sortedLocal]
    exact hinv.covers k ((hlive k).mp hk)

/-! ## The shift of new globals -/

/-- The released globals of a rank. -/
def unusedList (s : RefNode D) : List Int := (List.range s.nUnused).map s.unusedGlobal

theorem shiftNew_oldNGlobal (s : RefNode D) (offset : Int) :
    (s.shiftNew offset).oldNGlobal = s.oldNGlobal := by
  unfold shiftNew
  split <;> rfl

end RefNode

end RefineMesh
