import Mathlib.Tactic
import RefineMesh.NodeInvariant

/-!
# Runs of the node store

A run is any sequence of successful calls from `ref_node_create`.  The ledger
of a run is its store together with the globals that `ref_node_next_global`
has handed out and that no removal has released since.

The representation holds along every run.  The freshness of the globals handed
out also depends on the callers: `ref_node_add` accepts any global, so it
holds along the runs whose calls keep to `Disciplined`.
-/

namespace RefineMesh

open SlotList RefNode

variable {D : Type}

/-- The calls of a run.  A `deferred` batch is a sequence of the removals that
invalidate the sorted arrays, `true` for those that release the global,
followed by `ref_node_rebuild_sorted_global`. -/
inductive NodeCall where
  | initializeNGlobal (nGlobal : Int)
  | add (global : Int)
  | addMany (globals : List Int)
  | remove (node : Nat)
  | removeWithoutGlobal (node : Nat)
  | deferred (removals : List (Bool × Nat))
  | nextGlobal

/-- A store and the globals handed out and not released. -/
structure Ledger (D : Type) where
  store : RefNode D
  out : List Int

namespace Ledger

/-- One removal of a deferred batch. -/
def deferredRemove (l : Ledger D) (removal : Bool × Nat) : Except Status (Ledger D) :=
  if removal.1 then do
    let s ← l.store.removeInvalidatesSorted removal.2
    .ok ⟨s, l.out.filter (· ≠ l.store.global removal.2)⟩
  else do
    let s ← l.store.removeWithoutGlobalInvalidatesSorted removal.2
    .ok ⟨s, l.out⟩

/-- One call of a run. -/
def call [RefDbl D] (l : Ledger D) : NodeCall → Except Status (Ledger D)
  | .initializeNGlobal nGlobal => .ok ⟨l.store.initializeNGlobal nGlobal, l.out⟩
  | .add global => do
      let r ← l.store.add global
      .ok ⟨r.1, l.out⟩
  | .addMany globals => do
      let s ← l.store.addMany globals
      .ok ⟨s, l.out⟩
  | .remove node => do
      let s ← l.store.remove node
      .ok ⟨s, l.out.filter (· ≠ l.store.global node)⟩
  | .removeWithoutGlobal node => do
      let s ← l.store.removeWithoutGlobal node
      .ok ⟨s, l.out⟩
  | .deferred removals => do
      let l ← removals.foldlM deferredRemove l
      .ok ⟨l.store.rebuildSortedGlobal, l.out⟩
  | .nextGlobal => do
      let r ← l.store.nextGlobal
      .ok ⟨r.1, r.2 :: l.out⟩

/-- The ledgers reached by successful calls that `admits` lets through. -/
inductive Reaches [RefDbl D] (admits : Ledger D → NodeCall → Prop) (start : Ledger D) :
    Ledger D → Prop
  | start : Reaches admits start start
  | call {l l' : Ledger D} {c : NodeCall} : Reaches admits start l → admits l c →
      l.call c = .ok l' → Reaches admits start l'

/-- The rule for invariants of runs. -/
theorem Reaches.invariant [RefDbl D] {admits : Ledger D → NodeCall → Prop} {start : Ledger D}
    (P : Ledger D → Prop) (hstart : P start)
    (hcall : ∀ l l' c, P l → admits l c → l.call c = .ok l' → P l') {l : Ledger D}
    (h : Reaches admits start l) : P l := by
  induction h with
  | start => exact hstart
  | call _ hadm hrun ih => exact hcall _ _ _ ih hadm hrun

end Ledger

namespace RefNode

/-- The global waits on the stack of released globals. -/
def Released (s : RefNode D) (g : Int) : Prop := ∃ i, i < s.nUnused ∧ s.unusedGlobal i = g

theorem pushUnused_released (s : RefNode D) (unused g : Int) :
    (s.pushUnused unused).Released g ↔ s.Released g ∨ g = unused := by
  constructor
  · intro h
    obtain ⟨i, hi, hg⟩ := h
    simp only [pushUnused] at hi hg
    by_cases hin : i = s.nUnused
    · subst hin
      rw [Function.update_self] at hg
      exact Or.inr hg.symm
    · rw [Function.update_of_ne hin] at hg
      exact Or.inl ⟨i, by omega, hg⟩
  · intro h
    rcases h with ⟨i, hi, hg⟩ | rfl
    · exact ⟨i, Nat.lt_succ_of_lt hi, by simp [pushUnused, hg, hi.ne]⟩
    · exact ⟨s.nUnused, Nat.lt_succ_self _, by simp [pushUnused]⟩

theorem SameAllocator.released {s s' : RefNode D} (h : SameAllocator s s') (g : Int) :
    s'.Released g ↔ s.Released g := by
  simp only [Released, h.nUnused, h.unusedGlobal]

theorem RemovesSlot.holds {s s' : RefNode D} {node : Nat} (h : RemovesSlot s s' node)
    (hdistinct : ∀ i j, s.Live i → s.Live j → s.global i = s.global j → i = j) (g : Int) :
    s'.Holds g ↔ s.Holds g ∧ g ≠ s.global node := by
  constructor
  · intro hg
    obtain ⟨k, hk, hkg⟩ := hg
    have hk' := (h.live k).mp hk
    rw [h.global_old k hk] at hkg
    refine ⟨⟨k, hk'.1, hkg⟩, fun heq => hk'.2 ?_⟩
    exact hdistinct k node hk'.1 h.was (hkg.trans heq)
  · intro hg
    obtain ⟨⟨k, hk, hkg⟩, hne⟩ := hg
    have hk' : s'.Live k := (h.live k).mpr ⟨hk, fun e => hne (by rw [← hkg, e])⟩
    exact ⟨k, hk', (h.global_old k hk').trans hkg⟩

end RefNode

namespace Ledger

/-! ## The representation along every run -/

theorem deferredRemove_spec {l l' : Ledger D} {removal : Bool × Nat} (h : l.store.SlotInv)
    (hrun : l.deferredRemove removal = .ok l') :
    l'.store.SlotInv ∧ RemovesSlot l.store l'.store removal.2 ∧
      l'.store.newNGlobal = l.store.newNGlobal ∧
      (removal.1 = true ∧ l'.out = l.out.filter (· ≠ l.store.global removal.2) ∧
          (∃ s, l'.store = s.pushUnused (l.store.global removal.2) ∧ SameAllocator l.store s) ∨
        removal.1 = false ∧ l'.out = l.out ∧ SameAllocator l.store l'.store) := by
  obtain ⟨released, node⟩ := removal
  have hsame : SameAllocator l.store (l.store.release node) := ⟨rfl, rfl, rfl, rfl, rfl⟩
  by_cases hlive : l.store.Live node
  · cases released with
    | true =>
        simp only [deferredRemove, removeInvalidatesSorted, hlive, not_true, if_false, if_true,
          bind_eq_ok, Except.ok.injEq, exists_eq_left'] at hrun
        subst hrun
        refine ⟨(release_slotInv h hlive).congr rfl rfl rfl rfl,
          (release_removes h hlive).congr rfl rfl, rfl, Or.inl ⟨rfl, rfl, ?_⟩⟩
        exact ⟨l.store.release node, rfl, hsame⟩
    | false =>
        simp only [deferredRemove, removeWithoutGlobalInvalidatesSorted, hlive, not_true, if_false,
          bind_eq_ok, Except.ok.injEq, exists_eq_left', Bool.false_eq_true] at hrun
        subst hrun
        exact ⟨release_slotInv h hlive, release_removes h hlive, rfl, Or.inr ⟨rfl, rfl, hsame⟩⟩
  · cases released <;>
      simp [deferredRemove, removeInvalidatesSorted, removeWithoutGlobalInvalidatesSorted, hlive,
        bind, Except.bind] at hrun

theorem nextGlobal_inv {s s' : RefNode D} {g : Int} (h : s.Inv)
    (hrun : s.nextGlobal = .ok (s', g)) : s'.Inv := by
  by_cases hu : 0 < s.nUnused
  · simp only [nextGlobal, hu, if_true, popUnused, hu.ne', if_false, Except.ok.injEq,
      Prod.mk.injEq] at hrun
    rw [← hrun.1]
    exact ⟨h.toSlotInv.congr rfl rfl rfl rfl, h.ascending, h.aligned, h.covers⟩
  · simp only [nextGlobal, hu, if_false, Except.ok.injEq, Prod.mk.injEq] at hrun
    rw [← hrun.1]
    split
    · exact ⟨h.toSlotInv.congr rfl rfl rfl rfl, h.ascending, h.aligned, h.covers⟩
    · exact ⟨h.toSlotInv.congr rfl rfl rfl rfl, h.ascending, h.aligned, h.covers⟩

/-- Every successful call keeps the invariant of the store. -/
theorem call_inv [RefDbl D] {l l' : Ledger D} {c : NodeCall} (h : l.store.Inv)
    (hrun : l.call c = .ok l') : l'.store.Inv := by
  cases c with
  | initializeNGlobal nGlobal =>
      simp only [call, Except.ok.injEq] at hrun
      rw [← hrun]
      exact ⟨h.toSlotInv.congr rfl rfl rfl rfl, h.ascending, h.aligned, h.covers⟩
  | add global =>
      simp only [call, bind_eq_ok, Except.ok.injEq] at hrun
      obtain ⟨r, hadd, rfl⟩ := hrun
      exact (add_spec h hadd).1
  | addMany globals =>
      simp only [call, bind_eq_ok, Except.ok.injEq] at hrun
      obtain ⟨s, hadd, rfl⟩ := hrun
      exact (addMany_spec h hadd).1
  | remove node =>
      simp only [call, bind_eq_ok, Except.ok.injEq, remove_eq] at hrun
      obtain ⟨s, hremove, rfl⟩ := hrun
      cases hwithout : l.store.removeWithoutGlobal node with
      | error status => simp [hwithout, Except.map] at hremove
      | ok s1 =>
          simp only [hwithout, Except.map, Except.ok.injEq] at hremove
          rw [← hremove]
          exact pushUnused_inv (removeWithoutGlobal_spec h hwithout).1 _
  | removeWithoutGlobal node =>
      simp only [call, bind_eq_ok, Except.ok.injEq] at hrun
      obtain ⟨s, hremove, rfl⟩ := hrun
      exact (removeWithoutGlobal_spec h hremove).1
  | deferred removals =>
      simp only [call, bind_eq_ok, Except.ok.injEq] at hrun
      obtain ⟨l1, hloop, rfl⟩ := hrun
      apply rebuildSortedGlobal_inv
      exact ArrayLoop.foldlM_inv (P := fun _ _ (l : Ledger D) => l.store.SlotInv)
        (fun _ _ _ _ _ hP hstep => (deferredRemove_spec hP hstep).1) h.toSlotInv hloop
  | nextGlobal =>
      simp only [call, bind_eq_ok, Except.ok.injEq] at hrun
      obtain ⟨r, hnext, rfl⟩ := hrun
      exact nextGlobal_inv h hnext

/-! ## Freshness along disciplined runs -/

/-- What the callers owe the allocator.  An added global comes from below the
counter and is not waiting on the stack; the counter starts above every
global in use; globals are drawn after it is set. -/
def Disciplined (l : Ledger D) : NodeCall → Prop
  | .initializeNGlobal nGlobal => 0 ≤ nGlobal ∧
      ∀ g, l.store.Holds g ∨ l.store.Released g ∨ g ∈ l.out → g < nGlobal
  | .add global => ¬ l.store.Released global ∧
      (l.store.newNGlobal ≠ refEmpty → global < l.store.newNGlobal)
  | .addMany globals => ∀ global ∈ globals, ¬ l.store.Released global ∧
      (l.store.newNGlobal ≠ refEmpty → global < l.store.newNGlobal)
  | .nextGlobal => l.store.newNGlobal ≠ refEmpty
  | .remove _ => True
  | .removeWithoutGlobal _ => True
  | .deferred _ => True

/-- Live, released and handed out globals: a released one is neither live nor
handed out, the stack repeats nothing, and the counter is above them all. -/
structure AllocInv (l : Ledger D) : Prop where
  slots : l.store.SlotInv
  nodup : ∀ i j, i < l.store.nUnused → j < l.store.nUnused →
    l.store.unusedGlobal i = l.store.unusedGlobal j → i = j
  dead : ∀ g, l.store.Released g → ¬ l.store.Holds g
  back : ∀ g, l.store.Released g → g ∉ l.out
  counter : l.store.newNGlobal = refEmpty ∨ 0 ≤ l.store.newNGlobal ∧
    ∀ g, l.store.Holds g ∨ l.store.Released g ∨ g ∈ l.out → g < l.store.newNGlobal

/-- Insertion of globals that are in range and not released. -/
theorem AllocInv.insert {l l' : Ledger D} (h : l.AllocInv) (fresh : Int → Prop)
    (hslots : l'.store.SlotInv) (hsame : SameAllocator l.store l'.store) (hout : l'.out = l.out)
    (hholds : ∀ g, l'.store.Holds g → l.store.Holds g ∨ fresh g)
    (hfresh : ∀ g, fresh g → ¬ l.store.Released g ∧
      (l.store.newNGlobal ≠ refEmpty → g < l.store.newNGlobal)) : l'.AllocInv := by
  refine ⟨hslots, ?_, ?_, ?_, ?_⟩
  · rw [hsame.nUnused, hsame.unusedGlobal]
    exact h.nodup
  · intro g hrel hlive
    rw [hsame.released] at hrel
    rcases hholds g hlive with hold | hnew
    · exact h.dead g hrel hold
    · exact (hfresh g hnew).1 hrel
  · intro g hrel
    rw [hsame.released] at hrel
    rw [hout]
    exact h.back g hrel
  · rw [hsame.newNGlobal, hout]
    rcases h.counter with hnone | ⟨hpos, hbelow⟩
    · exact Or.inl hnone
    · refine Or.inr ⟨hpos, fun g hg => ?_⟩
      rw [hsame.released] at hg
      rcases hg with hlive | hrest
      · rcases hholds g hlive with hold | hnew
        · exact hbelow g (Or.inl hold)
        · exact (hfresh g hnew).2 (fun e => by rw [e] at hpos; simp [refEmpty] at hpos)
      · exact hbelow g (Or.inr hrest)

/-- Removal without release. -/
theorem AllocInv.removeQuiet {l l' : Ledger D} {node : Nat} (h : l.AllocInv)
    (hslots : l'.store.SlotInv) (hremoves : RemovesSlot l.store l'.store node)
    (hsame : SameAllocator l.store l'.store) (hout : l'.out = l.out) : l'.AllocInv :=
  h.insert (fun _ => False) hslots hsame hout
    (fun g hg => Or.inl ((hremoves.holds h.slots.distinct g).mp hg).1) (fun _ hf => hf.elim)

/-- Removal that puts the global of the slot on the stack. -/
theorem AllocInv.removeReleased {l : Ledger D} {s : RefNode D} {node : Nat} (h : l.AllocInv)
    (hslots : s.SlotInv) (hremoves : RemovesSlot l.store s node)
    (hsame : SameAllocator l.store s) :
    AllocInv ⟨s.pushUnused (l.store.global node), l.out.filter (· ≠ l.store.global node)⟩ := by
  set g0 := l.store.global node with hg0
  have hholds : ∀ g, (s.pushUnused g0).Holds g ↔ l.store.Holds g ∧ g ≠ g0 :=
    fun g => hremoves.holds h.slots.distinct g
  have hg0live : l.store.Holds g0 := ⟨node, hremoves.was, rfl⟩
  have hrel : ∀ g, (s.pushUnused g0).Released g ↔ l.store.Released g ∨ g = g0 := by
    intro g
    rw [pushUnused_released, hsame.released]
  refine ⟨hslots.congr rfl rfl rfl rfl, ?_, ?_, ?_, ?_⟩
  · intro i j hi hj hij
    simp only [pushUnused, hsame.nUnused, hsame.unusedGlobal] at hi hj hij
    have hnot : ∀ k, k < l.store.nUnused → l.store.unusedGlobal k ≠ g0 :=
      fun k hk he => h.dead _ ⟨k, hk, he⟩ hg0live
    by_cases hi' : i = l.store.nUnused <;> by_cases hj' : j = l.store.nUnused
    · rw [hi', hj']
    · rw [hi', Function.update_self, Function.update_of_ne hj'] at hij
      exact absurd hij.symm (hnot j (by omega))
    · rw [hj', Function.update_self, Function.update_of_ne hi'] at hij
      exact absurd hij (hnot i (by omega))
    · rw [Function.update_of_ne hi', Function.update_of_ne hj'] at hij
      exact h.nodup i j (by omega) (by omega) hij
  · intro g hr hlive
    have hlive' := (hholds g).mp hlive
    rcases (hrel g).mp hr with hold | heq
    · exact h.dead g hold hlive'.1
    · exact hlive'.2 heq
  · intro g hr hmem
    have hmem' := List.mem_filter.mp hmem
    rcases (hrel g).mp hr with hold | heq
    · exact h.back g hold hmem'.1
    · simp [heq] at hmem'
  · change s.newNGlobal = refEmpty ∨ 0 ≤ s.newNGlobal ∧ _
    rw [hsame.newNGlobal]
    rcases h.counter with hnone | ⟨hpos, hbelow⟩
    · exact Or.inl hnone
    · refine Or.inr ⟨hpos, fun g hg => ?_⟩
      change g < s.newNGlobal
      rw [hsame.newNGlobal]
      rcases hg with hlive | hr | hmem
      · exact hbelow g (Or.inl ((hholds g).mp hlive).1)
      · rcases (hrel g).mp hr with hold | heq
        · exact hbelow g (Or.inr (Or.inl hold))
        · exact hbelow g (Or.inl (heq ▸ hg0live))
      · exact hbelow g (Or.inr (Or.inr (List.mem_filter.mp hmem).1))

theorem AllocInv.deferredRemove {l l' : Ledger D} {removal : Bool × Nat} (h : l.AllocInv)
    (hrun : l.deferredRemove removal = .ok l') : l'.AllocInv := by
  obtain ⟨hslots, hremoves, _, hcase⟩ := deferredRemove_spec h.slots hrun
  rcases hcase with ⟨_, hout, s, hs, hsame⟩ | ⟨_, hout, hsame⟩
  · have hstore : l' = ⟨s.pushUnused (l.store.global removal.2),
        l.out.filter (· ≠ l.store.global removal.2)⟩ := by
      cases l'
      simp_all
    rw [hstore]
    rw [hs] at hslots hremoves
    exact h.removeReleased (hslots.congr rfl rfl rfl rfl) (hremoves.congr rfl rfl) hsame
  · exact h.removeQuiet hslots hremoves hsame hout

/-- **A drawn global is fresh**: neither live nor handed out already. -/
theorem AllocInv.nextGlobal_fresh {l : Ledger D} {s' : RefNode D} {g : Int} (h : l.AllocInv)
    (hinit : l.store.newNGlobal ≠ refEmpty) (hrun : l.store.nextGlobal = .ok (s', g)) :
    ¬ l.store.Holds g ∧ g ∉ l.out := by
  by_cases hu : 0 < l.store.nUnused
  · simp only [nextGlobal, hu, if_true, popUnused, hu.ne', if_false, Except.ok.injEq,
      Prod.mk.injEq] at hrun
    have hrel : l.store.Released g := ⟨l.store.nUnused - 1, by omega, hrun.2⟩
    exact ⟨h.dead g hrel, h.back g hrel⟩
  · simp only [nextGlobal, hu, if_false, hinit, Except.ok.injEq, Prod.mk.injEq] at hrun
    rcases h.counter with hnone | ⟨_, hbelow⟩
    · exact absurd hnone hinit
    · constructor
      · intro hlive
        exact absurd (hbelow g (Or.inl hlive)) (by omega)
      · intro hmem
        exact absurd (hbelow g (Or.inr (Or.inr hmem))) (by omega)

/-- Drawing a global keeps the allocator invariant. -/
theorem AllocInv.draw {l : Ledger D} {s' : RefNode D} {g : Int} (h : l.AllocInv)
    (hinit : l.store.newNGlobal ≠ refEmpty) (hrun : l.store.nextGlobal = .ok (s', g)) :
    AllocInv ⟨s', g :: l.out⟩ := by
  obtain hnone | ⟨hpos, hbelow⟩ := h.counter
  · exact absurd hnone hinit
  by_cases hu : 0 < l.store.nUnused
  · simp only [nextGlobal, hu, if_true, popUnused, hu.ne', if_false, Except.ok.injEq,
      Prod.mk.injEq] at hrun
    obtain ⟨rfl, hg⟩ := hrun
    -- the popped entry leaves the stack, which held it once
    have hrel : ∀ g', RefNode.Released { l.store with nUnused := l.store.nUnused - 1 } g' →
        l.store.Released g' ∧ g' ≠ g := by
      intro g' hr
      obtain ⟨i, hi, hig⟩ := hr
      dsimp only at hi hig
      refine ⟨⟨i, by omega, hig⟩, fun heq => ?_⟩
      have := h.nodup i (l.store.nUnused - 1) (by omega) (by omega) (by rw [hig, heq, hg])
      omega
    have hgrel : l.store.Released g := ⟨l.store.nUnused - 1, by omega, hg⟩
    refine ⟨h.slots.congr rfl rfl rfl rfl, fun i j hi hj hij => ?_, fun g' hr => ?_,
      fun g' hr hmem => ?_, Or.inr ⟨hpos, fun g' hg' => ?_⟩⟩
    · dsimp only at hi hj hij
      exact h.nodup i j (by omega) (by omega) hij
    · exact h.dead g' (hrel g' hr).1
    · rcases List.mem_cons.mp hmem with heq | hmem'
      · exact (hrel g' hr).2 heq
      · exact h.back g' (hrel g' hr).1 hmem'
    · rcases hg' with hlive | hr | hmem
      · exact hbelow g' (Or.inl hlive)
      · exact hbelow g' (Or.inr (Or.inl (hrel g' hr).1))
      · rcases List.mem_cons.mp hmem with heq | hmem'
        · exact hbelow g' (Or.inr (Or.inl (heq ▸ hgrel)))
        · exact hbelow g' (Or.inr (Or.inr hmem'))
  · simp only [nextGlobal, hu, if_false, hinit, Except.ok.injEq, Prod.mk.injEq] at hrun
    obtain ⟨rfl, rfl⟩ := hrun
    have hnone : ∀ g', ¬ l.store.Released g' := by
      intro g' hr
      obtain ⟨i, hi, _⟩ := hr
      omega
    refine ⟨h.slots.congr rfl rfl rfl rfl, h.nodup, h.dead, fun g' hr => absurd hr (hnone g'),
      Or.inr ⟨?_, fun g' hg' => ?_⟩⟩
    · dsimp only
      omega
    · dsimp only
      rcases hg' with hlive | hr | hmem
      · have := hbelow g' (Or.inl hlive)
        omega
      · exact absurd hr (hnone g')
      · rcases List.mem_cons.mp hmem with heq | hmem'
        · omega
        · have := hbelow g' (Or.inr (Or.inr hmem'))
          omega

/-- Every disciplined call keeps the allocator invariant. -/
theorem call_allocInv [RefDbl D] {l l' : Ledger D} {c : NodeCall} (hinv : l.store.Inv)
    (h : l.AllocInv) (hadm : l.Disciplined c) (hrun : l.call c = .ok l') : l'.AllocInv := by
  have hinv' := call_inv hinv hrun
  cases c with
  | initializeNGlobal nGlobal =>
      simp only [call, Except.ok.injEq] at hrun
      rw [← hrun]
      exact ⟨h.slots.congr rfl rfl rfl rfl, h.nodup, h.dead, h.back, Or.inr hadm⟩
  | add global =>
      simp only [call, bind_eq_ok, Except.ok.injEq] at hrun
      obtain ⟨r, hadd, rfl⟩ := hrun
      rcases (add_spec hinv hadd).2.2.2 with hsame | ⟨_, hadds⟩
      · rw [hsame]
        exact h
      · refine h.insert (fun g => g = global) hinv'.toSlotInv hadds.sameAllocator rfl
          (fun g => (hadds.holds g).mp) ?_
        intro g hg
        rw [hg]
        exact hadm
  | addMany globals =>
      simp only [call, bind_eq_ok, Except.ok.injEq] at hrun
      obtain ⟨s, hadd, rfl⟩ := hrun
      obtain ⟨_, hsame, _, hholds⟩ := addMany_spec hinv hadd
      refine h.insert (fun g => g ∈ globals) hinv'.toSlotInv hsame rfl
        (fun g hg => ?_) hadm
      rcases (hholds g).mp hg with hold | hnew
      · exact Or.inl hold
      · exact Or.inr hnew.1
  | remove node =>
      simp only [call, bind_eq_ok, Except.ok.injEq, remove_eq] at hrun
      obtain ⟨s, hremove, rfl⟩ := hrun
      cases hwithout : l.store.removeWithoutGlobal node with
      | error status => simp [hwithout, Except.map] at hremove
      | ok s1 =>
          simp only [hwithout, Except.map, Except.ok.injEq] at hremove
          rw [← hremove]
          obtain ⟨hs1, hremoves, hsame⟩ := removeWithoutGlobal_spec hinv hwithout
          exact h.removeReleased hs1.toSlotInv hremoves hsame
  | removeWithoutGlobal node =>
      simp only [call, bind_eq_ok, Except.ok.injEq] at hrun
      obtain ⟨s, hremove, rfl⟩ := hrun
      obtain ⟨hs1, hremoves, hsame⟩ := removeWithoutGlobal_spec hinv hremove
      exact h.removeQuiet hs1.toSlotInv hremoves hsame rfl
  | deferred removals =>
      simp only [call, bind_eq_ok, Except.ok.injEq] at hrun
      obtain ⟨l1, hloop, rfl⟩ := hrun
      have hl1 : l1.AllocInv := ArrayLoop.foldlM_inv (P := fun _ _ (l : Ledger D) => l.AllocInv)
        (fun _ _ _ _ _ hP hstep => hP.deferredRemove hstep) h hloop
      exact ⟨hinv'.toSlotInv, hl1.nodup, hl1.dead, hl1.back, hl1.counter⟩
  | nextGlobal =>
      simp only [call, bind_eq_ok, Except.ok.injEq] at hrun
      obtain ⟨r, hnext, rfl⟩ := hrun
      exact h.draw hadm hnext

end Ledger

/-! ## The store along whole runs -/

/-- What the three views of the store say together. -/
structure Represents (s : RefNode D) : Prop where
  /-- The blank chain ends and visits exactly the invalid slots, each once. -/
  blank : ∃ slots : List Nat, Threads index2next refEmpty s.global s.blank slots ∧
    slots.Nodup ∧ ∀ k, k ∈ slots ↔ k < s.max ∧ ¬ s.Live k
  count : s.n = ((Finset.range s.max).filter s.Live).card
  ascending : ∀ i j, i < j → j < s.n → s.sortedGlobal i < s.sortedGlobal j
  lists : ∀ g, (∃ i, i < s.n ∧ s.sortedGlobal i = g) ↔ s.Holds g
  aligned : ∀ i, i < s.n → s.Live (s.sortedLocal i) ∧
    s.global (s.sortedLocal i) = s.sortedGlobal i
  found : ∀ g k, s.nodeLocal g = .ok k ↔ s.Live k ∧ s.global k = g
  unique : ∀ g i j, s.Live i ∧ s.global i = g → s.Live j ∧ s.global j = g → i = j
  missing : ∀ g, s.nodeLocal g = .error .notFound ↔ ¬ s.Holds g

theorem RefNode.Inv.represents {s : RefNode D} (h : s.Inv) : Represents s := by
  refine ⟨?_, h.count.symm, h.ascending, fun g => ⟨?_, ?_⟩, h.aligned, h.nodeLocal_eq_ok_iff,
    fun g i j hi hj => h.distinct i j hi.1 hj.1 (hi.2.trans hj.2.symm), fun g => ?_⟩
  · obtain ⟨slots, hthreads, hnodup, hmem⟩ := h.blank
    refine ⟨slots, hthreads, hnodup, fun k => (hmem k).trans ?_⟩
    unfold Live
    tauto
  · intro hi
    obtain ⟨i, hi, hg⟩ := hi
    exact ⟨s.sortedLocal i, (h.aligned i hi).1, (h.aligned i hi).2.trans hg⟩
  · intro hk
    obtain ⟨k, hk, hg⟩ := hk
    obtain ⟨i, hi, rfl⟩ := h.covers k hk
    exact ⟨i, hi, (h.aligned i hi).2.symm.trans hg⟩
  · rw [h.nodeLocal_eq_notFound_iff]
    unfold Holds
    push Not
    rfl

theorem Ledger.reaches_inv [RefDbl D] {admits : Ledger D → NodeCall → Prop} {mem : RefNode D}
    {rank : Nat} {l : Ledger D} (h : Ledger.Reaches admits ⟨create mem rank, []⟩ l) :
    l.store.Inv :=
  h.invariant (fun l => l.store.Inv) (create_inv mem rank) fun _ _ _ hl _ hrun =>
    Ledger.call_inv hl hrun

theorem RefNode.create_not_released (mem : RefNode D) (rank : Nat) (g : Int) :
    ¬ (create mem rank).Released g := by
  intro hr
  obtain ⟨i, hi, _⟩ := hr
  simp [create] at hi

theorem Ledger.reaches_allocInv [RefDbl D] {mem : RefNode D} {rank : Nat} {l : Ledger D}
    (h : Ledger.Reaches Ledger.Disciplined ⟨create mem rank, []⟩ l) : l.AllocInv := by
  have hnone := create_not_released mem rank
  have hcreate : Ledger.AllocInv ⟨create mem rank, []⟩ :=
    ⟨(create_inv mem rank).toSlotInv, fun i j hi => absurd hi (by simp [create]),
      fun g hr => absurd hr (hnone g), fun g hr => absurd hr (hnone g), Or.inl rfl⟩
  refine (h.invariant (fun l => l.store.Inv ∧ l.AllocInv) ⟨create_inv mem rank, hcreate⟩ ?_).2
  intro l l' c hl hadm hrun
  exact ⟨Ledger.call_inv hl.1 hrun, Ledger.call_allocInv hl.1 hl.2 hadm hrun⟩

/-- **The node store along runs.**  Every run keeps the representation; along
disciplined runs a drawn global is neither live nor handed out and unreleased. -/
theorem node_store_runs [RefDbl D] (mem : RefNode D) (rank : Nat) :
    (∀ l, Ledger.Reaches (fun _ _ => True) ⟨create mem rank, []⟩ l → Represents l.store) ∧
      ∀ l, Ledger.Reaches Ledger.Disciplined ⟨create mem rank, []⟩ l →
        l.store.newNGlobal ≠ refEmpty →
        ∀ s' g, l.store.nextGlobal = .ok (s', g) → ¬ l.store.Holds g ∧ g ∉ l.out := by
  constructor
  · intro l hl
    exact (Ledger.reaches_inv hl).represents
  · intro l hl hinit s' g hrun
    exact (Ledger.reaches_allocInv hl).nextGlobal_fresh hinit hrun

/-- A stand-in for `REF_DBL`.  Insertion takes the logarithm of the identity
metric only, which is zero. -/
instance intDbl : RefDbl Int := ⟨0, 1, fun _ => .ok fun _ => 0⟩

/-- Memory of zeros under a new store. -/
def zeroMemory : RefNode Int :=
  { n := 0, max := 0, blank := 0, global := fun _ => 0, sortedGlobal := fun _ => 0,
    sortedLocal := fun _ => 0, part := fun _ => 0, age := fun _ => 0, real := fun _ _ => 0,
    naux := 0, aux := fun _ _ => 0, rank := 0, nUnused := 0, maxUnused := 0,
    unusedGlobal := fun _ => 0, oldNGlobal := 0, newNGlobal := 0 }

/-- The ledger after the calls, read off the evaluation of the run. -/
def afterCalls (calls : List NodeCall) : Ledger Int :=
  calls.foldl (fun l c => match l.call c with | .ok l' => l' | .error _ => l)
    ⟨create zeroMemory 0, []⟩

theorem node_store_runs_draw_after_draw :
    Represents (afterCalls [.initializeNGlobal 0, .nextGlobal, .add 0]).store ∧
      ¬ (afterCalls [.initializeNGlobal 0, .nextGlobal, .add 0]).store.Holds 1 ∧
      1 ∉ (afterCalls [.initializeNGlobal 0, .nextGlobal, .add 0]).out := by
  have hrun : ∀ admits : Ledger Int → NodeCall → Prop,
      admits ⟨create zeroMemory 0, []⟩ (.initializeNGlobal 0) →
      admits (afterCalls [.initializeNGlobal 0]) .nextGlobal →
      admits (afterCalls [.initializeNGlobal 0, .nextGlobal]) (.add 0) →
      Ledger.Reaches admits ⟨create zeroMemory 0, []⟩
        (afterCalls [.initializeNGlobal 0, .nextGlobal, .add 0]) := by
    intro admits h1 h2 h3
    exact ((Ledger.Reaches.start.call h1 rfl).call h2 rfl).call h3 rfl
  have hstart : Ledger.Disciplined ⟨create zeroMemory 0, []⟩ (.initializeNGlobal 0) := by
    refine ⟨le_rfl, fun g hg => ?_⟩
    rcases hg with ⟨k, hk, _⟩ | hr | hmem
    · exact absurd hk (create_dead zeroMemory 0 k)
    · exact absurd hr (create_not_released zeroMemory 0 g)
    · cases hmem
  have hadd : Ledger.Disciplined (afterCalls [.initializeNGlobal 0, .nextGlobal]) (.add 0) := by
    refine ⟨fun hr => ?_, fun _ => by decide⟩
    obtain ⟨i, hi, _⟩ := hr
    exact absurd hi (Nat.not_lt_zero i)
  have hdraw : (afterCalls [.initializeNGlobal 0]).store.newNGlobal ≠ refEmpty := by decide
  refine ⟨(node_store_runs zeroMemory 0).1 _ (hrun _ trivial trivial trivial), ?_⟩
  exact (node_store_runs zeroMemory 0).2 _ (hrun _ hstart hdraw hadd) (by decide) _ 1 rfl

/-- A run that sets the counter after its only node and then adds one more
global draws that global, which is live. -/
theorem nextGlobal_live_after_foreign_add :
    ¬ ∀ l, Ledger.Reaches
        (fun l c => c = NodeCall.nextGlobal → l.store.newNGlobal ≠ refEmpty)
        ⟨create zeroMemory 0, []⟩ l →
      l.store.newNGlobal ≠ refEmpty →
      ∀ s' g, l.store.nextGlobal = .ok (s', g) → ¬ l.store.Holds g ∧ g ∉ l.out := by
  intro h
  have hrun : Ledger.Reaches
      (fun l c => c = NodeCall.nextGlobal → l.store.newNGlobal ≠ refEmpty)
      ⟨create zeroMemory 0, []⟩ (afterCalls [.add 0, .initializeNGlobal 1, .add 1]) := by
    refine Ledger.Reaches.call (l := afterCalls [.add 0, .initializeNGlobal 1]) (c := .add 1)
      ?_ (fun e => nomatch e) rfl
    refine Ledger.Reaches.call (l := afterCalls [.add 0]) (c := .initializeNGlobal 1)
      ?_ (fun e => nomatch e) rfl
    exact Ledger.Reaches.call (c := .add 0) Ledger.Reaches.start (fun e => nomatch e) rfl
  have hfresh := (h _ hrun (by decide) _ 1 rfl).1
  exact hfresh ⟨1, by decide, by decide⟩

end RefineMesh
