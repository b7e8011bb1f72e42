import Mathlib.Tactic
import Mathlib.Data.Finset.Card

/-!
# Intrusive lists in an array of slots

A list threaded through an array: `next k` holds the code of the slot after
`k`, and `stop` ends the list.  The code of a slot is a parameter, since a
store may keep its links as plain indices or fold them into values that its
live entries never take.  A `FreeList` is such a list that visits exactly the
slots that satisfy `free`, each of them once.
-/

namespace SlotList

variable {enc : Nat → Int} {stop : Int} {next next' : Nat → Int} {start : Int}

/-- The list from `start` visits `slots` in order and then stops. -/
def Threads (enc : Nat → Int) (stop : Int) (next : Nat → Int) : Int → List Nat → Prop
  | start, [] => start = stop
  | start, k :: rest => start = enc k ∧ Threads enc stop next (next k) rest

@[simp] theorem threads_nil : Threads enc stop next start [] ↔ start = stop := Iff.rfl

@[simp] theorem threads_cons {k : Nat} {rest : List Nat} :
    Threads enc stop next start (k :: rest) ↔
      start = enc k ∧ Threads enc stop next (next k) rest := Iff.rfl

/-- Only the links of the visited slots matter. -/
theorem Threads.congr {slots : List Nat} (h : Threads enc stop next start slots)
    (heq : ∀ k ∈ slots, next' k = next k) : Threads enc stop next' start slots := by
  induction slots generalizing start with
  | nil => exact h
  | cons k rest ih =>
      refine ⟨h.1, ?_⟩
      rw [heq k List.mem_cons_self]
      exact ih h.2 fun j hj => heq j (List.mem_cons_of_mem _ hj)

/-- A slot that is not visited may be relinked. -/
theorem Threads.update {slots : List Nat} {k : Nat} {v : Int}
    (h : Threads enc stop next start slots) (hk : k ∉ slots) :
    Threads enc stop (Function.update next k v) start slots := by
  refine h.congr fun j hj => Function.update_of_ne ?_ _ _
  rintro rfl
  exact hk hj

/-- A run of consecutive slots linked each to the following one. -/
theorem threads_segment {orig : Nat} :
    ∀ len, 0 < len → (∀ k, orig ≤ k → k + 1 < orig + len → next k = enc (k + 1)) →
      next (orig + len - 1) = stop →
      Threads enc stop next (enc orig) (List.range' orig len) := by
  intro len
  induction len generalizing orig with
  | zero => intro h; omega
  | succ len ih =>
      intro _ hlink hlast
      rw [List.range'_succ, threads_cons]
      refine ⟨rfl, ?_⟩
      by_cases hlen : len = 0
      · subst hlen
        simpa using hlast
      · rw [hlink orig (le_refl _) (by omega)]
        exact ih (by omega) (fun k hk hk' => hlink k (by omega) (by omega))
          (by rw [← hlast]; congr 1; omega)

/-- Two links whose codes differ lead different lists. -/
theorem Threads.unique (henc : Function.Injective enc) (hstop : ∀ k, enc k ≠ stop)
    {l l' : List Nat} (h : Threads enc stop next start l)
    (h' : Threads enc stop next start l') : l = l' := by
  induction l generalizing start l' with
  | nil =>
      cases l' with
      | nil => rfl
      | cons k rest => exact absurd (h'.1.symm.trans h) (hstop k)
  | cons k rest ih =>
      cases l' with
      | nil => exact absurd (h.1.symm.trans h') (hstop k)
      | cons k' rest' =>
          have hk : k = k' := henc (h.1.symm.trans h'.1)
          subst hk
          rw [ih h.2 h'.2]

/-- Taking the slot after `p` out of the list. -/
theorem Threads.unlink {before after : List Nat} {p k : Nat}
    (h : Threads enc stop next start (before ++ p :: k :: after))
    (hnodup : (before ++ p :: k :: after).Nodup) :
    Threads enc stop (Function.update next p (next k)) start (before ++ p :: after) := by
  induction before generalizing start with
  | nil =>
      have hp : p ∉ after := by
        intro hp
        simp [hp] at hnodup
      refine ⟨h.1, ?_⟩
      rw [Function.update_self]
      exact h.2.2.update hp
  | cons j before ih =>
      have hnd := List.nodup_cons.mp hnodup
      have hjp : j ≠ p := fun hjp => hnd.1 (by simp [hjp])
      refine ⟨h.1, ?_⟩
      rw [Function.update_of_ne hjp]
      exact ih h.2 hnd.2

/-- The slots met by following the links from `start`, for at most the given
number of links.  `dec` reads the slot behind a link. -/
def walk (dec : Int → Nat) (stop : Int) (next : Nat → Int) : Nat → Int → List Nat
  | 0, _ => []
  | fuel+1, start =>
      if start = stop then [] else dec start :: walk dec stop next fuel (next (dec start))

/-- A list that ends is walked to its end. -/
theorem Threads.walk_eq {dec : Int → Nat} (hdec : ∀ k, dec (enc k) = k)
    (hstop : ∀ k, enc k ≠ stop) :
    ∀ {slots : List Nat} {start : Int} {fuel : Nat}, Threads enc stop next start slots →
      slots.length ≤ fuel → walk dec stop next fuel start = slots := by
  intro slots
  induction slots with
  | nil =>
      intro start fuel h _
      cases fuel with
      | zero => rfl
      | succ fuel => rw [walk, if_pos (threads_nil.mp h)]
  | cons k rest ih =>
      intro start fuel h hlen
      cases fuel with
      | zero => simp at hlen
      | succ fuel =>
          rw [walk, h.1, if_neg (hstop k), hdec k, ih h.2 (by simpa using hlen)]

/-- The list from `start` visits exactly the slots satisfying `free`, each
once, and ends. -/
def FreeList (enc : Nat → Int) (stop : Int) (next : Nat → Int) (start : Int)
    (free : Nat → Prop) : Prop :=
  ∃ slots, Threads enc stop next start slots ∧ slots.Nodup ∧ ∀ k, k ∈ slots ↔ free k

variable {free free' : Nat → Prop}

/-- The links of the free slots and the set of free slots determine the list. -/
theorem FreeList.congr (h : FreeList enc stop next start free)
    (hfree : ∀ k, free' k ↔ free k) (hnext : ∀ k, free k → next' k = next k) :
    FreeList enc stop next' start free' := by
  obtain ⟨slots, hthreads, hnodup, hmem⟩ := h
  exact ⟨slots, hthreads.congr fun k hk => hnext k ((hmem k).mp hk), hnodup,
    fun k => (hmem k).trans (hfree k).symm⟩

/-- The list is exhausted exactly when no slot is free. -/
theorem FreeList.eq_stop_iff (hstop : ∀ k, enc k ≠ stop)
    (h : FreeList enc stop next start free) : start = stop ↔ ∀ k, ¬ free k := by
  obtain ⟨slots, hthreads, _, hmem⟩ := h
  cases slots with
  | nil =>
      refine ⟨fun _ k hk => ?_, fun _ => hthreads⟩
      simpa using (hmem k).mpr hk
  | cons k rest =>
      have hk : free k := (hmem k).mp List.mem_cons_self
      constructor
      · intro hs
        exact absurd (hthreads.1.symm.trans hs) (hstop k)
      · intro hnone
        exact absurd hk (hnone k)

/-- **Pop.**  A list that is not exhausted leads with a free slot, and the
rest of it visits the other free slots. -/
theorem FreeList.pop (h : FreeList enc stop next start free) (hne : start ≠ stop) :
    ∃ k, start = enc k ∧ free k ∧
      FreeList enc stop next (next k) (fun j => free j ∧ j ≠ k) := by
  obtain ⟨slots, hthreads, hnodup, hmem⟩ := h
  cases slots with
  | nil => exact absurd hthreads hne
  | cons k rest =>
      have hnd := List.nodup_cons.mp hnodup
      refine ⟨k, hthreads.1, (hmem k).mp List.mem_cons_self, rest, hthreads.2, hnd.2, fun j => ?_⟩
      simp only [← hmem j, List.mem_cons]
      constructor
      · intro hj
        exact ⟨Or.inr hj, fun hjk => hnd.1 (hjk ▸ hj)⟩
      · rintro ⟨hj | hj, hjk⟩
        · exact absurd hj hjk
        · exact hj

/-- **Push.**  A slot that is not free becomes the new head. -/
theorem FreeList.push (h : FreeList enc stop next start free) {k : Nat} (hk : ¬ free k) :
    FreeList enc stop (Function.update next k start) (enc k) (fun j => free j ∨ j = k) := by
  obtain ⟨slots, hthreads, hnodup, hmem⟩ := h
  have hk' : k ∉ slots := fun hm => hk ((hmem k).mp hm)
  refine ⟨k :: slots, ⟨rfl, ?_⟩, List.nodup_cons.mpr ⟨hk', hnodup⟩, fun j => ?_⟩
  · rw [Function.update_self]
    exact hthreads.update hk'
  · rw [List.mem_cons, hmem j, or_comm]

/-- `for (k = orig; k < size; k++) next[k] = code(k+1); next[size-1] = stop;` -/
def linkFresh (enc : Nat → Int) (stop : Int) (orig size : Nat) (next : Nat → Int) :
    Nat → Int :=
  Function.update (fun k => if orig ≤ k ∧ k < size then enc (k + 1) else next k) (size - 1) stop

theorem linkFresh_old {orig size k : Nat} (hlt : orig < size) (hk : k < orig) :
    linkFresh enc stop orig size next k = next k := by
  rw [linkFresh, Function.update_of_ne (by omega), if_neg (by omega)]

/-- A freshly linked slot holds a link or the terminator. -/
theorem linkFresh_new (enc : Nat → Int) (stop : Int) (next : Nat → Int) {orig size k : Nat}
    (hk : orig ≤ k) (hk' : k < size) :
    linkFresh enc stop orig size next k = stop ∨
      ∃ j, linkFresh enc stop orig size next k = enc j := by
  by_cases hlast : k = size - 1
  · subst hlast
    exact Or.inl (Function.update_self _ _ _)
  · refine Or.inr ⟨k + 1, ?_⟩
    rw [linkFresh, Function.update_of_ne hlast, if_pos ⟨hk, hk'⟩]

/-- **Grow.**  A fresh run of slots linked one to the next is walked in
order. -/
theorem threads_linkFresh (enc : Nat → Int) (stop : Int) (next : Nat → Int)
    {orig size : Nat} (hlt : orig < size) :
    Threads enc stop (linkFresh enc stop orig size next) (enc orig)
      (List.range' orig (size - orig)) := by
  refine threads_segment (size - orig) (by omega) (fun k hk hk' => ?_) ?_
  · rw [linkFresh, Function.update_of_ne (by omega), if_pos ⟨hk, by omega⟩]
  · rw [show orig + (size - orig) - 1 = size - 1 by omega]
    exact Function.update_self _ _ _

/-- It is a free list of exactly those slots. -/
theorem freeList_linkFresh (enc : Nat → Int) (stop : Int) (next : Nat → Int)
    {orig size : Nat} (hlt : orig < size) :
    FreeList enc stop (linkFresh enc stop orig size next) (enc orig)
      (fun k => orig ≤ k ∧ k < size) := by
  refine ⟨List.range' orig (size - orig), threads_linkFresh enc stop next hlt,
    List.nodup_range', fun k => ?_⟩
  simp only [List.mem_range'_1]
  omega

/-! ## Counting live slots -/

/-- The number of slots below `size` that satisfy `live`. -/
def liveCount (size : Nat) (live : Nat → Prop) [DecidablePred live] : Nat :=
  ((Finset.range size).filter live).card

theorem liveCount_congr {size size' : Nat} {live live' : Nat → Prop}
    [DecidablePred live] [DecidablePred live']
    (h : ∀ k, (k < size ∧ live k) ↔ (k < size' ∧ live' k)) :
    liveCount size live = liveCount size' live' := by
  unfold liveCount
  congr 1
  ext k
  simpa using h k

/-- One more live slot. -/
theorem liveCount_insert {size : Nat} {live live' : Nat → Prop}
    [DecidablePred live] [DecidablePred live'] {k : Nat} (hk : k < size) (hnot : ¬ live k)
    (h : ∀ j, live' j ↔ live j ∨ j = k) :
    liveCount size live' = liveCount size live + 1 := by
  unfold liveCount
  have hset : (Finset.range size).filter live' =
      insert k ((Finset.range size).filter live) := by
    ext j
    simp only [Finset.mem_filter, Finset.mem_range, Finset.mem_insert, h j]
    constructor
    · rintro ⟨hj, hl | rfl⟩
      · exact Or.inr ⟨hj, hl⟩
      · exact Or.inl rfl
    · rintro (rfl | ⟨hj, hl⟩)
      · exact ⟨hk, Or.inr rfl⟩
      · exact ⟨hj, Or.inl hl⟩
  rw [hset, Finset.card_insert_of_notMem (by simp [hnot])]

/-- One live slot fewer. -/
theorem liveCount_erase {size : Nat} {live live' : Nat → Prop}
    [DecidablePred live] [DecidablePred live'] {k : Nat} (hk : k < size) (hlive : live k)
    (h : ∀ j, live' j ↔ live j ∧ j ≠ k) :
    liveCount size live = liveCount size live' + 1 := by
  refine liveCount_insert hk (fun hl => ((h k).mp hl).2 rfl) fun j => ?_
  rw [h j]
  by_cases hjk : j = k
  · simp [hjk, hlive]
  · simp [hjk]

end SlotList
