import Mathlib.Tactic
import Mathlib.Logic.Equiv.Basic
import RefineMesh.Status

/-!
# Heap sort and binary search

`ref_sort_heap_int`, `ref_sort_heap_glob` and `ref_sort_heap_dbl` are one body
over three element types, so the model is one definition over a linear order.
The sort never moves the elements: it permutes an index array, and every
comparison goes through that array.

The sift of the source carries a hole instead of swapping.  Filling the hole
turns each of its moves into one transposition, and the invariants below are
all stated on the filled array.
-/

namespace RefineMesh

variable {α : Type} [LinearOrder α]

/-- The inner `while (j <= ir)` of the heap sort.  It returns the final hole
and the index array; the caller stores `indxt` in the hole. -/
def siftLoop (original : Nat → α) (q : α) (ir : Nat) :
    Nat → Nat → Nat → (Nat → Nat) → Nat × (Nat → Nat)
  | 0, i, _, s => (i, s)
  | fuel+1, i, j, s =>
      if j ≤ ir then
        let j' := if j < ir ∧ original (s j) < original (s (j+1)) then j + 1 else j
        if q < original (s j') then
          siftLoop original q ir fuel j' (2 * (j' + 1) - 1) (Function.update s i (s j'))
        else (i, s)
      else (i, s)

/-- One sift: run the loop from hole `i` with first child `j`, then store
`indxt` where the hole stopped. -/
def sift (original : Nat → α) (indxt ir i j : Nat) (s : Nat → Nat) : Nat → Nat :=
  let r := siftLoop original (original indxt) ir (ir + 1) i j s
  Function.update r.2 r.1 indxt

/-- The outer `for (;;)` of the heap sort: heapify while `l > 1`, then move the
root behind the heap and shrink it. -/
def heapLoop (original : Nat → α) : Nat → Nat → Nat → (Nat → Nat) → (Nat → Nat)
  | 0, _, _, s => s
  | fuel+1, l, ir, s =>
      if 1 < l then
        let l' := l - 1
        let indxt := s (l' - 1)
        heapLoop original fuel l' ir (sift original indxt ir (l' - 1) (l' + (l' - 1)) s)
      else
        let indxt := s ir
        let s' := Function.update s ir (s 0)
        let ir' := ir - 1
        if ir' = 0 then Function.update s' 0 indxt
        else heapLoop original fuel l ir' (sift original indxt ir' (l - 1) (l + (l - 1)) s')

/-- `ref_sort_heap_int`, `ref_sort_heap_glob`, `ref_sort_heap_dbl`.  The
`for (;;)` runs `n / 2` times for the heap and `n - 1` times for the order. -/
def sortHeap (n : Nat) (original : Nat → α) (sortedIndex : Nat → Nat) : Nat → Nat :=
  let s := fun i => if i < n then i else sortedIndex i
  if n < 2 then s
  else heapLoop original (n / 2 + n) (n / 2 + 1) (n - 1) s

/-! ## The heap order -/

/-- `c` is one of the two children of `p` in the implicit binary tree. -/
def HeapChild (c p : Nat) : Prop := c = 2 * p + 1 ∨ c = 2 * p + 2

/-- Every parent at or after `a` dominates its children up to `ir`. -/
def HeapFrom (original : Nat → α) (a ir : Nat) (t : Nat → Nat) : Prop :=
  ∀ p c, a ≤ p → HeapChild c p → c ≤ ir → original (t c) ≤ original (t p)

/-- The heap order with the children of `i` exempt, as the sift keeps it:
`grand` puts those children below the parent of `i`. -/
structure HeapExcept (original : Nat → α) (a ir i : Nat) (t : Nat → Nat) : Prop where
  pair : ∀ p c, a ≤ p → p ≠ i → HeapChild c p → c ≤ ir →
    original (t c) ≤ original (t p)
  grand : ∀ p c, a ≤ p → HeapChild i p → HeapChild c i → c ≤ ir →
    original (t c) ≤ original (t p)

/-- A reordering of the positions up to `ir`. -/
def PermutesUpTo (ir : Nat) (s t : Nat → Nat) : Prop :=
  ∃ σ : Equiv.Perm Nat, (∀ k, ir < k → σ k = k) ∧ ∀ k, t k = s (σ k)

theorem PermutesUpTo.refl (ir : Nat) (s : Nat → Nat) : PermutesUpTo ir s s :=
  ⟨Equiv.refl _, fun _ _ => rfl, fun _ => rfl⟩

theorem PermutesUpTo.trans {ir : Nat} {s t u : Nat → Nat}
    (hst : PermutesUpTo ir s t) (htu : PermutesUpTo ir t u) : PermutesUpTo ir s u := by
  obtain ⟨σ, hσ, hs⟩ := hst
  obtain ⟨τ, hτ, ht⟩ := htu
  refine ⟨τ.trans σ, fun k hk => ?_, fun k => ?_⟩
  · rw [Equiv.trans_apply, hτ k hk, hσ k hk]
  · rw [ht k, hs, Equiv.trans_apply]

theorem PermutesUpTo.mono {ir ir' : Nat} {s t : Nat → Nat} (hir : ir ≤ ir')
    (h : PermutesUpTo ir s t) : PermutesUpTo ir' s t := by
  obtain ⟨σ, hσ, hs⟩ := h
  exact ⟨σ, fun k hk => hσ k (by omega), hs⟩

/-- A reordering of the positions up to `ir` stays among them. -/
theorem perm_le_of_fixes {ir : Nat} {σ : Equiv.Perm Nat}
    (hσ : ∀ k, ir < k → σ k = k) {k : Nat} (hk : k ≤ ir) : σ k ≤ ir := by
  by_contra hlt
  have hfix : σ (σ k) = σ k := hσ _ (by omega)
  have : σ k = k := σ.injective hfix
  omega

theorem permutesUpTo_swap {ir i j : Nat} (hi : i ≤ ir) (hj : j ≤ ir) (t : Nat → Nat) :
    PermutesUpTo ir t (fun k => t (Equiv.swap i j k)) := by
  refine ⟨Equiv.swap i j, fun k hk => ?_, fun _ => rfl⟩
  exact Equiv.swap_apply_of_ne_of_ne (by omega) (by omega)

/-- Moving the entry at `j` into the hole `i` and refilling at `j` is one
transposition of the filled array. -/
theorem update_update_eq_swap {i j : Nat} (hij : i ≠ j) (s : Nat → Nat) (x : Nat) :
    Function.update (Function.update s i (s j)) j x =
      fun k => Function.update s i x (Equiv.swap i j k) := by
  funext k
  by_cases hkj : k = j
  · subst hkj; simp
  · by_cases hki : k = i
    · subst hki
      simp [Function.update_of_ne hkj, Function.update_of_ne (Ne.symm hij)]
    · rw [Equiv.swap_apply_of_ne_of_ne hki hkj]
      simp [Function.update_of_ne hkj, Function.update_of_ne hki]

/-- One move of the sift: the larger child `j` rises and the exemption
follows the hole. -/
theorem HeapExcept.move {original : Nat → α} {a ir i j : Nat} {t : Nat → Nat}
    (h : HeapExcept original a ir i t) (hai : a ≤ i) (hj : HeapChild j i) (hjr : j ≤ ir)
    (hmax : ∀ c, HeapChild c i → c ≤ ir → original (t c) ≤ original (t j))
    (hq : original (t i) < original (t j)) :
    HeapExcept original a ir j (fun k => t (Equiv.swap i j k)) := by
  have hij : i < j := by unfold HeapChild at hj; omega
  have hsi : Equiv.swap i j i = j := Equiv.swap_apply_left i j
  have hsj : Equiv.swap i j j = i := Equiv.swap_apply_right i j
  have hother : ∀ k, k ≠ i → k ≠ j → Equiv.swap i j k = k :=
    fun k => Equiv.swap_apply_of_ne_of_ne
  constructor
  · intro p c hap hpj hc hcr
    by_cases hpi : p = i
    · subst hpi
      by_cases hcj : c = j
      · subst hcj; simpa only [hsi, hsj] using hq.le
      · rw [hsi, hother c (by unfold HeapChild at hc; omega) hcj]
        exact hmax c hc hcr
    · have hcj : c ≠ j := by
        rintro rfl; unfold HeapChild at hc hj; omega
      rw [hother p hpi hpj]
      by_cases hci : c = i
      · subst hci; rw [hsi]; exact h.grand p j hap hc hj hjr
      · rw [hother c hci hcj]; exact h.pair p c hap hpi hc hcr
  · intro p c hap hjp hc hcr
    have hpi : p = i := by unfold HeapChild at hjp hj; omega
    have hcj : c ≠ j := by unfold HeapChild at hc; omega
    have hci : c ≠ i := by unfold HeapChild at hc hj; omega
    subst hpi
    rw [hsi, hother c hci hcj]
    exact h.pair j c (by omega) (by omega) hc hcr

/-- Once the exempt entry dominates its children the heap order is whole. -/
theorem HeapExcept.finish {original : Nat → α} {a ir i : Nat} {t : Nat → Nat}
    (h : HeapExcept original a ir i t)
    (hstop : ∀ c, HeapChild c i → c ≤ ir → original (t c) ≤ original (t i)) :
    HeapFrom original a ir t := by
  intro p c hap hc hcr
  by_cases hpi : p = i
  · subst hpi; exact hstop c hc hcr
  · exact h.pair p c hap hpi hc hcr

/-- The child the sift looks at dominates the other one. -/
theorem larger_child (original : Nat → α) (t : Nat → Nat) {i ir : Nat}
    (hj : 2 * i + 1 ≤ ir) :
    let j := if 2 * i + 1 < ir ∧ original (t (2 * i + 1)) < original (t (2 * i + 1 + 1))
      then 2 * i + 1 + 1 else 2 * i + 1
    HeapChild j i ∧ j ≤ ir ∧
      ∀ c, HeapChild c i → c ≤ ir → original (t c) ≤ original (t j) := by
  intro j
  by_cases hlt : 2 * i + 1 < ir ∧ original (t (2 * i + 1)) < original (t (2 * i + 1 + 1))
  · have hje : j = 2 * i + 1 + 1 := if_pos hlt
    rw [hje]
    refine ⟨Or.inr rfl, by omega, ?_⟩
    rintro c (rfl | rfl) _
    · exact hlt.2.le
    · exact le_refl _
  · have hje : j = 2 * i + 1 := if_neg hlt
    rw [hje]
    refine ⟨Or.inl rfl, hj, ?_⟩
    rintro c (rfl | rfl) hc
    · exact le_refl _
    · exact not_lt.mp (fun h => hlt ⟨by omega, h⟩)

/-- **The sift restores the heap order.**  The loop is followed on the array
with its hole filled by `indxt`; the fuel outlasts the distance to `ir`. -/
theorem siftLoop_spec (original : Nat → α) (indxt a ir : Nat) :
    ∀ (fuel i : Nat) (s : Nat → Nat), ir + 1 ≤ fuel + (2 * i + 1) → a ≤ i → i ≤ ir →
      HeapExcept original a ir i (Function.update s i indxt) →
      let r := siftLoop original (original indxt) ir fuel i (2 * i + 1) s
      HeapFrom original a ir (Function.update r.2 r.1 indxt) ∧
        PermutesUpTo ir (Function.update s i indxt) (Function.update r.2 r.1 indxt) := by
  intro fuel
  induction fuel with
  | zero =>
      intro i s hfuel hai hir h
      refine ⟨h.finish fun c hc hcr => ?_, PermutesUpTo.refl _ _⟩
      unfold HeapChild at hc
      omega
  | succ fuel ih =>
      intro i s hfuel hai hir h
      by_cases hj : 2 * i + 1 ≤ ir
      · have hread : ∀ k, k ≠ i → Function.update s i indxt k = s k :=
          fun k hk => Function.update_of_ne hk _ _
        obtain ⟨hchild, hjr, hmax⟩ :=
          larger_child original (Function.update s i indxt) hj
        rw [hread (2 * i + 1) (by omega), hread (2 * i + 1 + 1) (by omega)] at hchild hjr hmax
        simp only [siftLoop, if_pos hj]
        set j := if 2 * i + 1 < ir ∧ original (s (2 * i + 1)) < original (s (2 * i + 1 + 1))
          then 2 * i + 1 + 1 else 2 * i + 1 with hjdef
        have hij : i ≠ j := by unfold HeapChild at hchild; omega
        by_cases hq : original indxt < original (s j)
        · have hmove := h.move hai hchild hjr hmax (by
            rw [Function.update_self, hread j hij.symm]; exact hq)
          rw [← update_update_eq_swap hij] at hmove
          have harith : 2 * (j + 1) - 1 = 2 * j + 1 := by omega
          have hstep := ih j (Function.update s i (s j))
            (by unfold HeapChild at hchild; omega) (by unfold HeapChild at hchild; omega)
            hjr hmove
          simp only [if_pos hq, harith]
          refine ⟨hstep.1, PermutesUpTo.trans ?_ hstep.2⟩
          rw [update_update_eq_swap hij]
          exact permutesUpTo_swap hir hjr _
        · simp only [if_neg hq]
          refine ⟨h.finish fun c hc hcr => ?_, PermutesUpTo.refl _ _⟩
          have := hmax c hc hcr
          rw [hread j hij.symm] at this
          rw [Function.update_self]
          exact this.trans (not_lt.mp hq)
      · simp only [siftLoop, if_neg hj]
        refine ⟨h.finish fun c hc hcr => ?_, PermutesUpTo.refl _ _⟩
        unfold HeapChild at hc
        omega

theorem sift_spec (original : Nat → α) {indxt a ir i : Nat} {s : Nat → Nat}
    (hai : a ≤ i) (hir : i ≤ ir)
    (h : HeapExcept original a ir i (Function.update s i indxt)) :
    HeapFrom original a ir (sift original indxt ir i (2 * i + 1) s) ∧
      PermutesUpTo ir (Function.update s i indxt)
        (sift original indxt ir i (2 * i + 1) s) :=
  siftLoop_spec original indxt a ir (ir + 1) i s (by omega) hai hir h

/-- The root of a heap dominates every position. -/
theorem HeapFrom.root {original : Nat → α} {ir : Nat} {t : Nat → Nat}
    (h : HeapFrom original 0 ir t) : ∀ k, k ≤ ir → original (t k) ≤ original (t 0) := by
  intro k
  induction k using Nat.strong_induction_on with
  | _ k ih =>
      intro hk
      by_cases hk0 : k = 0
      · rw [hk0]
      · have hc : HeapChild k ((k - 1) / 2) := by unfold HeapChild; omega
        exact (h _ k (Nat.zero_le _) hc hk).trans (ih _ (by omega) (by omega))

/-- Everything after `ir` is in order and above everything before it. -/
def TailSorted (original : Nat → α) (n ir : Nat) (t : Nat → Nat) : Prop :=
  ∀ i j, i < j → ir < j → j < n → original (t i) ≤ original (t j)

/-- Any reordering of the positions up to `ir` that puts the old root at `ir`
extends the sorted tail by one. -/
theorem TailSorted.extend {original : Nat → α} {n ir : Nat} {s r : Nat → Nat}
    (htail : TailSorted original n ir s) (hroot : ∀ k, k ≤ ir → original (s k) ≤ original (s 0))
    (hperm : PermutesUpTo ir s r) (hr : r ir = s 0) :
    TailSorted original n (ir - 1) r := by
  obtain ⟨σ, hσ, hs⟩ := hperm
  intro i j hij hj hjn
  by_cases hjr : j = ir
  · subst hjr
    rw [hr, hs i]
    exact hroot _ (perm_le_of_fixes hσ (by omega))
  · have hjs : r j = s j := by rw [hs j, hσ j (by omega)]
    rw [hjs, hs i]
    by_cases hi : i ≤ ir
    · have := perm_le_of_fixes hσ hi
      exact htail _ _ (by omega) (by omega) hjn
    · rw [hσ i (by omega)]
      exact htail i j hij (by omega) hjn

/-- The exchange of the root with the last heap position. -/
theorem root_exchange {original : Nat → α} {ir : Nat} {s : Nat → Nat} (hir : 1 ≤ ir)
    (hheap : HeapFrom original 0 ir s) :
    let t := Function.update (Function.update s ir (s 0)) 0 (s ir)
    PermutesUpTo ir s t ∧ t ir = s 0 ∧ HeapExcept original 0 (ir - 1) 0 t := by
  intro t
  have ht : t = fun k => s (Equiv.swap ir 0 k) := by
    have := update_update_eq_swap (show ir ≠ 0 by omega) s (s ir)
    simpa only [Function.update_eq_self] using this
  have hkeep : ∀ k, k ≠ 0 → k ≠ ir → t k = s k := by
    intro k hk0 hkr
    rw [ht]
    exact congrArg s (Equiv.swap_apply_of_ne_of_ne hkr hk0)
  refine ⟨?_, ?_, ⟨?_, ?_⟩⟩
  · rw [ht]
    exact permutesUpTo_swap (le_refl _) (Nat.zero_le _) s
  · rw [ht]
    exact congrArg s (Equiv.swap_apply_left ir 0)
  · intro p c _ hp0 hc hcr
    rw [hkeep p hp0 (by unfold HeapChild at hc; omega),
      hkeep c (by unfold HeapChild at hc; omega) (by omega)]
    exact hheap p c (Nat.zero_le _) hc (by omega)
  · intro p c _ h0 _ _
    unfold HeapChild at h0
    omega

/-- **The shrinking phase sorts.** -/
theorem heapLoop_shrink (original : Nat → α) (n : Nat) :
    ∀ (fuel ir : Nat) (s : Nat → Nat), ir ≤ fuel → 1 ≤ ir → ir < n →
      HeapFrom original 0 ir s → TailSorted original n ir s →
      TailSorted original n 0 (heapLoop original fuel 1 ir s) ∧
        PermutesUpTo (n - 1) s (heapLoop original fuel 1 ir s) := by
  intro fuel
  induction fuel with
  | zero => intro ir s hf h1; omega
  | succ fuel ih =>
      intro ir s hfuel hir hn hheap htail
      obtain ⟨hperm, hlast, hexc⟩ := root_exchange hir hheap
      simp only [heapLoop, lt_irrefl, if_false]
      by_cases hdone : ir - 1 = 0
      · simp only [if_pos hdone]
        have hsorted := htail.extend hheap.root hperm hlast
        rw [hdone] at hsorted
        exact ⟨hsorted, hperm.mono (by omega)⟩
      · simp only [if_neg hdone]
        obtain ⟨hfrom, hsift⟩ := sift_spec original (Nat.le_refl 0) (Nat.zero_le _) hexc
        have hboth := hperm.trans (hsift.mono (Nat.sub_le _ _))
        have hlast' : sift original (s ir) (ir - 1) 0 (2 * 0 + 1)
            (Function.update s ir (s 0)) ir = s 0 := by
          obtain ⟨σ, hσ, hs⟩ := hsift
          rw [hs ir, hσ ir (by omega), hlast]
        have hnext := ih (ir - 1) _ (by omega) (by omega) (by omega) hfrom
          (htail.extend hheap.root hboth hlast')
        exact ⟨hnext.1, PermutesUpTo.trans (hboth.mono (by omega)) hnext.2⟩

/-- **The whole loop sorts**, from any state whose positions at or after
`l - 1` are already a heap. -/
theorem heapLoop_spec (original : Nat → α) (n : Nat) (hn : 2 ≤ n) :
    ∀ (fuel l : Nat) (s : Nat → Nat), l + n ≤ fuel + 2 → 1 ≤ l → l ≤ n →
      HeapFrom original (l - 1) (n - 1) s →
      TailSorted original n 0 (heapLoop original fuel l (n - 1) s) ∧
        PermutesUpTo (n - 1) s (heapLoop original fuel l (n - 1) s) := by
  intro fuel
  induction fuel with
  | zero => intro l s hf h1; omega
  | succ fuel ih =>
      intro l s hfuel hl hln hheap
      by_cases hbuild : 1 < l
      · have hpos : l - 1 + (l - 1 - 1) = 2 * (l - 1 - 1) + 1 := by omega
        have hexc : HeapExcept original (l - 1 - 1) (n - 1) (l - 1 - 1)
            (Function.update s (l - 1 - 1) (s (l - 1 - 1))) := by
          rw [Function.update_eq_self]
          refine ⟨fun p c hp hne hc hcr => hheap p c (by omega) hc hcr, ?_⟩
          intro p c hp hip _ _
          unfold HeapChild at hip
          omega
        obtain ⟨hfrom, hperm⟩ := sift_spec original (le_refl _) (by omega) hexc
        rw [Function.update_eq_self] at hperm
        simp only [heapLoop, if_pos hbuild, hpos]
        have hnext := ih (l - 1) _ (by omega) (by omega) (by omega) hfrom
        exact ⟨hnext.1, hperm.trans hnext.2⟩
      · have hl1 : l = 1 := by omega
        subst hl1
        exact heapLoop_shrink original n (fuel + 1) (n - 1) s (by omega) (by omega) (by omega)
          hheap (fun i j _ hj hjn => by omega)

/-- **The heap sort is correct.**  The index array is a permutation of
`0 .. n-1`, the values along it do not decrease, and no position from `n` on
is written. -/
theorem sortHeap_spec (n : Nat) (original : Nat → α) (sortedIndex : Nat → Nat) :
    ∃ σ : Equiv.Perm Nat, (∀ k, n ≤ k → σ k = k) ∧
      (∀ k, k < n → sortHeap n original sortedIndex k = σ k) ∧
      (∀ k, n ≤ k → sortHeap n original sortedIndex k = sortedIndex k) ∧
      ∀ i j, i ≤ j → j < n → original (sortHeap n original sortedIndex i) ≤
        original (sortHeap n original sortedIndex j) := by
  by_cases hn : n < 2
  · refine ⟨Equiv.refl _, fun _ _ => rfl, fun k hk => ?_, fun k hk => ?_, fun i j hij hj => ?_⟩
    · simp [sortHeap, hn, hk]
    · simp [sortHeap, hn, not_lt.mpr hk]
    · have : i = j := by omega
      rw [this]
  · set s0 : Nat → Nat := fun i => if i < n then i else sortedIndex i with hs0
    have hrun := heapLoop_spec original n (by omega) (n / 2 + n) (n / 2 + 1) s0 (by omega)
      (by omega) (by omega) (fun p c hp hc hcr => by unfold HeapChild at hc; omega)
    obtain ⟨hsorted, σ, hσ, hs⟩ := hrun
    have hdef : sortHeap n original sortedIndex =
        heapLoop original (n / 2 + n) (n / 2 + 1) (n - 1) s0 := by
      simp [sortHeap, hn, hs0]
    rw [hdef]
    refine ⟨σ, fun k hk => hσ k (by omega), fun k hk => ?_, fun k hk => ?_, fun i j hij hj => ?_⟩
    · have := perm_le_of_fixes hσ (show k ≤ n - 1 by omega)
      rw [hs k, hs0]
      simp only [show σ k < n by omega, if_true]
    · rw [hs k, hσ k (by omega), hs0]
      simp only [show ¬ k < n by omega, if_false]
    · by_cases heq : i = j
      · rw [heq]
      · exact hsorted i j (by omega) (by omega) hj

/-- The sorted order is a rearrangement of the first `n` positions, read off
position by position. -/
theorem sortHeap_bijOn (n : Nat) (original : Nat → α) (sortedIndex : Nat → Nat) :
    (∀ i, i < n → sortHeap n original sortedIndex i < n) ∧
      (∀ i j, i < n → j < n →
        sortHeap n original sortedIndex i = sortHeap n original sortedIndex j → i = j) ∧
      (∀ k, k < n → ∃ i, i < n ∧ sortHeap n original sortedIndex i = k) ∧
      ∀ i j, i ≤ j → j < n → original (sortHeap n original sortedIndex i) ≤
        original (sortHeap n original sortedIndex j) := by
  obtain ⟨σ, hfix, hσ, _, hasc⟩ := sortHeap_spec n original sortedIndex
  refine ⟨fun i hi => ?_, fun i j hi hj hij => ?_, fun k hk => ?_, hasc⟩
  · rw [hσ i hi]
    by_contra hge
    have heq : σ i = i := σ.injective (hfix (σ i) (by omega))
    omega
  · rw [hσ i hi, hσ j hj] at hij
    exact σ.injective hij
  · have hback : σ.symm k < n := by
      by_contra hge
      have heq := hfix (σ.symm k) (by omega)
      rw [Equiv.apply_symm_apply] at heq
      omega
    exact ⟨σ.symm k, hback, by rw [hσ _ hback, Equiv.apply_symm_apply]⟩

/-- `ref_sort_in_place_glob`: gather through the heap order into a temporary
and copy it back. -/
def sortInPlace (n : Nat) (sorts : Nat → α) : Nat → α :=
  if n < 2 then sorts
  else fun i => if i < n then sorts (sortHeap n sorts (fun _ => 0) i) else sorts i

/-- **In-place sorting is a sorted permutation of the first `n` entries.** -/
theorem sortInPlace_spec (n : Nat) (sorts : Nat → α) :
    (∀ i j, i ≤ j → j < n → sortInPlace n sorts i ≤ sortInPlace n sorts j) ∧
      ((List.range n).map (sortInPlace n sorts)).Perm ((List.range n).map sorts) := by
  by_cases hn : n < 2
  · simp only [sortInPlace, if_pos hn]
    refine ⟨fun i j hij hj => ?_, List.Perm.refl _⟩
    have : i = j := by omega
    rw [this]
  · obtain ⟨σ, hfix, hσ, _, hsorted⟩ := sortHeap_spec n sorts (fun _ => 0)
    have hval : ∀ k, k < n → sortInPlace n sorts k = sorts (σ k) := by
      intro k hk
      simp only [sortInPlace, if_neg hn, if_pos hk, hσ k hk]
    constructor
    · intro i j hij hj
      have := hsorted i j hij hj
      rwa [hσ i (by omega), hσ j hj, ← hval i (by omega), ← hval j hj] at this
    · have hmap : (List.range n).map (sortInPlace n sorts) =
          ((List.range n).map σ).map sorts := by
        rw [List.map_map]
        exact List.map_congr_left fun k hk => hval k (List.mem_range.mp hk)
      rw [hmap]
      refine List.Perm.map sorts ?_
      refine (List.perm_ext_iff_of_nodup ?_ List.nodup_range).mpr fun k => ?_
      · exact List.nodup_range.map σ.injective
      · -- `σ` fixes everything from `n` on, so it maps the first `n` onto themselves
        simp only [List.mem_map, List.mem_range]
        constructor
        · rintro ⟨i, hi, rfl⟩
          by_contra hk
          have := σ.injective (hfix (σ i) (by omega))
          omega
        · intro hk
          refine ⟨σ.symm k, ?_, σ.apply_symm_apply k⟩
          by_contra hi
          have := hfix (σ.symm k) (by omega)
          rw [σ.apply_symm_apply] at this
          omega

/-! ## Binary search -/

/-- The `while ((lower < mid) && (mid < upper))` of the searches. -/
def searchLoop (ascendingList : Nat → α) (target : α) :
    Nat → Nat → Nat → Nat → Except Status Nat
  | 0, _, _, _ => .error .notFound
  | fuel+1, lower, upper, mid =>
      if lower < mid ∧ mid < upper then
        if ascendingList mid ≤ target then
          if target = ascendingList mid then .ok mid
          else searchLoop ascendingList target fuel mid upper ((mid + upper) / 2)
        else searchLoop ascendingList target fuel lower mid ((lower + mid) / 2)
      else .error .notFound

/-- `ref_sort_search_int` and `ref_sort_search_glob`; the position is
`REF_EMPTY` exactly when the code is `REF_NOT_FOUND`. -/
def sortSearch (n : Nat) (ascendingList : Nat → α) (target : α) : Except Status Nat :=
  if n < 1 then .error .notFound
  else if target < ascendingList 0 ∨ ascendingList (n - 1) < target then .error .notFound
  else if target = ascendingList 0 then .ok 0
  else if target = ascendingList (n - 1) then .ok (n - 1)
  else searchLoop ascendingList target n 0 (n - 1) (n / 2)

/-- The search loop only ever answers a position of the target or
`REF_NOT_FOUND`. -/
theorem searchLoop_sound (ascendingList : Nat → α) (target : α) :
    ∀ fuel lower upper mid, (∃ k, searchLoop ascendingList target fuel lower upper mid = .ok k ∧
        ascendingList k = target ∧ k < upper) ∨
      searchLoop ascendingList target fuel lower upper mid = .error .notFound := by
  intro fuel
  induction fuel with
  | zero => intro lower upper mid; exact Or.inr rfl
  | succ fuel ih =>
      intro lower upper mid
      by_cases hmid : lower < mid ∧ mid < upper
      · by_cases hle : ascendingList mid ≤ target
        · by_cases heq : target = ascendingList mid
          · exact Or.inl ⟨mid, by simp [searchLoop, hmid, ← heq], heq.symm, hmid.2⟩
          · simpa [searchLoop, hmid, hle, heq] using ih mid upper ((mid + upper) / 2)
        · have hrec := ih lower mid ((lower + mid) / 2)
          simp only [searchLoop, if_pos hmid, if_neg hle]
          rcases hrec with ⟨k, hk, hval, hlt⟩ | hnone
          · exact Or.inl ⟨k, hk, hval, hlt.trans hmid.2⟩
          · exact Or.inr hnone
      · exact Or.inr (by simp [searchLoop, hmid])

/-- On an ascending list the bracket `lower .. upper` never loses the target:
a failed search leaves it nowhere strictly between the two ends. -/
theorem searchLoop_complete {n : Nat} {ascendingList : Nat → α} (target : α)
    (hasc : ∀ i j, i ≤ j → j < n → ascendingList i ≤ ascendingList j) :
    ∀ fuel lower upper mid, upper < n → upper ≤ lower + fuel → lower ≤ upper →
      (lower + 1 < upper → lower < mid ∧ mid < upper) →
      searchLoop ascendingList target fuel lower upper mid = .error .notFound →
      ∀ k, lower < k → k < upper → ascendingList k ≠ target := by
  intro fuel
  induction fuel with
  | zero => intro lower upper mid _ hfuel _ _ _ k hk hk'; omega
  | succ fuel ih =>
      intro lower upper mid hn hfuel hlu hbracket hrun k hk hk'
      have hmid := hbracket (by omega)
      by_cases hle : ascendingList mid ≤ target
      · by_cases heq : target = ascendingList mid
        · simp [searchLoop, hmid, ← heq] at hrun
        · simp only [searchLoop, if_pos hmid, if_pos hle, if_neg heq] at hrun
          by_cases hkm : k ≤ mid
          · intro hkt
            have := hasc k mid hkm (by omega)
            rw [hkt] at this
            exact heq (le_antisymm this hle)
          · exact ih mid upper _ hn (by omega) (by omega) (by omega) hrun k (by omega) hk'
      · simp only [searchLoop, if_pos hmid, if_neg hle] at hrun
        by_cases hkm : k < mid
        · exact ih lower mid _ (by omega) (by omega) (by omega) (by omega) hrun k hk hkm
        · intro hkt
          have := hasc mid k (by omega) (by omega)
          rw [hkt] at this
          exact hle this

/-- **Binary search is exact** on an ascending list: it answers a position of
the target, or `REF_NOT_FOUND` when the target is not in the list. -/
theorem sortSearch_spec {n : Nat} {ascendingList : Nat → α} (target : α)
    (hasc : ∀ i j, i ≤ j → j < n → ascendingList i ≤ ascendingList j) :
    (∃ k, sortSearch n ascendingList target = .ok k ∧ k < n ∧ ascendingList k = target) ∨
      (sortSearch n ascendingList target = .error .notFound ∧
        ∀ k, k < n → ascendingList k ≠ target) := by
  by_cases hn : n < 1
  · exact Or.inr ⟨by simp [sortSearch, hn], fun k hk => by omega⟩
  by_cases hout : target < ascendingList 0 ∨ ascendingList (n - 1) < target
  · refine Or.inr ⟨by simp [sortSearch, hn, hout], fun k hk hkt => ?_⟩
    have hlo := hasc 0 k (by omega) hk
    have hhi := hasc k (n - 1) (by omega) (by omega)
    rw [hkt] at hlo hhi
    rcases hout with h | h
    · exact absurd hlo (not_le.mpr h)
    · exact absurd hhi (not_le.mpr h)
  by_cases h0 : target = ascendingList 0
  · refine Or.inl ⟨0, ?_, by omega, h0.symm⟩
    simp only [sortSearch, if_neg hn, if_neg hout, if_pos h0]
  by_cases h1 : target = ascendingList (n - 1)
  · refine Or.inl ⟨n - 1, ?_, by omega, h1.symm⟩
    simp only [sortSearch, if_neg hn, if_neg hout, if_neg h0, if_pos h1]
  have hdef : sortSearch n ascendingList target =
      searchLoop ascendingList target n 0 (n - 1) (n / 2) := by
    simp only [sortSearch, if_neg hn, if_neg hout, if_neg h0, if_neg h1]
  rw [hdef]
  rcases searchLoop_sound ascendingList target n 0 (n - 1) (n / 2) with ⟨k, hk, hval, hlt⟩ | hnone
  · exact Or.inl ⟨k, hk, by omega, hval⟩
  · refine Or.inr ⟨hnone, fun k hk hkt => ?_⟩
    by_cases hk0 : k = 0
    · exact h0 (by rw [← hkt, hk0])
    by_cases hk1 : k = n - 1
    · exact h1 (by rw [← hkt, hk1])
    exact searchLoop_complete target hasc n 0 (n - 1) (n / 2) (by omega) (by omega) (by omega)
      (by omega) hnone k (by omega) (by omega) hkt

end RefineMesh
