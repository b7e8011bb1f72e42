import Mathlib.Tactic
import Mathlib.Data.List.Sort
import Mathlib.Logic.Equiv.Basic
import RefineMesh.ArrayLoops

/-!
# Small sorts and canonical node sets

`ref_sort_insertion_int` sorts the few nodes of a cell and
`ref_sort_unique_int` drops the repeats.  The source compares cells through the
result, so two cells match exactly when they have the same set of nodes.
-/

namespace RefineMesh

variable {α : Type} [LinearOrder α]

/-- The inner loop of `ref_sort_insertion_int`: the place of the smallest entry
from `i` on. -/
def smallestFrom (n : Nat) (sorted : Nat → α) (i : Nat) : Nat :=
  (List.range' (i + 1) (n - (i + 1))).foldl
    (fun smallest j => if sorted j < sorted smallest then j else smallest) i

/-- `ref_sort_insertion_int`. -/
def sortInsertion (n : Nat) (original : Nat → α) : Nat → α :=
  (List.range n).foldl (fun sorted i =>
    let smallest := smallestFrom n sorted i
    let temp := sorted i
    Function.update (Function.update sorted i (sorted smallest)) smallest temp) original

/-- The loop of `ref_sort_unique_int`, with `j` the last entry kept. -/
def uniqueStep (acc : Nat × (Nat → α)) (i : Nat) : Nat × (Nat → α) :=
  let j := if acc.2 acc.1 ≠ acc.2 i then acc.1 + 1 else acc.1
  (j, if j ≠ i then Function.update acc.2 j (acc.2 i) else acc.2)

/-- `ref_sort_unique_int`: `nunique` and `unique`. -/
def sortUnique (n : Nat) (original : Nat → α) : Nat × (Nat → α) :=
  let kept := (List.range' 1 (n - 1)).foldl uniqueStep (0, sortInsertion n original)
  (kept.1 + 1, kept.2)

theorem smallestFrom_spec {n i : Nat} (sorted : Nat → α) (hi : i < n) :
    i ≤ smallestFrom n sorted i ∧ smallestFrom n sorted i < n ∧
      ∀ j, i ≤ j → j < n → sorted (smallestFrom n sorted i) ≤ sorted j := by
  have hloop : ∀ (m k : Nat), k < n → ∀ smallest, smallest ≤ k → i ≤ smallest → k + m < n →
      (∀ j, i ≤ j → j ≤ k → sorted smallest ≤ sorted j) →
      let found := (List.range' (k + 1) m).foldl
        (fun smallest j => if sorted j < sorted smallest then j else smallest) smallest
      i ≤ found ∧ found ≤ k + m ∧ ∀ j, i ≤ j → j ≤ k + m → sorted found ≤ sorted j := by
    intro m
    induction m with
    | zero =>
        intro k hk smallest hs hi' hm hle
        exact ⟨hi', hs, hle⟩
    | succ m ih =>
        intro k hk smallest hs hi' hm hle
        rw [List.range'_succ, List.foldl_cons]
        have hstep := ih (k + 1) (by omega)
          (if sorted (k + 1) < sorted smallest then k + 1 else smallest) (by split <;> omega)
          (by split <;> omega) (by omega) (by
            intro j hij hjk
            by_cases hj : j = k + 1
            · subst hj
              split
              · exact le_rfl
              · rename_i hnot
                exact not_lt.mp hnot
            · have hj' := hle j hij (by omega)
              split
              · rename_i hlt
                exact hlt.le.trans hj'
              · exact hj')
        have harith : k + 1 + m = k + (m + 1) := by omega
        rw [harith] at hstep
        exact hstep
  obtain ⟨h1, h2, h3⟩ := hloop (n - (i + 1)) i hi i le_rfl le_rfl (by omega) fun j h1 h2 => by
    rw [show j = i by omega]
  exact ⟨h1, by unfold smallestFrom; omega, fun j hij hj => h3 j hij (by omega)⟩

/-- **The insertion sort** is a sorted permutation of the first `n` entries. -/
theorem sortInsertion_spec (n : Nat) (original : Nat → α) :
    (∀ i j, i ≤ j → j < n → sortInsertion n original i ≤ sortInsertion n original j) ∧
      ∀ x, (∃ i, i < n ∧ sortInsertion n original i = x) ↔ ∃ i, i < n ∧ original i = x := by
  have hrule := ArrayLoop.foldl_inv
    (P := fun done rest (sorted : Nat → α) => done ++ rest = List.range n ∧
      (∀ i j, i < done.length → i ≤ j → j < n → sorted i ≤ sorted j) ∧
      ∀ x, (∃ i, i < n ∧ sorted i = x) ↔ ∃ i, i < n ∧ original i = x)
    (f := fun sorted i =>
      let smallest := smallestFrom n sorted i
      let temp := sorted i
      Function.update (Function.update sorted i (sorted smallest)) smallest temp)
    (l := List.range n) (b := original)
    (fun done k rest sorted hP => ?_) ⟨List.nil_append _,
      fun i j hi => absurd hi (by simp), fun x => Iff.rfl⟩
  · obtain ⟨_, hasc, hmem⟩ := hrule
    exact ⟨fun i j hij hj => hasc i j (by simp; omega) hij hj, hmem⟩
  · obtain ⟨hsplit, hasc, hmem⟩ := hP
    obtain ⟨rfl, hk⟩ := ArrayLoop.range_split hsplit
    obtain ⟨hge, hlt, hle⟩ := smallestFrom_spec sorted hk
    set k := done.length with hkdef
    set m := smallestFrom n sorted k with hm
    have hswap : Function.update (Function.update sorted k (sorted m)) m (sorted k) =
        sorted ∘ Equiv.swap m k := (Equiv.comp_swap_eq_update m k sorted).symm
    have hlow : ∀ i, i < k → Equiv.swap m k i = i := fun i hi =>
      Equiv.swap_apply_of_ne_of_ne (by omega) (by omega)
    have hrange : ∀ i, k ≤ i → i < n → k ≤ Equiv.swap m k i ∧ Equiv.swap m k i < n := by
      intro i h1 h2
      rw [Equiv.swap_apply_def]
      split
      · omega
      · split <;> omega
    refine ⟨by simpa using hsplit, ?_, ?_⟩
    · intro i j hi hij hj
      simp only [hswap, Function.comp_apply]
      rw [List.length_append, List.length_singleton] at hi
      by_cases hik : i < k
      · rw [hlow i hik]
        by_cases hjk : j < k
        · rw [hlow j hjk]
          exact hasc i j hik hij hj
        · obtain ⟨h1, h2⟩ := hrange j (by omega) hj
          exact hasc i _ hik (by omega) h2
      · have hik' : i = k := by omega
        subst hik'
        rw [Equiv.swap_apply_right]
        obtain ⟨h1, h2⟩ := hrange j hij hj
        exact hle _ h1 h2
    · intro x
      simp only [hswap, Function.comp_apply]
      rw [← hmem x]
      have hback : ∀ i, i < n → Equiv.swap m k i < n := by
        intro i hi
        by_cases hik : i < k
        · rw [hlow i hik]
          exact hi
        · exact (hrange i (by omega) hi).2
      constructor
      · intro h
        obtain ⟨i, hi, hx⟩ := h
        exact ⟨_, hback i hi, hx⟩
      · intro h
        obtain ⟨i, hi, hx⟩ := h
        exact ⟨Equiv.swap m k i, hback i hi, by rw [Equiv.swap_apply_self]; exact hx⟩

/-- **The unique entries** come out strictly ascending. -/
theorem sortUnique_spec {n : Nat} (original : Nat → α) (hn : 0 < n) :
    (∀ i j, i < j → j < (sortUnique n original).1 →
        (sortUnique n original).2 i < (sortUnique n original).2 j) ∧
      ∀ x, (∃ i, i < (sortUnique n original).1 ∧ (sortUnique n original).2 i = x) ↔
        ∃ i, i < n ∧ original i = x := by
  obtain ⟨hsorted, hmem⟩ := sortInsertion_spec n original
  set s := sortInsertion n original with hs
  -- the entries kept so far are those seen, the last kept equals the last seen
  have hloop : ∀ m, m < n →
      let acc := (List.range' 1 m).foldl uniqueStep (0, s)
      acc.1 ≤ m ∧ acc.2 acc.1 = s m ∧ (∀ k, m < k → acc.2 k = s k) ∧
        (∀ i j, i < j → j ≤ acc.1 → acc.2 i < acc.2 j) ∧
        ∀ x, (∃ i, i ≤ acc.1 ∧ acc.2 i = x) ↔ ∃ i, i ≤ m ∧ s i = x := by
    intro m
    induction m with
    | zero =>
        intro _
        refine ⟨le_rfl, rfl, fun _ _ => rfl, fun i j hij hj => ?_, fun x => Iff.rfl⟩
        change j ≤ 0 at hj
        omega
    | succ m ih =>
        intro hm
        obtain ⟨hle, hlast, hrest, hasc, hset⟩ := ih (by omega)
        rw [List.range'_1_concat, List.foldl_append, List.foldl_cons, List.foldl_nil]
        set acc := (List.range' 1 m).foldl uniqueStep (0, s) with hacc
        have hnext : acc.2 (1 + m) = s (m + 1) := by
          rw [Nat.add_comm 1 m]
          exact hrest (m + 1) (by omega)
        by_cases hsame : acc.2 acc.1 = acc.2 (1 + m)
        · -- a repeat: the last kept entry is written again
          have hstep : uniqueStep acc (1 + m) = (acc.1, acc.2) := by
            have hne : acc.1 ≠ 1 + m := by omega
            simp only [uniqueStep, hsame, ne_eq, not_true, if_false, hne, not_false_iff, if_true]
            rw [← hsame, Function.update_eq_self]
          rw [hstep]
          have hsm : s m = s (m + 1) := by rw [← hlast, hsame, hnext]
          refine ⟨by omega, by rw [hlast, hsm], fun k hk => hrest k (by omega), hasc, fun x => ?_⟩
          rw [hset x]
          constructor
          · intro h
            obtain ⟨i, hi, hx⟩ := h
            exact ⟨i, by omega, hx⟩
          · intro h
            obtain ⟨i, hi, hx⟩ := h
            by_cases him : i = m + 1
            · exact ⟨m, le_rfl, by rw [hsm, ← him, hx]⟩
            · exact ⟨i, by omega, hx⟩
        · have hstep : uniqueStep acc (1 + m) =
              (acc.1 + 1, Function.update acc.2 (acc.1 + 1) (s (m + 1))) := by
            have hsame' : ¬ acc.2 acc.1 = s (m + 1) := by rw [← hnext]; exact hsame
            simp only [uniqueStep, hnext, hsame', ne_eq, not_false_iff, if_true]
            by_cases hplace : acc.1 + 1 = 1 + m
            · have hentry : acc.2 (acc.1 + 1) = s (m + 1) := by rw [hplace, hnext]
              rw [if_neg (not_not.mpr hplace), ← hentry, Function.update_eq_self]
            · rw [if_pos hplace]
          rw [hstep]
          have hlt : acc.2 acc.1 < s (m + 1) := by
            apply lt_of_le_of_ne
            · rw [hlast]
              exact hsorted m (m + 1) (by omega) hm
            · rw [← hnext]
              exact hsame
          have hold : ∀ i, i ≤ acc.1 →
              Function.update acc.2 (acc.1 + 1) (s (m + 1)) i = acc.2 i := fun i hi =>
            Function.update_of_ne (by omega) _ _
          refine ⟨Nat.succ_le_succ hle, Function.update_self _ _ _, fun k hk => ?_,
            fun i j hij hj => ?_, fun x => ?_⟩
          · change Function.update acc.2 (acc.1 + 1) (s (m + 1)) k = s k
            rw [Function.update_of_ne (by omega)]
            exact hrest k (by omega)
          · change j ≤ acc.1 + 1 at hj
            change Function.update acc.2 (acc.1 + 1) (s (m + 1)) i <
              Function.update acc.2 (acc.1 + 1) (s (m + 1)) j
            rw [hold i (by omega)]
            by_cases hj' : j = acc.1 + 1
            · rw [hj', Function.update_self]
              by_cases hi : i = acc.1
              · rw [hi]
                exact hlt
              · exact (hasc i acc.1 (by omega) le_rfl).trans hlt
            · rw [hold j (by omega)]
              exact hasc i j hij (by omega)
          · constructor
            · intro h
              obtain ⟨i, hi, hx⟩ := h
              change i ≤ acc.1 + 1 at hi
              by_cases hi' : i = acc.1 + 1
              · refine ⟨m + 1, le_rfl, ?_⟩
                rw [← hx, hi']
                change s (m + 1) = Function.update acc.2 (acc.1 + 1) (s (m + 1)) (acc.1 + 1)
                rw [Function.update_self]
              · have hx' : acc.2 i = x := by rw [← hx]; exact (hold i (by omega)).symm
                obtain ⟨k, hk, hxk⟩ := (hset x).mp ⟨i, by omega, hx'⟩
                exact ⟨k, by omega, hxk⟩
            · intro h
              obtain ⟨i, hi, hx⟩ := h
              by_cases hi' : i = m + 1
              · refine ⟨acc.1 + 1, le_rfl, ?_⟩
                rw [← hx, hi']
                exact Function.update_self _ _ _
              · obtain ⟨k, hk, hxk⟩ := (hset x).mpr ⟨i, by omega, hx⟩
                exact ⟨k, Nat.le_succ_of_le hk, by rw [← hxk]; exact hold k hk⟩
  obtain ⟨_, _, _, hasc, hset⟩ := hloop (n - 1) (by omega)
  refine ⟨fun i j hij hj => hasc i j hij (Nat.lt_succ_iff.mp hj), fun x => ?_⟩
  rw [← hmem x]
  have hset' := hset x
  constructor
  · intro h
    obtain ⟨i, hi, hx⟩ := h
    obtain ⟨k, hk, hxk⟩ := hset'.mp ⟨i, Nat.lt_succ_iff.mp hi, hx⟩
    exact ⟨k, by omega, hxk⟩
  · intro h
    obtain ⟨i, hi, hx⟩ := h
    obtain ⟨k, hk, hxk⟩ := hset'.mpr ⟨i, by omega, hx⟩
    exact ⟨k, Nat.lt_succ_of_le hk, hxk⟩

/-- The comparison of two canonical arrays in the source: equal counts and as
many equal entries. -/
def sameUnique (target candidate : Nat × (Nat → α)) : Prop :=
  target.1 = candidate.1 ∧
    ((List.range target.1).filter fun i => target.2 i = candidate.2 i).length = target.1

instance (target candidate : Nat × (Nat → α)) : Decidable (sameUnique target candidate) :=
  inferInstanceAs (Decidable (_ ∧ _))

/-- **Cells match exactly when they have the same nodes.** -/
theorem sameUnique_iff {n n' : Nat} (f g : Nat → α) (hn : 0 < n) (hn' : 0 < n') :
    sameUnique (sortUnique n f) (sortUnique n' g) ↔
      ∀ x, (∃ i, i < n ∧ f i = x) ↔ ∃ i, i < n' ∧ g i = x := by
  obtain ⟨hascf, hsetf⟩ := sortUnique_spec f hn
  obtain ⟨hascg, hsetg⟩ := sortUnique_spec g hn'
  set F := sortUnique n f with hF
  set G := sortUnique n' g with hG
  have hfilter : ((List.range F.1).filter fun i => F.2 i = G.2 i).length = F.1 ↔
      ∀ i, i < F.1 → F.2 i = G.2 i := by
    have hlen : (List.range F.1).length = F.1 := List.length_range
    conv_lhs => rhs; rw [← hlen]
    rw [List.length_filter_eq_length_iff]
    simp
  constructor
  · intro h x
    have hent := hfilter.mp h.2
    rw [← hsetf x, ← hsetg x, ← h.1]
    constructor
    · intro he
      obtain ⟨i, hi, hx⟩ := he
      exact ⟨i, hi, by rw [← hent i hi, hx]⟩
    · intro he
      obtain ⟨i, hi, hx⟩ := he
      exact ⟨i, hi, by rw [hent i hi, hx]⟩
  · intro h
    have hlists : (List.range F.1).map F.2 = (List.range G.1).map G.2 := by
      have hF' : ((List.range F.1).map F.2).SortedLT := by
        apply List.Pairwise.sortedLT
        rw [List.pairwise_map]
        refine List.pairwise_lt_range.imp_of_mem fun {i j} _ hj hij => ?_
        exact hascf i j hij (List.mem_range.mp hj)
      have hG' : ((List.range G.1).map G.2).SortedLT := by
        apply List.Pairwise.sortedLT
        rw [List.pairwise_map]
        refine List.pairwise_lt_range.imp_of_mem fun {i j} _ hj hij => ?_
        exact hascg i j hij (List.mem_range.mp hj)
      apply hF'.eq_of_mem_iff hG'
      intro x
      have hx := h x
      rw [← hsetf x, ← hsetg x] at hx
      simpa using hx
    have hlen : F.1 = G.1 := by
      have := congrArg List.length hlists
      simpa using this
    refine ⟨hlen, hfilter.mpr fun i hi => ?_⟩
    have hget := congrArg (fun l => l[i]?) hlists
    simp only [List.getElem?_map, List.getElem?_range hi, List.getElem?_range (hlen ▸ hi),
      Option.map_some, Option.some.injEq] at hget
    exact hget

end RefineMesh
