import Mathlib.Tactic
import RefineMesh.Mpi
import RefineMesh.Search

/-!
# Selection by bisection

`ref_search_selection` finds the element of a given place in the order of all
elements on all ranks.  It never sorts: it halves an interval of values and
counts, over all ranks, the elements up to the middle.  Doubles are an ordered
field here.
-/

namespace OrderStatistic

variable {K : Type} [LinearOrder K]

/-- **The entry of a sorted list and the count below a value.** -/
theorem getElem_le_iff_lt_countP {l : List K} (hl : l.Pairwise (· ≤ ·)) {k : Nat}
    (hk : k < l.length) (x : K) : l[k] ≤ x ↔ k < l.countP (· ≤ x) := by
  induction l generalizing k with
  | nil => cases hk
  | cons a rest ih =>
      obtain ⟨hhead, hrest⟩ := List.pairwise_cons.mp hl
      by_cases ha : a ≤ x
      · rw [List.countP_cons_of_pos (by simpa using ha)]
        cases k with
        | zero => simpa using ha
        | succ k =>
            rw [List.getElem_cons_succ, ih hrest (by simpa using hk)]
            omega
      · -- the rest is over `a`, so that nothing is counted
        have hnone : (a :: rest).countP (· ≤ x) = 0 := by
          rw [List.countP_eq_zero]
          intro b hb
          simp only [decide_eq_true_eq, not_le]
          rcases List.mem_cons.mp hb with rfl | hb
          · exact not_le.mp ha
          · exact (not_le.mp ha).trans_le (hhead b hb)
        rw [hnone]
        simp only [not_lt_zero, iff_false, not_le]
        have hmem := List.getElem_mem hk
        rcases List.mem_cons.mp hmem with heq | hb
        · rw [heq]
          exact not_le.mp ha
        · exact (not_le.mp ha).trans_le (hhead _ hb)

/-- An operation that picks the one of two values that is ahead in `R`. -/
structure Picks {α : Type} (op : α → α → α) (R : α → α → Prop) : Prop where
  left : ∀ a b, R (op a b) a
  right : ∀ a b, R (op a b) b
  choice : ∀ a b, op a b = a ∨ op a b = b
  refl : ∀ a, R a a
  trans : ∀ a b c, R a b → R b c → R a c

theorem picks_min : Picks (min : K → K → K) (· ≤ ·) where
  left := min_le_left
  right := min_le_right
  choice := min_choice
  refl := le_refl
  trans := fun _ _ _ => le_trans

theorem picks_max : Picks (max : K → K → K) (· ≥ ·) where
  left := le_max_left
  right := le_max_right
  choice := max_choice
  refl := le_refl
  trans := fun _ _ _ hab hbc => le_trans hbc hab

section Picks

variable {α : Type} {op : α → α → α} {R : α → α → Prop}

/-- A loop over such an operation ends with a value that is ahead of all. -/
theorem Picks.foldl (h : Picks op R) {ι : Type} (l : List ι) (e : ι → α) (start : α) :
    let v := l.foldl (fun v i => op v (e i)) start
    R v start ∧ (∀ i ∈ l, R v (e i)) ∧ (v = start ∨ ∃ i ∈ l, v = e i) := by
  induction l generalizing start with
  | nil => exact ⟨h.refl start, fun i hi => absurd hi List.not_mem_nil, Or.inl rfl⟩
  | cons i rest ih =>
      obtain ⟨hstart, hall, hpick⟩ := ih (op start (e i))
      refine ⟨h.trans _ _ _ hstart (h.left _ _), ?_, ?_⟩
      · intro j hj
        rcases List.mem_cons.mp hj with rfl | hj
        · exact h.trans _ _ _ hstart (h.right _ _)
        · exact hall j hj
      · rcases hpick with heq | ⟨j, hj, heq⟩
        · rcases h.choice start (e i) with hleft | hright
          · exact Or.inl (heq.trans hleft)
          · exact Or.inr ⟨i, List.mem_cons_self, heq.trans hright⟩
        · exact Or.inr ⟨j, List.mem_cons_of_mem i hj, heq⟩

/-- So does its combination over the ranks. -/
theorem Picks.combined (h : Picks op R) (x : Nat → α) (m : Nat) :
    (∀ q, q ≤ m → R (Spmd.combined op x m) (x q)) ∧ ∃ q, q ≤ m ∧ Spmd.combined op x m = x q := by
  induction m with
  | zero =>
      refine ⟨?_, 0, le_rfl, rfl⟩
      intro q hq
      obtain rfl : q = 0 := by omega
      exact h.refl _
  | succ m ih =>
      obtain ⟨hall, q, hq, heq⟩ := ih
      rw [Spmd.combined]
      constructor
      · intro q' hq'
        rcases Nat.lt_succ_iff_lt_or_eq.mp (Nat.lt_succ_of_le hq') with hlt | rfl
        · exact h.trans _ _ _ (h.left _ _) (hall q' (by omega))
        · exact h.right _ _
      · rcases h.choice (Spmd.combined op x m) (x (m + 1)) with hleft | hright
        · exact ⟨q, by omega, hleft.trans heq⟩
        · exact ⟨m + 1, le_rfl, hright⟩

end Picks

end OrderStatistic

namespace RefineMesh

open Spmd

variable {K : Type} [Field K] [LinearOrder K]

/-- `ref_mpi_min` and `ref_mpi_max` of one double, with the operation `op`; only
rank 0 has the result, `output` is what the others keep. -/
def mpiReduceDbl {α : Type} (p : Nat) (op : α → α → α) (input output : α) : RankProg α α :=
  (mpiSum p .dbl op 1 (fun _ => input) fun _ => output).bind fun result => .ret (result 0)

/-- `ref_mpi_bcast` of one double. -/
def bcastDbl {α : Type} (p : Nat) (x : α) : RankProg α α :=
  (bcast p .dbl 1 fun _ => x).bind fun data => .ret (data 0)

/-- The elements of one rank up to a value. -/
def countUpTo {α : Type} [LinearOrder α] (n : Nat) (elements : Nat → α) (value : α) : Int :=
  ((List.range n).filter fun i => elements i ≤ value).length

-- the numeral of the halves, for every field
local instance atLeastTwo_two : Nat.AtLeastTwo 2 := ⟨le_rfl⟩

/-- The bisection loop of `ref_search_selection`, with the rounds to go. -/
def bisection (n : Nat) (elements : Nat → K) (position : Int) :
    Nat → K → K → K → RankProg K K
  | 0, _, _, mid => .ret mid
  | rounds+1, low, high, _ =>
      let mid := (low + high) / 2
      .allsum (countUpTo n elements mid) fun count =>
        if count - 1 < position then bisection n elements position rounds mid high mid
        else bisection n elements position rounds low mid mid

/-- `ref_search_selection`. -/
def selection (p n : Nat) (elements : Nat → K) (position : Int) : RankProg K K :=
  .allsum n fun total =>
    let highPos := total - 1
    let low := (List.range n).foldl (fun low i => min low (elements i)) (refDblMax K)
    let high := (List.range n).foldl (fun high i => max high (elements i)) (-refDblMax K)
    (mpiReduceDbl p min low low).bind fun low =>
    (bcastDbl p low).bind fun low =>
    (mpiReduceDbl p max high high).bind fun high =>
    (bcastDbl p high).bind fun high =>
      if position ≤ 0 then .ret low
      else if highPos ≤ position then .ret high
      else bisection n elements position 40 low high ((low + high) / 2)

/-! ## The elements of all ranks -/

/-- The elements, rank by rank. -/
def allElements {α : Type} (p : Nat) (n : Nat → Nat) (elements : Nat → Nat → α) : List α :=
  (List.range p).flatMap fun r => (List.range (n r)).map (elements r)

theorem mem_allElements {α : Type} {p : Nat} {n : Nat → Nat} {elements : Nat → Nat → α} {x : α} :
    x ∈ allElements p n elements ↔ ∃ r, r < p ∧ ∃ i, i < n r ∧ elements r i = x := by
  simp [allElements]

theorem length_allElements {α : Type} (p : Nat) (n : Nat → Nat) (elements : Nat → Nat → α) :
    (allElements p n elements).length = ∑ r ∈ Finset.range p, n r := by
  induction p with
  | zero => rfl
  | succ p ih =>
      rw [Finset.sum_range_succ, ← ih, allElements, allElements, List.range_succ]
      simp

/-- The elements in order. -/
def sortedElements {α : Type} [LinearOrder α] (p : Nat) (n : Nat → Nat)
    (elements : Nat → Nat → α) : List α :=
  (allElements p n elements).insertionSort (· ≤ ·)

theorem length_sortedElements {α : Type} [LinearOrder α] (p : Nat) (n : Nat → Nat)
    (elements : Nat → Nat → α) :
    (sortedElements p n elements).length = ∑ r ∈ Finset.range p, n r := by
  rw [sortedElements, List.length_insertionSort, length_allElements]

/-- The counts of the ranks add up to the count in the sorted list. -/
theorem sum_countUpTo {α : Type} [LinearOrder α] (p : Nat) (n : Nat → Nat)
    (elements : Nat → Nat → α) (x : α) :
    ∑ r ∈ Finset.range p, countUpTo (n r) (elements r) x =
      ((sortedElements p n elements).countP (· ≤ x) : Int) := by
  rw [sortedElements, (List.perm_insertionSort _ _).countP_eq]
  induction p with
  | zero => rfl
  | succ p ih =>
      rw [Finset.sum_range_succ, ih, allElements, allElements, List.range_succ,
        List.flatMap_append, List.countP_append]
      simp [countUpTo, List.countP_eq_length_filter, List.filter_map, Function.comp_def]

/-- A round of the bisection goes up exactly when the entry that is looked for
is over the middle. -/
theorem count_lt_iff {α : Type} [LinearOrder α] {p : Nat} {n : Nat → Nat}
    {elements : Nat → Nat → α} {k : Nat} (hk : k < (sortedElements p n elements).length) (mid : α) :
    ∑ r ∈ Finset.range p, countUpTo (n r) (elements r) mid - 1 < (k : Int) ↔
      mid < (sortedElements p n elements)[k] := by
  have hsorted : (sortedElements p n elements).Pairwise (· ≤ ·) := List.pairwise_insertionSort _ _
  rw [sum_countUpTo, ← not_le (b := mid), OrderStatistic.getElem_le_iff_lt_countP hsorted hk mid]
  omega

/-- The value that is ahead of all elements, from the loops of the ranks. -/
theorem picked_extreme {α : Type} {op : α → α → α} {R : α → α → Prop}
    (h : OrderStatistic.Picks op R) (hanti : ∀ a b, R a b → R b a → a = b) {p : Nat}
    {n : Nat → Nat} {elements : Nat → Nat → α} {start : α}
    (hstart : ∀ r, r < p → ∀ i, i < n r → R (elements r i) start)
    (hsome : ∃ r, r < p ∧ 0 < n r) :
    let v := combined op
      (fun r => (List.range (n r)).foldl (fun v i => op v (elements r i)) start) (p - 1)
    v ∈ allElements p n elements ∧ ∀ e ∈ allElements p n elements, R v e := by
  intro v
  obtain ⟨hranks, q, hq, hpick⟩ := h.combined
    (fun r => (List.range (n r)).foldl (fun v i => op v (elements r i)) start) (p - 1)
  have hahead : ∀ e ∈ allElements p n elements, R v e := by
    intro e he
    obtain ⟨r, hr, i, hi, rfl⟩ := mem_allElements.mp he
    exact h.trans _ _ _ (hranks r (by omega))
      ((h.foldl (List.range (n r)) (elements r) start).2.1 i (List.mem_range.mpr hi))
  refine ⟨?_, hahead⟩
  obtain ⟨r, hr, hpos⟩ := hsome
  rcases (h.foldl (List.range (n q)) (elements q) start).2.2 with heq | ⟨i, hi, heq⟩
  · -- the value is the start of the loops, and so is some element
    have hmem : elements r 0 ∈ allElements p n elements :=
      mem_allElements.mpr ⟨r, hr, 0, hpos, rfl⟩
    have hv : v = start := hpick.trans heq
    rw [hanti v (elements r 0) (hahead _ hmem) (hv ▸ hstart r hr 0 hpos)]
    exact hmem
  · have hv : v = elements q i := hpick.trans heq
    rw [hv]
    exact mem_allElements.mpr ⟨q, by omega, i, List.mem_range.mp hi, rfl⟩

/-! ## The runs -/

theorem mpiReduceDbl_run {α : Type} {p : Nat} (hp : 0 < p) (op : α → α → α) (x : Nat → α) :
    ∃ result : Nat → α, Runs p (fun r => mpiReduceDbl p op (x r) (x r)) result ∧
      result 0 = combined op x (p - 1) :=
  ⟨_, (mpiSum_run hp .dbl op 1 (fun r _ => x r) fun r _ => x r).bind (.ret fun _ _ => rfl),
    if_pos ⟨rfl, by decide⟩⟩

theorem bcastDbl_run {α : Type} {p : Nat} (hp : 0 < p) (x : Nat → α) :
    Runs p (fun r => bcastDbl p (x r)) fun _ => x 0 :=
  (bcast_run hp .dbl 1 fun r _ => x r).bind (.ret fun _ _ => rfl)

section Selection

variable {p : Nat} {n : Nat → Nat} {elements : Nat → Nat → K} [IsStrictOrderedRing K]

/-- **The bisection** ends within a half of the last interval. -/
theorem bisection_run {k : Nat} (hk : k < (sortedElements p n elements).length) :
    ∀ (rounds : Nat) (low high mid : K), low ≤ (sortedElements p n elements)[k] →
      (sortedElements p n elements)[k] ≤ high →
      ∃ v, Runs p (fun r => bisection (n r) (elements r) k (rounds + 1) low high mid) (fun _ => v) ∧
        |v - (sortedElements p n elements)[k]| ≤ (high - low) / 2 ^ (rounds + 1) := by
  intro rounds
  induction rounds with
  | zero =>
      intro low high mid hlow hhigh
      refine ⟨(low + high) / 2, ?_, ?_⟩
      · refine .allsum (fun r => countUpTo (n r) (elements r) ((low + high) / 2))
          _ (fun r _ => rfl) (.ret fun r _ => ?_)
        split <;> rfl
      · rw [abs_le]
        constructor <;> linarith
  | succ rounds ih =>
      intro low high mid hlow hhigh
      have hwidth : ∀ w : K, w / 2 / 2 ^ (rounds + 1) = w / 2 ^ (rounds + 1 + 1) := by
        intro w
        rw [pow_succ (2 : K) (rounds + 1)]
        field_simp
      by_cases hup : (low + high) / 2 < (sortedElements p n elements)[k]
      · obtain ⟨v, hrun, hv⟩ := ih ((low + high) / 2) high ((low + high) / 2) hup.le hhigh
        refine ⟨v, ?_, ?_⟩
        · refine .allsum (fun r => countUpTo (n r) (elements r) ((low + high) / 2))
            _ (fun r _ => rfl) ?_
          simp only [if_pos ((count_lt_iff hk _).mpr hup)]
          exact hrun
        · rw [← hwidth]
          convert hv using 2
          ring
      · obtain ⟨v, hrun, hv⟩ := ih low ((low + high) / 2) ((low + high) / 2) hlow (not_lt.mp hup)
        refine ⟨v, ?_, ?_⟩
        · refine .allsum (fun r => countUpTo (n r) (elements r) ((low + high) / 2))
            _ (fun r _ => rfl) ?_
          simp only [if_neg (fun h => hup ((count_lt_iff hk _).mp h))]
          exact hrun
        · rw [← hwidth]
          convert hv using 2
          ring

/-- **`ref_search_selection` finds the order statistic.**  All ranks return the
same value: the least or the greatest element at the two ends, and otherwise a
value next to the element of that place. -/
theorem selection_finds (hsome : ∃ r, r < p ∧ 0 < n r)
    (hlimits : ∀ r, r < p → ∀ i, i < n r →
      -refDblMax K ≤ elements r i ∧ elements r i ≤ refDblMax K) (position : Int) :
    Yields p (fun r => selection p (n r) (elements r) position) fun out =>
      ∃ v, (∀ r, r < p → out r = v) ∧
        (position ≤ 0 → IsLeast {e | e ∈ allElements p n elements} v) ∧
        ((∑ r ∈ Finset.range p, n r : Nat) - 1 ≤ position →
          IsGreatest {e | e ∈ allElements p n elements} v) ∧
        ∀ k (hk : k < (sortedElements p n elements).length), (k : Int) = position → 0 < k →
          k + 1 < (sortedElements p n elements).length →
          ∀ least greatest, IsLeast {e | e ∈ allElements p n elements} least →
            IsGreatest {e | e ∈ allElements p n elements} greatest →
            |v - (sortedElements p n elements)[k]| ≤ (greatest - least) / 2 ^ 40 := by
  have hp : 0 < p := by
    obtain ⟨r, hr, -⟩ := hsome
    omega
  obtain ⟨mins, hmins, hmin⟩ := mpiReduceDbl_run hp min fun r =>
    (List.range (n r)).foldl (fun low i => min low (elements r i)) (refDblMax K)
  obtain ⟨maxs, hmaxs, hmax⟩ := mpiReduceDbl_run hp max fun r =>
    (List.range (n r)).foldl (fun high i => max high (elements r i)) (-refDblMax K)
  have hleast : IsLeast {e | e ∈ allElements p n elements} (mins 0) := by
    rw [hmin]
    exact picked_extreme OrderStatistic.picks_min (fun _ _ => le_antisymm)
      (fun r hr i hi => (hlimits r hr i hi).2) hsome
  have hgreatest : IsGreatest {e | e ∈ allElements p n elements} (maxs 0) := by
    rw [hmax]
    exact picked_extreme OrderStatistic.picks_max (fun _ _ hab hba => le_antisymm hba hab)
      (fun r hr i hi => (hlimits r hr i hi).1) hsome
  have htotal : ((∑ r ∈ Finset.range p, n r : Nat) : Int) = ∑ r ∈ Finset.range p, (n r : Int) := by
    push_cast
    rfl
  have hlength : (sortedElements p n elements).length = ∑ r ∈ Finset.range p, n r :=
    length_sortedElements p n elements
  -- the ranks agree on both ends, and from there all do the same
  suffices htail : ∃ v, Runs p (fun r =>
        if position ≤ 0 then .ret (mins 0)
        else if (∑ r ∈ Finset.range p, (n r : Int)) - 1 ≤ position then .ret (maxs 0)
        else bisection (n r) (elements r) position 40 (mins 0) (maxs 0) ((mins 0 + maxs 0) / 2))
        (fun _ => v) ∧
      (position ≤ 0 → v = mins 0) ∧
      (¬ position ≤ 0 → (∑ r ∈ Finset.range p, (n r : Int)) - 1 ≤ position → v = maxs 0) ∧
      ∀ k (hk : k < (sortedElements p n elements).length), (k : Int) = position → 0 < k →
        k + 1 < (sortedElements p n elements).length →
        |v - (sortedElements p n elements)[k]| ≤ (maxs 0 - mins 0) / 2 ^ 40 by
    obtain ⟨v, hrun, hlow, hhigh, hmiddle⟩ := htail
    have hall : Runs p (fun r => selection p (n r) (elements r) position) fun _ => v :=
      .allsum (fun r => (n r : Int)) _ (fun _ _ => rfl)
        (hmins.bind ((bcastDbl_run hp mins).bind (hmaxs.bind ((bcastDbl_run hp maxs).bind hrun))))
    refine hall.yields fun out hout => ⟨v, hout, ?_, ?_, ?_⟩
    · intro hpos
      exact hlow hpos ▸ hleast
    · intro hend
      rw [htotal] at hend
      by_cases hpos : position ≤ 0
      · -- a single element is both ends
        have hone : (allElements p n elements).length ≤ 1 := by
          rw [length_allElements]
          have htotalLe : ((∑ r ∈ Finset.range p, n r : Nat) : Int) ≤ 1 := by
            rw [htotal]
            omega
          exact_mod_cast htotalLe
        obtain ⟨e, he⟩ : ∃ e, allElements p n elements = [e] := by
          have hmem : mins 0 ∈ allElements p n elements := hleast.1
          match hl : allElements p n elements, hone with
          | [e], _ => exact ⟨e, rfl⟩
          | [], _ => simp [hl] at hmem
        rw [hlow hpos]
        simp only [he, List.mem_singleton] at hleast ⊢
        rw [hleast.1]
        exact ⟨rfl, fun x hx => le_of_eq hx⟩
      · exact hhigh hpos hend ▸ hgreatest
    · intro k hk hkpos hk0 hkend least greatest hl hg
      rw [hl.unique hleast, hg.unique hgreatest]
      exact hmiddle k hk hkpos hk0 hkend
  by_cases hpos : position ≤ 0
  · refine ⟨mins 0, .ret fun r _ => if_pos hpos, fun _ => rfl, fun h => absurd hpos h, ?_⟩
    intro k hk hkpos hk0
    omega
  by_cases hend : (∑ r ∈ Finset.range p, (n r : Int)) - 1 ≤ position
  · refine ⟨maxs 0, .ret fun r _ => ?_, fun h => absurd h hpos, fun _ _ => rfl, ?_⟩
    · rw [if_neg hpos, if_pos hend]
    · intro k hk hkpos hk0 hkend
      rw [hlength] at hkend
      rw [← htotal] at hend
      omega
  -- in the middle the position is the place of an element, between the two ends
  have hk : position.toNat < (sortedElements p n elements).length := by
    rw [hlength]
    rw [← htotal] at hend
    omega
  have hkpos : ((position.toNat : Nat) : Int) = position := Int.toNat_of_nonneg (by omega)
  have hmem : (sortedElements p n elements)[position.toNat] ∈ allElements p n elements :=
    (List.perm_insertionSort _ _).subset (List.getElem_mem hk)
  obtain ⟨v, hrun, hv⟩ := bisection_run hk 39 (mins 0) (maxs 0) ((mins 0 + maxs 0) / 2)
    (hleast.2 hmem) (hgreatest.2 hmem)
  refine ⟨v, ?_, fun h => absurd h hpos, fun _ h => absurd h hend, ?_⟩
  · simp only [if_neg hpos, if_neg hend]
    rw [hkpos] at hrun
    exact hrun
  · intro k hk' hkpos' hk0 hkend
    obtain rfl : k = position.toNat := by omega
    exact hv

end Selection

/-- Three elements on the second of two ranks, the first with none. -/
theorem selection_finds_three :
    Yields 2 (fun r => selection 2 (if r = 1 then 3 else 0) (fun i => (i : ℚ)) 1) fun out =>
      ∃ v, (∀ r, r < 2 → out r = v) ∧ |v - 1| ≤ 2 / 2 ^ 40 := by
  have hsorted : sortedElements 2 (fun r => if r = 1 then 3 else 0) (fun _ i => (i : ℚ)) =
      [0, 1, 2] := by
    decide +kernel
  have hall : {e | e ∈ allElements 2 (fun r => if r = 1 then 3 else 0) fun _ i => (i : ℚ)} =
      {0, 1, 2} := by
    have hlist : allElements 2 (fun r => if r = 1 then 3 else 0) (fun _ i => (i : ℚ)) =
        [0, 1, 2] := by
      decide +kernel
    ext e
    simp [hlist]
  have hlimits : ∀ r, r < 2 → ∀ i : Nat, i < (if r = 1 then 3 else 0) →
      -refDblMax ℚ ≤ i ∧ (i : ℚ) ≤ refDblMax ℚ := by
    intro r hr i hi
    have hthree : i ≤ 3 := by
      split at hi <;> omega
    have hle : (i : ℚ) ≤ 3 := by exact_mod_cast hthree
    have hnonneg : (0 : ℚ) ≤ i := Nat.cast_nonneg i
    have hneg : -refDblMax ℚ ≤ 0 := by norm_num [refDblMax]
    exact ⟨hneg.trans hnonneg, hle.trans (by norm_num [refDblMax])⟩
  have hfinds := selection_finds ⟨1, by decide, by decide⟩ hlimits 1
  refine ⟨hfinds.1, fun out hruns => ?_⟩
  obtain ⟨v, hout, -, -, hmiddle⟩ := hfinds.2 out hruns
  refine ⟨v, hout, ?_⟩
  rw [hall] at hmiddle
  have hnear := hmiddle 1 (by rw [hsorted]; decide) rfl (by decide) (by rw [hsorted]; decide) 0 2
    ⟨by simp, by simp [lowerBounds]⟩ ⟨by simp, by simp [upperBounds]⟩
  simpa [hsorted] using hnear

end RefineMesh
