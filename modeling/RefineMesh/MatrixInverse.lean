import Mathlib.Tactic
import Mathlib.LinearAlgebra.Matrix.NonsingularInverse
import RefineMesh.ArrayLoops
import RefineMesh.LinearSolve

/-!
# The inverse of `ref_matrix_inv_gen`

The elimination runs on the matrix and on the inverse side by side; the two are
the halves of one table, and the right half ends as the solutions for the
columns of the identity.
-/

namespace RefineMesh

open LinearRows ArrayLoop

-- the numerals of the axes
local instance neZero_three_inverse : NeZero 3 := ⟨by decide⟩
local instance neZero_six_inverse : NeZero 6 := ⟨by decide⟩

section Inverse

variable {K : Type}

/-- The exchange of rows in both tables. -/
def swapBoth (n j best : Nat) (s : Table K × Table K) : Table K × Table K :=
  (List.range' 0 n).foldl (fun s k =>
    let temp := s.1 j k
    let a := (s.1.set j k (s.1 best k)).set best k temp
    let temp := s.2 j k
    let inv := (s.2.set j k (s.2 best k)).set best k temp
    (a, inv)) s

variable [Field K] [LinearOrder K]

/-- The best lower row. -/
def bestRow (n j : Nat) (a : Table K) : Nat :=
  (List.range' (j + 1) (n - (j + 1))).foldl (fun best k => if |a best j| < |a k j| then k else best) j

/-- The loop that scales the row. -/
def scaleBoth (n j : Nat) (pivot : K) (s : Table K × Table K) :
    Except Status (Table K × Table K) :=
  (List.range' 0 n).foldlM (fun s k =>
    if ¬ mathDivisible (s.1 j k) pivot then .error .divZero
    else
      let a := s.1.set j k (s.1 j k / pivot)
      if ¬ mathDivisible (s.2 j k) pivot then .error .divZero
      else .ok (a, s.2.set j k (s.2 j k / pivot))) s

/-- The elimination of a row. -/
def clearRow (n j : Nat) (s : Table K × Table K) (i : Nat) : Except Status (Table K × Table K) :=
  if ¬ mathDivisible (s.1 i j) (s.1 j j) then .error .divZero
  else
    let scale := s.1 i j / s.1 j j
    let a := (List.range' 0 n).foldl (fun a k => a.set i k (a i k - scale * a j k)) s.1
    let inv := (List.range' 0 n).foldl (fun inv k => inv.set i k (inv i k - scale * inv j k)) s.2
    .ok (a, inv)

/-- A column of the elimination. -/
def invColumn (n : Nat) (s : Table K × Table K) (j : Nat) : Except Status (Table K × Table K) := do
  let best := bestRow n j s.1
  let s := if best ≠ j then swapBoth n j best s else s
  let pivot := s.1 j j
  let s ← scaleBoth n j pivot s
  let s ← (List.range' (j + 1) (n - (j + 1))).foldlM (clearRow n j) s
  (List.range j).foldlM (clearRow n j) s

/-- `ref_matrix_inv_gen`. -/
def invGen (n : Nat) (orig : Table K) : Except Status (Table K) := do
  let s ← (List.range n).foldlM (invColumn n) (orig, fun i j => if i = j then 1 else 0)
  .ok s.2

/-- `ref_matrix_m_full`. -/
def mFull (m : Fin 6 → K) : Table K
  | 0, 0 => m 0
  | 0, 1 => m 1
  | 0, 2 => m 2
  | 1, 0 => m 1
  | 1, 1 => m 3
  | 1, 2 => m 4
  | 2, 0 => m 2
  | 2, 1 => m 4
  | 2, 2 => m 5
  | _, _ => 0

/-- `ref_matrix_full_m`. -/
def fullM (full : Table K) : Fin 6 → K :=
  ![full 0 0, full 0 1, full 0 2, full 1 1, full 1 2, full 2 2]

/-- `ref_matrix_inv_m`. -/
def invM (m : Fin 6 → K) : Except Status (Fin 6 → K) := do
  let inv ← invGen 3 (mFull m)
  .ok (fullM inv)

/-! ## The two halves -/

/-- The two tables side by side. -/
def joined (n : Nat) (s : Table K × Table K) : Table K :=
  fun i k => if k < n then s.1 i k else s.2 i (k - n)

/-- The first columns are those of the identity. -/
def UnitColumns (d n : Nat) (a : Table K) : Prop :=
  ∀ k < d, ∀ i < n, a i k = if i = k then 1 else 0

theorem foldl_pair {α β γ : Type} (f : α → γ → α) (g : β → γ → β) (l : List γ) (s : α × β) :
    l.foldl (fun s k => (f s.1 k, g s.2 k)) s = (l.foldl f s.1, l.foldl g s.2) := by
  induction l generalizing s with
  | nil => rfl
  | cons k rest ih => exact ih _

omit [Field K] [LinearOrder K] in
theorem foldl_swap_apply {n p q : Nat} (a : Table K) (i k : Nat) :
    (List.range' 0 n).foldl (fun (a : Table K) k =>
        (a.set p k (a q k)).set q k (a p k)) a i k =
      if k < n then swapRows p q a i k else a i k := by
  rw [Table.foldl_columns
    (g := fun _ column i => if i = q then column p else if i = p then column q else column i)]
  · refine if_congr (by omega) ?_ rfl
    rw [swapRows]
    split_ifs <;> simp_all
  · intro a j i k
    rw [Table.set_apply, Table.set_apply]
    split_ifs <;> simp_all

omit [LinearOrder K] in
theorem foldl_clear_apply {n i j : Nat} (scale : K) (a : Table K) (r k : Nat) :
    (List.range' 0 n).foldl (fun (a : Table K) k => a.set i k (a i k - scale * a j k)) a r k =
      if k < n ∧ r = i then a i k - scale * a j k else a r k := by
  rw [Table.foldl_columns
    (g := fun _ column r => if r = i then column i - scale * column j else column r)]
  · by_cases hr : r = i <;> by_cases hk : k < n <;> simp [hr, hk]
  · intro a j' r k
    rw [Table.set_apply]
    split_ifs <;> simp_all

omit [Field K] [LinearOrder K] in
theorem swapBoth_apply (n j best : Nat) (s : Table K × Table K) (i k : Nat) :
    (swapBoth n j best s).1 i k = (if k < n then swapRows j best s.1 i k else s.1 i k) ∧
      (swapBoth n j best s).2 i k = if k < n then swapRows j best s.2 i k else s.2 i k := by
  have hpair : swapBoth n j best s = _ := foldl_pair
    (fun (a : Table K) k => (a.set j k (a best k)).set best k (a j k))
    (fun (inv : Table K) k => (inv.set j k (inv best k)).set best k (inv j k)) _ s
  rw [hpair]
  exact ⟨foldl_swap_apply s.1 i k, foldl_swap_apply s.2 i k⟩

omit [Field K] [LinearOrder K] in
theorem swapBoth_agree (n j best : Nat) (s : Table K × Table K) :
    Agree n (n + n) (joined n (swapBoth n j best s)) (swapRows j best (joined n s)) := by
  intro i _ k hk
  have hrow : swapRows j best (joined n s) i k =
      if k < n then swapRows j best s.1 i k else swapRows j best s.2 i (k - n) := by
    simp only [swapRows]
    split_ifs <;> simp [joined, *]
  rw [hrow, joined]
  by_cases hkn : k < n
  · rw [if_pos hkn, if_pos hkn, (swapBoth_apply n j best s i k).1, if_pos hkn]
  · rw [if_neg hkn, if_neg hkn, (swapBoth_apply n j best s i (k - n)).2, if_pos (by omega)]

theorem bestRow_mem {n j : Nat} (hj : j < n) (a : Table K) :
    j ≤ bestRow n j a ∧ bestRow n j a < n := by
  apply List.foldlRecOn (motive := fun best : Nat => j ≤ best ∧ best < n)
  · exact ⟨le_rfl, hj⟩
  · intro best hbest i hi
    have hrange := List.mem_range'_1.mp hi
    split
    · exact ⟨by omega, by omega⟩
    · exact hbest

theorem scaleBoth_spec [IsStrictOrderedRing K] {n j : Nat} {pivot : K} {s t : Table K × Table K} (hj : j < n)
    (hrun : scaleBoth n j pivot s = .ok t) :
    pivot ≠ 0 ∧ ∀ i k, t.1 i k = (if k < n then scaleRow j pivot s.1 i k else s.1 i k) ∧
      t.2 i k = if k < n then scaleRow j pivot s.2 i k else s.2 i k := by
  have hbody : (fun (s : Table K × Table K) k =>
      if ¬ mathDivisible (s.1 j k) pivot then (.error .divZero : Except Status _)
      else
        let a := s.1.set j k (s.1 j k / pivot)
        if ¬ mathDivisible (s.2 j k) pivot then .error .divZero
        else .ok (a, s.2.set j k (s.2 j k / pivot))) =
      fun s k => if ¬ (mathDivisible (s.1 j k) pivot ∧ mathDivisible (s.2 j k) pivot) then
          .error .divZero
        else .ok (s.1.set j k (s.1 j k / pivot), s.2.set j k (s.2 j k / pivot)) := by
    funext s k
    by_cases h1 : mathDivisible (s.1 j k) pivot <;> by_cases h2 : mathDivisible (s.2 j k) pivot <;>
      simp [h1, h2]
  rw [scaleBoth, hbody] at hrun
  obtain ⟨rfl, hguard⟩ := foldlM_guard hrun
  have hne : List.range' 0 n ≠ [] := by
    rw [Ne, List.range'_eq_nil_iff]
    omega
  obtain ⟨_, _, hdiv, _⟩ := hguard hne
  have hloop : ∀ (a : Table K) i k,
      (List.range' 0 n).foldl (fun (a : Table K) k => a.set j k (a j k / pivot)) a i k =
        if k < n then scaleRow j pivot a i k else a i k := by
    intro a i k
    rw [Table.foldl_columns (g := fun _ column i => if i = j then column i / pivot else column i)]
    · refine if_congr (by omega) ?_ rfl
      rw [scaleRow]
    · intro a j' i k
      rw [Table.set_apply]
      split_ifs <;> simp_all
  rw [foldl_pair (fun (a : Table K) k => a.set j k (a j k / pivot))
    (fun (inv : Table K) k => inv.set j k (inv j k / pivot))]
  exact ⟨hdiv.ne_zero, fun i k => ⟨hloop s.1 i k, hloop s.2 i k⟩⟩

theorem clearRow_spec {n i j : Nat} {s t : Table K × Table K}
    (hrun : clearRow n j s i = .ok t) :
    ∀ r k, t.1 r k = (if k < n ∧ r = i then s.1 i k - s.1 i j / s.1 j j * s.1 j k else s.1 r k) ∧
      t.2 r k = if k < n ∧ r = i then s.2 i k - s.1 i j / s.1 j j * s.2 j k else s.2 r k := by
  rw [clearRow] at hrun
  split_ifs at hrun with hdiv
  cases hrun
  exact fun r k => ⟨foldl_clear_apply _ s.1 r k, foldl_clear_apply _ s.2 r k⟩

/-- **The elimination of a row** keeps the kernel. -/
theorem clearRow_kernel {n i j : Nat} {s t : Table K × Table K} (hij : i ≠ j) (hj : j < n)
    (hrun : clearRow n j s i = .ok t) (y : Nat → K) :
    Kernel n (n + n) (joined n t) y ↔ Kernel n (n + n) (joined n s) y := by
  have hagree : Agree n (n + n) (joined n t)
      (clearRows j (fun r => if r = i then s.1 i j / s.1 j j else 0) (joined n s)) := by
    intro r _ k hk
    rw [clearRows]
    by_cases hkn : k < n
    · simp only [joined, if_pos hkn, (clearRow_spec hrun r k).1]
      by_cases hri : r = i
      · rw [if_pos ⟨hkn, hri⟩, if_neg (hri ▸ hij), if_pos hri, hri, mul_comm]
      · rw [if_neg fun h => hri h.2, if_neg hri, mul_zero, sub_zero, ite_self]
    · simp only [joined, if_neg hkn, (clearRow_spec hrun r (k - n)).2]
      by_cases hri : r = i
      · rw [if_pos ⟨by omega, hri⟩, if_neg (hri ▸ hij), if_pos hri, hri, mul_comm]
      · rw [if_neg fun h => hri h.2, if_neg hri, mul_zero, sub_zero, ite_self]
  rw [Kernel.congr hagree, kernel_clearRows hj]

/-- What the loops over the rows keep, and what they clear. -/
structure Cleared (n j : Nat) (s t : Table K × Table K) (done : List Nat) : Prop where
  kernel : ∀ y, Kernel n (n + n) (joined n t) y ↔ Kernel n (n + n) (joined n s) y
  reduced : UnitColumns j n t.1
  pivot : t.1 j j = 1
  pivotRow : ∀ k < j, t.1 j k = 0
  clear : ∀ i ∈ done, t.1 i j = 0

theorem Cleared.step {n i j : Nat} {s t u : Table K × Table K} {done : List Nat} (hij : i ≠ j)
    (hin : i < n) (hj : j < n) (h : Cleared n j s t done) (hrun : clearRow n j t i = .ok u) :
    Cleared n j s u (done ++ [i]) := by
  have hspec := fun r k => (clearRow_spec hrun r k).1
  have hpivot := h.pivot
  refine ⟨fun y => (clearRow_kernel hij hj hrun y).trans (h.kernel y), fun k hk r hr => ?_, ?_,
    fun k hk => ?_, fun r hr => ?_⟩
  · rw [hspec]
    by_cases hri : r = i
    · rw [if_pos ⟨by omega, hri⟩, h.pivotRow k hk, mul_zero, sub_zero, hri]
      exact h.reduced k hk i hin
    · rw [if_neg fun h => hri h.2]
      exact h.reduced k hk r hr
  · rw [hspec, if_neg fun h => hij h.2.symm]
    exact hpivot
  · rw [hspec, if_neg fun h => hij h.2.symm]
    exact h.pivotRow k hk
  · rw [hspec]
    by_cases hri : r = i
    · rw [if_pos ⟨hj, hri⟩, hpivot, div_one, mul_one, sub_self]
    · rw [if_neg fun h => hri h.2]
      exact h.clear r ((List.mem_append.mp hr).resolve_right fun h => hri (List.mem_singleton.mp h))

theorem Cleared.rows {n j : Nat} {s t u : Table K × Table K} {done rows : List Nat}
    (hrows : ∀ i ∈ rows, i ≠ j ∧ i < n) (hj : j < n) (h : Cleared n j s t done)
    (hrun : rows.foldlM (clearRow n j) t = .ok u) : Cleared n j s u (done ++ rows) := by
  induction rows generalizing t done with
  | nil =>
      cases hrun
      rwa [List.append_nil]
  | cons i rest ih =>
      obtain ⟨t', hstep, hrest⟩ := bind_eq_ok.mp ((List.foldlM_cons ..).symm.trans hrun)
      obtain ⟨hij, hin⟩ := hrows i List.mem_cons_self
      have hnext := ih (fun r hr => hrows r (List.mem_cons_of_mem i hr))
        (h.step hij hin hj hstep) hrest
      rwa [List.append_assoc, List.singleton_append] at hnext

variable [IsStrictOrderedRing K]

/-- **A column of the elimination** on both tables. -/
theorem invColumn_spec {n j : Nat} (hj : j < n) {s t : Table K × Table K}
    (hred : UnitColumns j n s.1) (hrun : invColumn n s j = .ok t) :
    UnitColumns (j + 1) n t.1 ∧
      ∀ y, Kernel n (n + n) (joined n t) y ↔ Kernel n (n + n) (joined n s) y := by
  obtain ⟨t₁, hscale, hrest⟩ := bind_eq_ok.mp hrun
  obtain ⟨t₂, hlower, hupper⟩ := bind_eq_ok.mp hrest
  obtain ⟨hbest, hbestn⟩ := bestRow_mem hj s.1
  generalize bestRow n j s.1 = best at hbest hbestn hscale
  -- the tables after the exchange
  generalize hswap : (if best ≠ j then swapBoth n j best s else s) = s₁ at hscale
  have hkernel₁ : ∀ y, Kernel n (n + n) (joined n s₁) y ↔ Kernel n (n + n) (joined n s) y := by
    intro y
    rw [← hswap]
    split_ifs
    · rw [Kernel.congr (swapBoth_agree n j best s), kernel_swapRows hj hbestn]
    · rfl
  have hred₁ : UnitColumns j n s₁.1 := by
    intro k hk i hi
    rw [← hswap]
    by_cases hne : best ≠ j
    · rw [if_pos hne, (swapBoth_apply n j best s i k).1, if_pos (by omega), swapRows]
      by_cases hij : i = j
      · rw [if_pos hij, hred k hk best hbestn, if_neg (by omega), if_neg (by omega)]
      · rw [if_neg hij]
        by_cases hib : i = best
        · rw [if_pos hib, hred k hk j hj, if_neg (by omega), if_neg (by omega)]
        · rw [if_neg hib]
          exact hred k hk i hi
    · rw [if_neg hne]
      exact hred k hk i hi
  obtain ⟨hpivot, hscaled⟩ := scaleBoth_spec hj hscale
  have hagree : Agree n (n + n) (joined n t₁) (scaleRow j (s₁.1 j j) (joined n s₁)) := by
    intro i _ k hk
    have hrow : scaleRow j (s₁.1 j j) (joined n s₁) i k =
        if k < n then scaleRow j (s₁.1 j j) s₁.1 i k else scaleRow j (s₁.1 j j) s₁.2 i (k - n) := by
      simp only [scaleRow]
      split_ifs <;> simp [joined, *]
    rw [hrow, joined]
    by_cases hkn : k < n
    · rw [if_pos hkn, if_pos hkn, (hscaled i k).1, if_pos hkn]
    · rw [if_neg hkn, if_neg hkn, (hscaled i (k - n)).2, if_pos (by omega)]
  have hred₂ : UnitColumns j n t₁.1 := by
    intro k hk i hi
    rw [(hscaled i k).1, if_pos (by omega), scaleRow]
    by_cases hij : i = j
    · rw [if_pos hij, hred₁ k hk i hi, if_neg (by omega), zero_div]
    · rw [if_neg hij]
      exact hred₁ k hk i hi
  have hone : t₁.1 j j = 1 := by
    rw [(hscaled j j).1, if_pos hj, scaleRow, if_pos rfl, div_self hpivot]
  have hstart : Cleared n j s t₁ [] := by
    refine ⟨fun y => ?_, hred₂, hone, fun k hk => ?_, fun i hi => by cases hi⟩
    · rw [Kernel.congr hagree, kernel_scaleRow hpivot]
      exact hkernel₁ y
    · rw [hred₂ k hk j hj, if_neg (by omega)]
  have hlow := hstart.rows (fun i hi => by have := List.mem_range'_1.mp hi; omega) hj hlower
  have hall := hlow.rows (fun i hi => by have := List.mem_range.mp hi; omega) hj hupper
  refine ⟨fun k hk i hi => ?_, hall.kernel⟩
  rcases Nat.lt_succ_iff_lt_or_eq.mp hk with hkj | rfl
  · exact hall.reduced k hkj i hi
  · by_cases hik : i = k
    · rw [hik, if_pos rfl, hall.pivot]
    · rw [if_neg hik]
      apply hall.clear
      rw [List.nil_append, List.mem_append, List.mem_range'_1, List.mem_range]
      omega

theorem invColumns_spec {n : Nat} {start t : Table K × Table K}
    (hrun : (List.range n).foldlM (invColumn n) start = .ok t) :
    UnitColumns n n t.1 ∧
      ∀ y, Kernel n (n + n) (joined n t) y ↔ Kernel n (n + n) (joined n start) y := by
  refine foldlM_range (fun d s => UnitColumns d n s.1 ∧
    ∀ y, Kernel n (n + n) (joined n s) y ↔ Kernel n (n + n) (joined n start) y)
      (fun j hj s s' h hstep => ?_) ⟨fun k hk => absurd hk (Nat.not_lt_zero k), fun _ => Iff.rfl⟩ hrun
  obtain ⟨hred, hkernel⟩ := invColumn_spec hj h.1 hstep
  exact ⟨hred, fun y => (hkernel y).trans (h.2 y)⟩

/-! ## The inverse -/

/-- The first rows and columns of a table. -/
def toMatrix (n : Nat) (a : Table K) : Matrix (Fin n) (Fin n) K := Matrix.of fun i j => a i j

/-- **The inverse.** -/
theorem invGen_mul {n : Nat} {orig inv : Table K} (hrun : invGen n orig = .ok inv) :
    toMatrix n orig * toMatrix n inv = 1 ∧ toMatrix n inv * toMatrix n orig = 1 := by
  obtain ⟨t, hloop, hdone⟩ := bind_eq_ok.mp hrun
  cases hdone
  obtain ⟨hred, hkernel⟩ := invColumns_spec hloop
  have hmul : toMatrix n orig * toMatrix n t.2 = 1 := by
    funext i c
    -- a column of the inverse solves the reduced equations, hence those of the start
    have hreduced : Solves n (joined n t) (n + c) fun k => t.2 k c := by
      intro r hr
      rw [Finset.sum_eq_single r]
      · rw [joined, if_pos hr, hred r hr r hr, if_pos rfl, one_mul, joined, if_neg (by omega),
          Nat.add_sub_cancel_left]
      · intro k hk hkr
        have hkn := Finset.mem_range.mp hk
        rw [joined, if_pos hkn, hred k hkn r hr, if_neg (Ne.symm hkr), zero_mul]
      · exact fun hnot => absurd (Finset.mem_range.mpr hr) hnot
    have hsolve := hreduced.of_kernel hkernel (Nat.le_add_right _ _) (by omega) i i.isLt
    rw [joined, if_neg (by omega), Nat.add_sub_cancel_left] at hsolve
    rw [Matrix.mul_apply, Matrix.one_apply]
    calc ∑ k : Fin n, toMatrix n orig i k * toMatrix n t.2 k c
        = ∑ k ∈ Finset.range n, joined n (orig, fun i j => if i = j then 1 else 0) i k * t.2 k c := by
          rw [Finset.sum_range]
          refine Finset.sum_congr rfl fun k _ => ?_
          rw [joined, if_pos k.isLt]
          rfl
      _ = if i = c then 1 else 0 := by
          rw [hsolve]
          exact if_congr Fin.val_inj rfl rfl
  exact ⟨hmul, mul_eq_one_comm.mp hmul⟩

omit [IsStrictOrderedRing K] in
theorem scaleBoth_error {n j : Nat} {pivot : K} {s : Table K × Table K} {e : Status}
    (hrun : scaleBoth n j pivot s = .error e) : e = .divZero := by
  obtain ⟨_, _, -, hentry⟩ := exists_mem_of_foldlM_error hrun
  dsimp only at hentry
  split_ifs at hentry <;> exact (Except.error.inj hentry).symm

omit [IsStrictOrderedRing K] in
theorem clearRow_error {n j i : Nat} {s : Table K × Table K} {e : Status}
    (hrun : clearRow n j s i = .error e) : e = .divZero := by
  rw [clearRow] at hrun
  split_ifs at hrun
  exact (Except.error.inj hrun).symm

omit [IsStrictOrderedRing K] in
/-- The inverse fails only in a division. -/
theorem invGen_error {n : Nat} {orig : Table K} {e : Status} (hrun : invGen n orig = .error e) :
    e = .divZero := by
  rcases bind_eq_error.mp hrun with hloop | ⟨_, -, hdone⟩
  · obtain ⟨s, j, -, hcolumn⟩ := exists_mem_of_foldlM_error hloop
    rcases bind_eq_error.mp hcolumn with hscale | ⟨_, -, hrest⟩
    · exact scaleBoth_error hscale
    · rcases bind_eq_error.mp hrest with hbelow | ⟨_, -, habove⟩
      · obtain ⟨_, _, -, hrow⟩ := exists_mem_of_foldlM_error hbelow
        exact clearRow_error hrow
      · obtain ⟨_, _, -, hrow⟩ := exists_mem_of_foldlM_error habove
        exact clearRow_error hrow
  · cases hdone

/-- **The inverse** is one on both sides, or the matrix is refused with
`REF_DIV_ZERO`. -/
theorem invGen_spec (n : Nat) (orig : Table K) :
    (∃ inv, invGen n orig = .ok inv ∧ toMatrix n orig * toMatrix n inv = 1 ∧
      toMatrix n inv * toMatrix n orig = 1) ∨
    invGen n orig = .error .divZero := by
  rcases hrun : invGen n orig with e | inv
  · rw [invGen_error hrun]
    exact Or.inr rfl
  · exact Or.inl ⟨inv, rfl, invGen_mul hrun⟩

theorem invGen_spec_pair : ∃ inv, invGen 2 (fun i j => if i = j then (2 : ℚ) else 1) = .ok inv ∧
    toMatrix 2 (fun i j => if i = j then (2 : ℚ) else 1) * toMatrix 2 inv = 1 := by
  have hsome : (invGen 2 fun i j => if i = j then (2 : ℚ) else 1).toOption.isSome = true := by
    decide +kernel
  rcases invGen_spec 2 fun i j => if i = j then (2 : ℚ) else 1 with ⟨inv, hok, hmul, -⟩ | hfail
  · exact ⟨inv, hok, hmul⟩
  · rw [hfail] at hsome
    cases hsome

/-- The inverse of a symmetric matrix, by its upper triangle. -/
theorem invM_mul {m w : Fin 6 → K} (hrun : invM m = .ok w) :
    toMatrix 3 (mFull m) * toMatrix 3 (mFull w) = 1 := by
  obtain ⟨inv, hinv, hdone⟩ := bind_eq_ok.mp hrun
  cases hdone
  obtain ⟨hmul, hmul'⟩ := invGen_mul hinv
  have hsymm : (toMatrix 3 (mFull m)).transpose = toMatrix 3 (mFull m) := by
    funext i j
    fin_cases i <;> fin_cases j <;> rfl
  have hinvsymm : (toMatrix 3 inv).transpose = toMatrix 3 inv := by
    have htrans : toMatrix 3 (mFull m) * (toMatrix 3 inv).transpose = 1 := by
      rw [← hsymm, ← Matrix.transpose_mul, hmul', Matrix.transpose_one]
    calc (toMatrix 3 inv).transpose
        = toMatrix 3 inv * toMatrix 3 (mFull m) * (toMatrix 3 inv).transpose := by
          rw [hmul', one_mul]
      _ = toMatrix 3 inv := by rw [mul_assoc, htrans, mul_one]
  have hfull : toMatrix 3 (mFull (fullM inv)) = toMatrix 3 inv := by
    funext i j
    have hij := congrFun (congrFun hinvsymm i) j
    fin_cases i <;> fin_cases j <;> first | rfl | exact hij
  rw [hfull, hmul]

end Inverse

end RefineMesh
