import Mathlib.Tactic
import RefineMesh.ArrayLoops
import RefineMesh.LinearSolve

/-!
# The factors of `ref_matrix_qr`

The columns are made orthogonal one after the other: the coefficients come from
the columns of the given matrix, and what is left of a column after all the
columns before it is scaled to length one.
-/

namespace RefineMesh

open LinearRows ArrayLoop

section Factors

variable {K : Type} [Field K] [LinearOrder K]

/-- The first two loops of a column: the length of what is left. -/
def columnNorm [ExactSqrt K] (m k : Nat) (q r : Table K) : Table K :=
  let r := (List.range m).foldl (fun r i => r.set k k (r k k + q i k * q i k)) r
  r.set k k (ExactSqrt.sqrt (r k k))

/-- The loop that scales the column. -/
def scaleColumn (m k : Nat) (r q : Table K) : Except Status (Table K) :=
  (List.range m).foldlM (fun q i =>
    if ¬ mathDivisible (q i k) (r k k) then .error .divZero
    else .ok (q.set i k (q i k / r k k))) q

/-- The loops that take the column out of a later one. -/
def projectColumn (m k : Nat) (a : Table K) (s : Table K × Table K) (j : Nat) :
    Table K × Table K :=
  let r := (List.range m).foldl (fun r i => r.set k j (r k j + a i j * s.1 i k)) s.2
  let q := (List.range m).foldl (fun q i => q.set i j (q i j - r k j * q i k)) s.1
  (q, r)

/-- A column of the factors `q` and `r`. -/
def qrColumn [ExactSqrt K] (m n : Nat) (a : Table K) (s : Table K × Table K) (k : Nat) :
    Except Status (Table K × Table K) := do
  let r := columnNorm m k s.1 s.2
  let q ← scaleColumn m k r s.1
  .ok ((List.range' (k + 1) (n - (k + 1))).foldl (projectColumn m k a) (q, r))

/-- `ref_matrix_qr`. -/
def qrFactor [ExactSqrt K] (m n : Nat) (a : Table K) : Except Status (Table K × Table K) :=
  (List.range n).foldlM (qrColumn m n a) (a, fun _ _ => 0)

end Factors

/-! ## The loops -/

section Loops

variable {K : Type}

/-- A loop over rows that rewrites each from its own entries. -/
theorem Table.foldl_rows {f : Table K → Nat → Table K} {g : Nat → (Nat → K) → Nat → K}
    (hf : ∀ a i i' k, f a i i' k = if i' = i then g i (a i) k else a i' k) (m : Nat) (a : Table K)
    (i k : Nat) :
    (List.range m).foldl f a i k = if i < m then g i (a i) k else a i k := by
  induction m generalizing i k with
  | zero => rfl
  | succ m ih =>
      rw [List.range_succ, List.foldl_append, List.foldl_cons, List.foldl_nil, hf]
      by_cases hi : i = m
      · subst hi
        rw [if_pos rfl, if_pos (Nat.lt_succ_self i)]
        congr 1
        funext k
        rw [ih, if_neg (Nat.lt_irrefl i)]
      · rw [if_neg hi, ih]
        exact if_congr (by omega) rfl rfl

variable [Field K]

/-- The product of two columns, in the first `m` rows. -/
def colDot (m : Nat) (a b : Table K) (j l : Nat) : K := ∑ i ∈ Finset.range m, a i j * b i l

theorem foldl_accumulate (m p c : Nat) (f : Nat → K) (r : Table K) :
    (List.range m).foldl (fun (r : Table K) i => r.set p c (r p c + f i)) r =
      r.set p c (r p c + ∑ i ∈ Finset.range m, f i) := by
  induction m with
  | zero =>
      funext i k
      rw [Finset.range_zero, Finset.sum_empty, add_zero, Table.set_apply]
      split_ifs with h
      · rw [h.1, h.2]; rfl
      · rfl
  | succ m ih =>
      rw [List.range_succ, List.foldl_append, List.foldl_cons, List.foldl_nil, ih,
        Finset.sum_range_succ]
      funext i k
      simp only [Table.set_apply, and_self, if_true, add_assoc]
      split_ifs <;> rfl

theorem columnNorm_apply [LinearOrder K] [ExactSqrt K] (m k : Nat) (q r : Table K) (i j : Nat) :
    columnNorm m k q r i j =
      if i = k ∧ j = k then ExactSqrt.sqrt (r k k + colDot m q q k k) else r i j := by
  rw [columnNorm, foldl_accumulate]
  simp only [Table.set_apply, and_self, if_true, colDot]
  split_ifs <;> rfl

theorem projectColumn_apply (m k : Nat) (a : Table K) (s : Table K × Table K)
    (j i c : Nat) :
    (projectColumn m k a s j).1 i c =
        (if i < m ∧ c = j then s.1 i j - (s.2 k j + colDot m a s.1 j k) * s.1 i k else s.1 i c) ∧
      (projectColumn m k a s j).2 i c =
        if i = k ∧ c = j then s.2 k j + colDot m a s.1 j k else s.2 i c := by
  simp only [projectColumn, foldl_accumulate, Table.set_apply, and_self, if_true]
  refine ⟨?_, ?_⟩
  · rw [Table.foldl_rows (g := fun _ row c =>
      if c = j then row j - (s.2 k j + ∑ i ∈ Finset.range m, a i j * s.1 i k) * row k else row c)]
    · by_cases hi : i < m <;> by_cases hc : c = j <;> simp [hi, hc, colDot]
    · intro q i i' c
      rw [Table.set_apply]
      split_ifs <;> simp_all
  · rfl

/-- The loops over the later columns. -/
theorem projectColumns_apply (m k : Nat) (a : Table K) (len : Nat) (s : Table K × Table K)
    (i c : Nat) :
    ((List.range' (k + 1) len).foldl (projectColumn m k a) s).1 i c =
        (if i < m ∧ k < c ∧ c ≤ k + len then
          s.1 i c - (s.2 k c + colDot m a s.1 c k) * s.1 i k else s.1 i c) ∧
      ((List.range' (k + 1) len).foldl (projectColumn m k a) s).2 i c =
        if i = k ∧ k < c ∧ c ≤ k + len then s.2 k c + colDot m a s.1 c k else s.2 i c := by
  induction len generalizing i c with
  | zero =>
      rw [if_neg (by omega), if_neg (by omega)]
      exact ⟨rfl, rfl⟩
  | succ len ih =>
      rw [List.range'_1_concat, List.foldl_append, List.foldl_cons, List.foldl_nil]
      generalize hs' : (List.range' (k + 1) len).foldl (projectColumn m k a) s = s' at ih
      obtain ⟨hq, hr⟩ := projectColumn_apply m k a s' (k + 1 + len) i c
      rw [hq, hr]
      by_cases hc : c = k + 1 + len
      · subst hc
        -- the column of the step and the finished one are as before the loops
        have hlast : ∀ i, s'.1 i (k + 1 + len) = s.1 i (k + 1 + len) := fun i => by
          rw [(ih i _).1, if_neg (by omega)]
        have hdone : ∀ i, s'.1 i k = s.1 i k := fun i => by
          rw [(ih i _).1, if_neg (by omega)]
        have hcoef : s'.2 k (k + 1 + len) = s.2 k (k + 1 + len) := by
          rw [(ih k _).2, if_neg (by omega)]
        have hdot : colDot m a s'.1 (k + 1 + len) k = colDot m a s.1 (k + 1 + len) k :=
          Finset.sum_congr rfl fun i _ => by rw [hdone]
        have hother : s'.2 i (k + 1 + len) = s.2 i (k + 1 + len) := by
          rw [(ih i _).2, if_neg (by omega)]
        refine ⟨?_, ?_⟩
        · rw [hlast, hdone, hcoef, hdot]
          exact if_congr (by omega) rfl rfl
        · rw [hcoef, hdot, hother]
          exact if_congr (by omega) rfl rfl
      · refine ⟨(if_neg fun h => hc h.2).trans ?_, (if_neg fun h => hc h.2).trans ?_⟩
        · rw [(ih i c).1]
          exact if_congr (by omega) rfl rfl
        · rw [(ih i c).2]
          exact if_congr (by omega) rfl rfl

variable [LinearOrder K] [IsStrictOrderedRing K]

theorem scaleColumn_spec {m k : Nat} {r q out : Table K} (hm : 0 < m)
    (hrun : scaleColumn m k r q = .ok out) :
    r k k ≠ 0 ∧ ∀ i c, out i c = if i < m ∧ c = k then q i k / r k k else q i c := by
  obtain ⟨rfl, hguard⟩ := foldlM_guard hrun
  have hne : List.range m ≠ [] := by
    rw [Ne, List.range_eq_nil]
    omega
  obtain ⟨_, _, hdiv⟩ := hguard hne
  refine ⟨hdiv.ne_zero, fun i c => ?_⟩
  rw [Table.foldl_rows (g := fun _ row c => if c = k then row k / r k k else row c)]
  · by_cases hi : i < m <;> by_cases hc : c = k <;> simp [hi, hc]
  · intro q i i' c
    rw [Table.set_apply]
    split_ifs <;> simp_all

end Loops

/-! ## The factors -/

section Orthogonal

variable {K : Type} [Field K]

/-- The factors after `d` columns. -/
structure QrInv [LinearOrder K] (m n d : Nat) (a q r : Table K) : Prop where
  orth : ∀ l < d, ∀ l' < d, colDot m q q l l' = if l = l' then 1 else 0
  coef : ∀ l < d, ∀ j < n, l < j → r l j = colDot m a q j l
  rest : ∀ j < n, d ≤ j → ∀ i < m, q i j = a i j - ∑ l ∈ Finset.range d, r l j * q i l
  factor : ∀ j < d, ∀ i < m, a i j = ∑ l ∈ Finset.range (j + 1), r l j * q i l
  upper : ∀ l j, j < l ∨ d ≤ l → r l j = 0
  pos : ∀ l < d, 0 < r l l

theorem colDot_comm (m : Nat) (a b : Table K) (j l : Nat) : colDot m a b j l = colDot m b a l j :=
  Finset.sum_congr rfl fun _ _ => mul_comm _ _

/-- The product with what is left of a column. -/
theorem colDot_rest {m d j l : Nat} {a q r : Table K}
    (hrest : ∀ i < m, q i j = a i j - ∑ l ∈ Finset.range d, r l j * q i l) :
    colDot m q q j l = colDot m a q j l - ∑ k ∈ Finset.range d, r k j * colDot m q q k l := by
  calc colDot m q q j l
      = ∑ i ∈ Finset.range m, (a i j - ∑ k ∈ Finset.range d, r k j * q i k) * q i l :=
        Finset.sum_congr rfl fun i hi => by rw [hrest i (Finset.mem_range.mp hi)]
    _ = colDot m a q j l - ∑ i ∈ Finset.range m, ∑ k ∈ Finset.range d, r k j * q i k * q i l := by
        simp only [sub_mul, Finset.sum_sub_distrib, Finset.sum_mul, colDot]
    _ = colDot m a q j l - ∑ k ∈ Finset.range d, r k j * colDot m q q k l := by
        rw [Finset.sum_comm]
        simp only [colDot, Finset.mul_sum, mul_assoc]

variable [LinearOrder K]

/-- What is left of a column is orthogonal to the columns before. -/
theorem QrInv.rest_orth {m n d j l : Nat} {a q r : Table K} (h : QrInv m n d a q r) (hj : j < n)
    (hdj : d ≤ j) (hl : l < d) : colDot m q q j l = 0 := by
  rw [colDot_rest (h.rest j hj hdj), ← h.coef l hl j hj (by omega),
    Finset.sum_eq_single l, h.orth l hl l hl, if_pos rfl, mul_one, sub_self]
  · intro k hk hkl
    rw [h.orth k (Finset.mem_range.mp hk) l hl, if_neg hkl, mul_zero]
  · exact fun hnot => absurd (Finset.mem_range.mpr hl) hnot

variable [IsStrictOrderedRing K]

/-- **A column of the factors** keeps the invariant. -/
theorem qrColumn_inv [ExactSqrt K] {m n k : Nat} (hm : 0 < m) (hk : k < n) {a : Table K}
    {s t : Table K × Table K} (h : QrInv m n k a s.1 s.2) (hrun : qrColumn m n a s k = .ok t) :
    QrInv m n (k + 1) a t.1 t.2 := by
  obtain ⟨q, hscale, hdone⟩ := bind_eq_ok.mp hrun
  cases hdone
  obtain ⟨hrho, hq⟩ := scaleColumn_spec hm hscale
  have hloop := projectColumns_apply m k a (n - (k + 1)) (q, columnNorm m k s.1 s.2)
  have hr := columnNorm_apply m k s.1 s.2
  generalize columnNorm m k s.1 s.2 = r at hrho hq hloop hr
  generalize (List.range' (k + 1) (n - (k + 1))).foldl (projectColumn m k a) (q, r) = t at hloop ⊢
  dsimp only at hloop
  -- the length of what is left
  have hsquare : r k k * r k k = colDot m s.1 s.1 k k := by
    rw [hr, if_pos ⟨rfl, rfl⟩, h.upper k k (Or.inr le_rfl), zero_add]
    exact ExactSqrt.sqrt_mul_self _ (Finset.sum_nonneg fun i _ => mul_self_nonneg _)
  have hpos : 0 < r k k := by
    refine lt_of_le_of_ne ?_ hrho.symm
    rw [hr, if_pos ⟨rfl, rfl⟩]
    exact ExactSqrt.sqrt_nonneg _
  -- the columns of `q`
  have hold : ∀ i c, c < k → t.1 i c = s.1 i c := fun i c hc => by
    rw [(hloop i c).1, if_neg (by omega), hq, if_neg (by omega)]
  have hdone : ∀ i, t.1 i k = q i k := fun i => by
    rw [(hloop i k).1, if_neg (by omega)]
  have hnew : ∀ i < m, t.1 i k = s.1 i k / r k k := fun i hi => by
    rw [hdone, hq, if_pos ⟨hi, rfl⟩]
  have hdot : ∀ j, colDot m a q j k = colDot m a t.1 j k := fun j =>
    Finset.sum_congr rfl fun i _ => by rw [hdone]
  -- the rows of `r`
  have hrow : ∀ l j, l ≠ k → t.2 l j = s.2 l j := fun l j hl => by
    rw [(hloop l j).2, if_neg fun h => hl h.1, hr, if_neg fun h => hl h.1]
  have hdiag : t.2 k k = r k k := by
    rw [(hloop k k).2, if_neg (by omega)]
  have hcoef : ∀ j < n, k < j → t.2 k j = colDot m a t.1 j k := fun j hj hkj => by
    rw [(hloop k j).2, if_pos ⟨rfl, hkj, by omega⟩, hr, if_neg fun h => by omega,
      h.upper k j (Or.inr le_rfl), zero_add]
    exact hdot j
  have hlater : ∀ j < n, k < j → ∀ i < m, t.1 i j = s.1 i j - t.2 k j * t.1 i k :=
    fun j hj hkj i hi => by
      rw [hcoef j hj hkj, (hloop i j).1, if_pos ⟨hi, hkj, by omega⟩, hq, if_neg (by omega), hdone, hr,
        if_neg fun h => by omega, h.upper k j (Or.inr le_rfl), zero_add, hdot]
  have hdots : ∀ l j, l < k → j < k → colDot m t.1 t.1 l j = colDot m s.1 s.1 l j :=
    fun l j hl hj => Finset.sum_congr rfl fun i _ => by rw [hold i l hl, hold i j hj]
  have hcross : ∀ l < k, colDot m t.1 t.1 k l = 0 := by
    intro l hl
    have hsum : colDot m t.1 t.1 k l = colDot m s.1 s.1 k l / r k k := by
      rw [colDot, colDot, Finset.sum_div]
      refine Finset.sum_congr rfl fun i hi => ?_
      rw [hnew i (Finset.mem_range.mp hi), hold i l hl, div_mul_eq_mul_div]
    rw [hsum, h.rest_orth hk le_rfl hl, zero_div]
  have hself : colDot m t.1 t.1 k k = 1 := by
    have hsum : colDot m t.1 t.1 k k = colDot m s.1 s.1 k k / (r k k * r k k) := by
      rw [colDot, colDot, Finset.sum_div]
      refine Finset.sum_congr rfl fun i hi => ?_
      rw [hnew i (Finset.mem_range.mp hi), div_mul_div_comm]
    rw [hsum, hsquare, div_self]
    rw [← hsquare]
    exact mul_ne_zero hrho hrho
  -- the sums over the columns before the new one
  have hbefore : ∀ j i, ∑ l ∈ Finset.range k, t.2 l j * t.1 i l =
      ∑ l ∈ Finset.range k, s.2 l j * s.1 i l := fun j i =>
    Finset.sum_congr rfl fun l hl => by
      have hlk := Finset.mem_range.mp hl
      rw [hrow l j hlk.ne, hold i l hlk]
  refine ⟨fun l hl l' hl' => ?_, fun l hl j hj hlj => ?_, fun j hj hkj i hi => ?_,
    fun j hj i hi => ?_, fun l j hlj => ?_, fun l hl => ?_⟩
  · rcases Nat.lt_succ_iff_lt_or_eq.mp hl with hlk | rfl <;>
      rcases Nat.lt_succ_iff_lt_or_eq.mp hl' with hlk' | rfl
    · rw [hdots l l' hlk hlk']
      exact h.orth l hlk l' hlk'
    · rw [colDot_comm, hcross l hlk, if_neg (by omega)]
    · rw [hcross l' hlk', if_neg (by omega)]
    · rw [hself, if_pos rfl]
  · rcases Nat.lt_succ_iff_lt_or_eq.mp hl with hlk | rfl
    · rw [hrow l j hlk.ne, h.coef l hlk j hj hlj]
      exact Finset.sum_congr rfl fun i _ => by rw [hold i l hlk]
    · exact hcoef j hj hlj
  · rw [Finset.sum_range_succ, hbefore, hlater j hj (by omega) i hi,
      h.rest j hj (by omega) i hi, sub_sub]
  · rcases Nat.lt_succ_iff_lt_or_eq.mp hj with hjk | rfl
    · rw [h.factor j hjk i hi]
      refine Finset.sum_congr rfl fun l hl => ?_
      have hlj := Finset.mem_range.mp hl
      rw [hrow l j (by omega), hold i l (by omega)]
    · rw [Finset.sum_range_succ, hbefore, hdiag, hnew i hi, mul_div_cancel₀ _ hrho,
        h.rest j hk le_rfl i hi, add_sub_cancel]
  · by_cases hlk : l = k
    · subst hlk
      rw [(hloop l j).2, if_neg (by omega), hr, if_neg (by omega)]
      exact h.upper l j (Or.inr le_rfl)
    · rw [hrow l j hlk]
      exact h.upper l j (by omega)
  · rcases Nat.lt_succ_iff_lt_or_eq.mp hl with hlk | rfl
    · rw [hrow l l hlk.ne]
      exact h.pos l hlk
    · rw [hdiag]
      exact hpos

/-- The columns of a matrix are independent. -/
def Independent (m n : Nat) (a : Table K) : Prop :=
  ∀ x : Nat → K, (∀ i < m, ∑ j ∈ Finset.range n, a i j * x j = 0) → ∀ j < n, x j = 0

omit [IsStrictOrderedRing K] in
theorem QrInv.triangular {m n d : Nat} {a q r : Table K} (h : QrInv m n d a q r) :
    Triangular d r :=
  ⟨fun l hl => (h.pos l hl).ne', fun l j hlj => h.upper l j (Or.inl hlj)⟩

omit [IsStrictOrderedRing K] in
/-- The columns that are done, times a vector. -/
theorem QrInv.mul_sum {m n d : Nat} {a q r : Table K} (h : QrInv m n d a q r) (y : Nat → K)
    {i : Nat} (hi : i < m) :
    ∑ j ∈ Finset.range d, a i j * y j =
      ∑ l ∈ Finset.range d, q i l * ∑ j ∈ Finset.range d, r l j * y j := by
  have hrow : ∀ j ∈ Finset.range d, a i j * y j = ∑ l ∈ Finset.range d, q i l * (r l j * y j) := by
    intro j hj
    have hjd := Finset.mem_range.mp hj
    rw [h.factor j hjd i hi, Finset.sum_mul]
    -- the terms below the diagonal are zero
    refine Finset.sum_subset_zero_on_sdiff
      (Finset.range_subset_range.mpr (Nat.succ_le_iff.mpr hjd)) (fun l hl => ?_) fun l hl => ?_
    · have hlj : j < l := by
        have hnot := (Finset.mem_sdiff.mp hl).2
        rw [Finset.mem_range] at hnot
        omega
      rw [h.upper l j (Or.inl hlj), zero_mul, mul_zero]
    · rw [mul_comm (r l j), mul_assoc]
  rw [Finset.sum_congr rfl hrow, Finset.sum_comm]
  exact Finset.sum_congr rfl fun l _ => (Finset.mul_sum ..).symm

omit [IsStrictOrderedRing K] in
theorem scaleColumn_or (m k : Nat) (r q : Table K) :
    (∃ out, scaleColumn m k r q = .ok out) ∨
      scaleColumn m k r q = .error .divZero ∧ ∃ i < m, ¬ mathDivisible (q i k) (r k k) := by
  have hloop := foldlM_exists_or (l := List.range m) (e := Status.divZero)
    (Q := ∃ i < m, ¬ mathDivisible (q i k) (r k k))
    (f := fun q i => if ¬ mathDivisible (q i k) (r k k) then .error .divZero
      else .ok (q.set i k (q i k / r k k)))
    (fun done rest (q' : Table K) => done ++ rest = List.range m ∧ ∀ i ∈ rest, q' i k = q i k)
    ?_ (b := q) ⟨rfl, fun _ _ => rfl⟩
  · rcases hloop with ⟨out, hrun, -⟩ | hrun
    · exact Or.inl ⟨out, hrun⟩
    · exact Or.inr hrun
  · rintro done i rest q' ⟨hsplit, hsame⟩
    have hnodup : (i :: rest).Nodup :=
      (List.nodup_append.mp (hsplit ▸ List.nodup_range : (done ++ i :: rest).Nodup)).2.1
    have hi : i < m := List.mem_range.mp (hsplit ▸ List.mem_append_right done List.mem_cons_self)
    rw [hsame i List.mem_cons_self]
    by_cases hdiv : mathDivisible (q i k) (r k k)
    · rw [if_neg (not_not.mpr hdiv)]
      refine Or.inl ⟨_, rfl, ?_, fun i' hi' => ?_⟩
      · rw [List.append_assoc, List.singleton_append, hsplit]
      · have hne : i' ≠ i := fun heq => (List.nodup_cons.mp hnodup).1 (heq ▸ hi')
        rw [Table.set_apply, if_neg fun h => hne h.1]
        exact hsame i' (List.mem_cons_of_mem i hi')
    · rw [if_pos hdiv]
      exact Or.inr ⟨rfl, i, hi, hdiv⟩

/-- A column whose length is not zero is divisible by it. -/
theorem mathDivisible_of_square {x y : K} (hxy : x * x ≤ y * y) (hy : y ≠ 0) :
    mathDivisible x y := by
  have hbig : (1 : K) < 10 ^ 20 := by norm_num
  rw [mathDivisible, abs_mul, abs_of_pos (zero_lt_one.trans hbig)]
  calc |x| ≤ |y| := abs_le_iff_mul_self_le.mpr hxy
    _ < 10 ^ 20 * |y| := lt_mul_of_one_lt_left (abs_pos.mpr hy) hbig

/-- A column fails only when it depends on the columns before. -/
theorem qrColumn_or [ExactSqrt K] {m n k : Nat} (hk : k < n) {a : Table K}
    {s : Table K × Table K} (h : QrInv m n k a s.1 s.2) :
    (∃ t, qrColumn m n a s k = .ok t) ∨
      qrColumn m n a s k = .error .divZero ∧ ¬ Independent m n a := by
  have hr := columnNorm_apply m k s.1 s.2 k k
  rw [if_pos ⟨rfl, rfl⟩, h.upper k k (Or.inr le_rfl), zero_add] at hr
  have hsquare : columnNorm m k s.1 s.2 k k * columnNorm m k s.1 s.2 k k =
      ∑ i ∈ Finset.range m, s.1 i k * s.1 i k := by
    rw [hr]
    exact ExactSqrt.sqrt_mul_self _ (Finset.sum_nonneg fun i _ => mul_self_nonneg _)
  rw [qrColumn]
  rcases scaleColumn_or m k (columnNorm m k s.1 s.2) s.1 with ⟨q, hq⟩ | ⟨hq, i, hi, hdiv⟩
  · rw [hq]
    exact Or.inl ⟨_, rfl⟩
  · rw [hq]
    refine Or.inr ⟨rfl, fun hindep => ?_⟩
    -- the length is zero, and so is what is left of the column
    have hlength : columnNorm m k s.1 s.2 k k = 0 := by
      by_contra hne
      refine hdiv (mathDivisible_of_square ?_ hne)
      rw [hsquare]
      exact Finset.single_le_sum (f := fun i => s.1 i k * s.1 i k)
        (fun i _ => mul_self_nonneg _) (Finset.mem_range.mpr hi)
    rw [hlength, mul_zero] at hsquare
    have hzero : ∀ i < m, s.1 i k = 0 := fun i hi => mul_self_eq_zero.mp
      ((Finset.sum_eq_zero_iff_of_nonneg fun i _ => mul_self_nonneg _).mp hsquare.symm i
        (Finset.mem_range.mpr hi))
    obtain ⟨y, hy⟩ := h.triangular.surjective fun l => s.2 l k
    have hcol : ∀ i < m, ∑ j ∈ Finset.range k, a i j * y j = a i k := by
      intro i hi
      rw [h.mul_sum y hi, Finset.sum_congr rfl fun l hl => by rw [hy l (Finset.mem_range.mp hl)],
        ← sub_eq_zero, ← neg_sub, neg_eq_zero, ← hzero i hi, h.rest k hk le_rfl i hi]
      exact congrArg _ (Finset.sum_congr rfl fun _ _ => mul_comm _ _)
    have hx := hindep (withSide k k y) (fun i hi => by
      rw [sum_withSide le_rfl hk, hcol i hi, sub_self]) k hk
    rw [withSide, if_neg (lt_irrefl k), if_pos rfl] at hx
    exact one_ne_zero (neg_eq_zero.mp hx)

/-- The matrix is the product of `q`, whose columns are orthonormal, and `r`,
which is upper triangular with a positive diagonal. -/
structure QrFactors (m n : Nat) (a q r : Table K) : Prop where
  orthonormal : ∀ l < n, ∀ l' < n, colDot m q q l l' = if l = l' then 1 else 0
  upper : ∀ l j, j < l → r l j = 0
  pos : ∀ l < n, 0 < r l l
  product : ∀ i < m, ∀ j < n, a i j = ∑ l ∈ Finset.range n, q i l * r l j

omit [IsStrictOrderedRing K] in
/-- The upper triangle, from the columns of the matrix. -/
theorem QrFactors.coef {m n : Nat} {a q r : Table K} (h : QrFactors m n a q r) {l j : Nat}
    (hl : l < n) (hj : j < n) : ∑ i ∈ Finset.range m, q i l * a i j = r l j := by
  calc ∑ i ∈ Finset.range m, q i l * a i j
      = ∑ i ∈ Finset.range m, ∑ k ∈ Finset.range n, q i l * q i k * r k j :=
        Finset.sum_congr rfl fun i hi => by
          rw [h.product i (Finset.mem_range.mp hi) j hj, Finset.mul_sum]
          exact Finset.sum_congr rfl fun k _ => (mul_assoc ..).symm
    _ = ∑ k ∈ Finset.range n, colDot m q q l k * r k j := by
        rw [Finset.sum_comm]
        exact Finset.sum_congr rfl fun k _ => (Finset.sum_mul ..).symm
    _ = r l j := by
        rw [Finset.sum_eq_single l, h.orthonormal l hl l hl, if_pos rfl, one_mul]
        · intro k hk hkl
          rw [h.orthonormal l hl k (Finset.mem_range.mp hk), if_neg hkl.symm, zero_mul]
        · exact fun hnot => absurd (Finset.mem_range.mpr hl) hnot

omit [IsStrictOrderedRing K] in
/-- The normal equations: with the factors, they are triangular. -/
theorem QrFactors.normal {m n : Nat} {a q r : Table K} (h : QrFactors m n a q r) {x b : Nat → K}
    (hb : ∀ i < m, ∑ j ∈ Finset.range n, a i j * x j = b i) {l : Nat} (hl : l < n) :
    ∑ i ∈ Finset.range m, q i l * b i = ∑ j ∈ Finset.range n, r l j * x j := by
  calc ∑ i ∈ Finset.range m, q i l * b i
      = ∑ i ∈ Finset.range m, ∑ j ∈ Finset.range n, q i l * a i j * x j :=
        Finset.sum_congr rfl fun i hi => by
          rw [← hb i (Finset.mem_range.mp hi), Finset.mul_sum]
          exact Finset.sum_congr rfl fun j _ => (mul_assoc ..).symm
    _ = ∑ j ∈ Finset.range n, (∑ i ∈ Finset.range m, q i l * a i j) * x j := by
        rw [Finset.sum_comm]
        exact Finset.sum_congr rfl fun j _ => (Finset.sum_mul ..).symm
    _ = ∑ j ∈ Finset.range n, r l j * x j :=
        Finset.sum_congr rfl fun j hj => by rw [h.coef hl (Finset.mem_range.mp hj)]

omit [IsStrictOrderedRing K] in
theorem QrFactors.triangular {m n : Nat} {a q r : Table K} (h : QrFactors m n a q r) :
    Triangular n r :=
  ⟨fun l hl => (h.pos l hl).ne', h.upper⟩

omit [IsStrictOrderedRing K] in
theorem QrFactors.independent {m n : Nat} {a q r : Table K} (h : QrFactors m n a q r) :
    Independent m n a := by
  intro x hx
  refine h.triangular.injective fun l hl => ?_
  rw [← h.normal hx hl]
  exact Finset.sum_eq_zero fun i _ => mul_zero _

omit [IsStrictOrderedRing K] in
theorem QrInv.factors {m n : Nat} {a q r : Table K} (h : QrInv m n n a q r) :
    QrFactors m n a q r := by
  refine ⟨h.orth, fun l j hlj => h.upper l j (Or.inl hlj), h.pos, fun i hi j hj => ?_⟩
  have hsum := h.mul_sum (fun k => if k = j then 1 else 0) hi
  simp only [mul_ite, mul_one, mul_zero, Finset.sum_ite_eq', Finset.mem_range, if_pos hj] at hsum
  exact hsum

theorem qrFactor_or [ExactSqrt K] {m n : Nat} (hm : 0 < m) (a : Table K) :
    (∃ q r, qrFactor m n a = .ok (q, r) ∧ QrFactors m n a q r) ∨
      qrFactor m n a = .error .divZero ∧ ¬ Independent m n a := by
  have hloop := foldlM_exists_or (f := qrColumn m n a) (e := Status.divZero)
    (Q := ¬ Independent m n a) (l := List.range n) (fun done rest (s : Table K × Table K) =>
      done ++ rest = List.range n ∧ QrInv m n done.length a s.1 s.2)
    ?_ (b := (a, fun _ _ => 0)) ⟨rfl, ?_⟩
  · rcases hloop with ⟨s, hrun, -, hinv⟩ | ⟨hrun, hdep⟩
    · rw [List.length_range] at hinv
      exact Or.inl ⟨s.1, s.2, hrun, hinv.factors⟩
    · exact Or.inr ⟨hrun, hdep⟩
  · rintro done k rest s ⟨hsplit, hinv⟩
    obtain ⟨rfl, hk⟩ := range_split hsplit
    rcases qrColumn_or hk hinv with ⟨t, ht⟩ | hfail
    · refine Or.inl ⟨t, ht, ?_, ?_⟩
      · rw [List.append_assoc, List.singleton_append, hsplit]
      · rw [List.length_append, List.length_singleton]
        exact qrColumn_inv hm hk hinv ht
    · exact Or.inr hfail
  · refine ⟨fun l hl => absurd hl (Nat.not_lt_zero l), fun l hl => absurd hl (Nat.not_lt_zero l),
      fun j _ _ i _ => ?_, fun j hj => absurd hj (Nat.not_lt_zero j), fun _ _ _ => rfl,
      fun l hl => absurd hl (Nat.not_lt_zero l)⟩
    rw [List.length_nil, Finset.range_zero, Finset.sum_empty, sub_zero]

/-- **The factors.**  A matrix has factors when its columns are independent, and
is refused with `REF_DIV_ZERO` when they are not. -/
theorem qrFactor_spec [ExactSqrt K] {m n : Nat} (hm : 0 < m) (a : Table K) :
    (Independent m n a ∧ ∃ q r, qrFactor m n a = .ok (q, r) ∧ QrFactors m n a q r) ∨
      ¬ Independent m n a ∧ qrFactor m n a = .error .divZero := by
  rcases qrFactor_or hm a (n := n) with ⟨q, r, hrun, hfactors⟩ | ⟨hrun, hdep⟩
  · exact Or.inl ⟨hfactors.independent, q, r, hrun, hfactors⟩
  · exact Or.inr ⟨hdep, hrun⟩

/-- One column of length one. -/
theorem qrFactor_spec_column : ∃ q r : Table ℝ, qrFactor 1 1 (fun _ _ => 1) = .ok (q, r) ∧
    QrFactors 1 1 (fun _ _ => 1) q r := by
  have hone : Independent 1 1 (fun _ _ => (1 : ℝ)) := by
    intro x hx l hl
    obtain rfl : l = 0 := by omega
    simpa using hx 0 one_pos
  rcases qrFactor_spec one_pos (n := 1) fun _ _ => (1 : ℝ) with ⟨-, q, r, hok⟩ | ⟨hdep, -⟩
  · exact ⟨q, r, hok⟩
  · exact absurd hone hdep

end Orthogonal

end RefineMesh
