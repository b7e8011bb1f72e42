import Mathlib.Tactic
import RefineMesh.LinearSolve

/-!
# The metric that a simplex implies

`ref_matrix_imply_m` solves for the symmetric matrix in which the six edges of a
tet have length one, and `ref_matrix_imply_m3` for that of a triangle.  A form
with these six values is the form of the regular simplex in the coordinates of
the edges, so that it is positive, and the edges are independent.
-/

namespace RefineMesh

-- the numerals of the axes and of the halves
local instance neZero_three_imply : NeZero 3 := ⟨by decide⟩
local instance neZero_six_imply : NeZero 6 := ⟨by decide⟩
local instance atLeastTwo_imply : Nat.AtLeastTwo 2 := ⟨le_rfl⟩
local instance atLeastTwo_six_imply : Nat.AtLeastTwo 6 := ⟨by decide⟩

section Imply

variable {K : Type} [Field K]

/-- `ref_matrix_vt_m_v`. -/
def vtMV (m : Fin 6 → K) (v : Fin 3 → K) : K :=
  v 0 * (m 0 * v 0 + m 1 * v 1 + m 2 * v 2) + v 1 * (m 1 * v 0 + m 3 * v 1 + m 4 * v 2) +
    v 2 * (m 2 * v 0 + m 4 * v 1 + m 5 * v 2)

/-- `ref_node_xyz_vol`. -/
def xyzVol (a b c d : Fin 3 → K) : K :=
  let m11 := (a 0 - d 0) * ((b 1 - d 1) * (c 2 - d 2) - (c 1 - d 1) * (b 2 - d 2))
  let m12 := (a 1 - d 1) * ((b 0 - d 0) * (c 2 - d 2) - (c 0 - d 0) * (b 2 - d 2))
  let m13 := (a 2 - d 2) * ((b 0 - d 0) * (c 1 - d 1) - (c 0 - d 0) * (b 1 - d 1))
  let det := m11 - m12 + m13; -det / 6

/-- `fill_ab`. -/
def fillAb (ab : Table K) (row : Nat) (n1 n0 : Fin 3 → K) : Table K :=
  (((((ab.set row 0 ((n1 0 - n0 0) * (n1 0 - n0 0))).set row 1
    (2 * (n1 0 - n0 0) * (n1 1 - n0 1))).set row 2
    (2 * (n1 0 - n0 0) * (n1 2 - n0 2))).set row 3
    ((n1 1 - n0 1) * (n1 1 - n0 1))).set row 4
    (2 * (n1 1 - n0 1) * (n1 2 - n0 2))).set row 5
    ((n1 2 - n0 2) * (n1 2 - n0 2))

/-- `fill_ab3`. -/
def fillAb3 (ab : Table K) (row : Nat) (n1 n0 : Fin 3 → K) : Table K :=
  ((ab.set row 0 ((n1 0 - n0 0) * (n1 0 - n0 0))).set row 1
    (2 * (n1 0 - n0 0) * (n1 1 - n0 1))).set row 2
    ((n1 1 - n0 1) * (n1 1 - n0 1))

/-- The loop that writes ones for the right hand side. -/
def fillOnes (rows : Nat) (ab : Table K) : Table K :=
  (List.range rows).foldl (fun ab i => ab.set i rows 1) ab

variable [LinearOrder K]

/-- `ref_matrix_imply_m`, with what `ab` holds at first. -/
def implyM (ab : Table K) (xyz0 xyz1 xyz2 xyz3 : Fin 3 → K) : Except Status (Fin 6 → K) := do
  let ab := fillAb ab 0 xyz1 xyz0
  let ab := fillAb ab 1 xyz2 xyz0
  let ab := fillAb ab 2 xyz3 xyz0
  let ab := fillAb ab 3 xyz2 xyz1
  let ab := fillAb ab 4 xyz3 xyz1
  let ab := fillAb ab 5 xyz3 xyz2
  let ab := fillOnes 6 ab
  let solved ← solveAb 6 7 ab
  if solved.2 then .error .illConditioned else .ok fun i => solved.1 i 6

/-- `ref_matrix_imply_m3`, with what `ab` holds at first. -/
def implyM3 (ab : Table K) (xyz0 xyz1 xyz2 : Fin 3 → K) : Except Status (Fin 6 → K) := do
  let ab := fillAb3 ab 0 xyz0 xyz1
  let ab := fillAb3 ab 1 xyz1 xyz2
  let ab := fillAb3 ab 2 xyz2 xyz0
  let ab := fillOnes 3 ab
  let solved ← solveAb 3 4 ab
  if solved.2 then .error .illConditioned
  else .ok ![solved.1 0 3, solved.1 1 3, 0, solved.1 2 3, 0, 1]

end Imply

/-! ## Forms with edges of length one -/

section Forms

variable {K : Type} [Field K]

/-- A form in the coordinates of three vectors, by its values on them and on
their differences. -/
theorem vtMV_combination (m : Fin 6 → K) (u v w : Fin 3 → K) (a b c : K) :
    vtMV m (a • u + b • v + c • w) =
      (a ^ 2 + a * b + a * c) * vtMV m u + (b ^ 2 + a * b + b * c) * vtMV m v +
        (c ^ 2 + a * c + b * c) * vtMV m w - a * b * vtMV m (v - u) - a * c * vtMV m (w - u) -
        b * c * vtMV m (w - v) := by
  simp only [vtMV, Pi.add_apply, Pi.sub_apply, Pi.smul_apply, smul_eq_mul]
  ring

/-- The edges of the tet have length one in the form. -/
structure UnitTet (m : Fin 6 → K) (xyz0 xyz1 xyz2 xyz3 : Fin 3 → K) : Prop where
  edge01 : vtMV m (xyz1 - xyz0) = 1
  edge02 : vtMV m (xyz2 - xyz0) = 1
  edge03 : vtMV m (xyz3 - xyz0) = 1
  edge12 : vtMV m (xyz2 - xyz1) = 1
  edge13 : vtMV m (xyz3 - xyz1) = 1
  edge23 : vtMV m (xyz3 - xyz2) = 1

variable {m : Fin 6 → K} {xyz0 xyz1 xyz2 xyz3 : Fin 3 → K}

theorem UnitTet.combination (h : UnitTet m xyz0 xyz1 xyz2 xyz3) (a b c : K) :
    2 * vtMV m (a • (xyz1 - xyz0) + b • (xyz2 - xyz0) + c • (xyz3 - xyz0)) =
      (a + b + c) ^ 2 + a ^ 2 + b ^ 2 + c ^ 2 := by
  rw [vtMV_combination, sub_sub_sub_cancel_right, sub_sub_sub_cancel_right,
    sub_sub_sub_cancel_right, h.edge01, h.edge02, h.edge03, h.edge12, h.edge13, h.edge23]
  ring

variable [LinearOrder K] [IsStrictOrderedRing K]

theorem coordinates_zero {s a b c : K} (h : s ^ 2 + a ^ 2 + b ^ 2 + c ^ 2 ≤ 0) :
    a = 0 ∧ b = 0 ∧ c = 0 := by
  have h0 := sq_nonneg s
  have h1 := sq_nonneg a
  have h2 := sq_nonneg b
  have h3 := sq_nonneg c
  refine ⟨?_, ?_, ?_⟩ <;> exact (pow_eq_zero_iff two_ne_zero).mp (by linarith)

/-- The edges from the first node are independent. -/
theorem UnitTet.det_ne_zero (h : UnitTet m xyz0 xyz1 xyz2 xyz3) :
    (Matrix.of ![xyz1 - xyz0, xyz2 - xyz0, xyz3 - xyz0]).det ≠ 0 := by
  intro hdet
  obtain ⟨a, ha, hzero⟩ := Matrix.exists_vecMul_eq_zero_iff.mpr hdet
  apply ha
  have hcomb : a 0 • (xyz1 - xyz0) + a 1 • (xyz2 - xyz0) + a 2 • (xyz3 - xyz0) = 0 := by
    rw [← hzero]
    funext k
    simp [Matrix.vecMul, dotProduct, Fin.sum_univ_three]
  have hsum := h.combination (a 0) (a 1) (a 2)
  rw [hcomb] at hsum
  have hform : vtMV m 0 = 0 := by simp [vtMV]
  rw [hform, mul_zero] at hsum
  obtain ⟨h0, h1, h2⟩ := coordinates_zero hsum.symm.le
  funext k
  fin_cases k
  · exact h0
  · exact h1
  · exact h2

/-- **A form in which the edges have length one is positive.** -/
theorem UnitTet.pos (h : UnitTet m xyz0 xyz1 xyz2 xyz3) {v : Fin 3 → K} (hv : v ≠ 0) :
    0 < vtMV m v := by
  have hunit := isUnit_iff_ne_zero.mpr h.det_ne_zero
  generalize hE : Matrix.of ![xyz1 - xyz0, xyz2 - xyz0, xyz3 - xyz0] = E at hunit
  -- the coordinates of the vector
  have hback : Matrix.vecMul (Matrix.vecMul v E⁻¹) E = v := by
    rw [Matrix.vecMul_vecMul, Matrix.nonsing_inv_mul _ hunit, Matrix.vecMul_one]
  generalize Matrix.vecMul v E⁻¹ = a at hback
  have hcomb : a 0 • (xyz1 - xyz0) + a 1 • (xyz2 - xyz0) + a 2 • (xyz3 - xyz0) = v := by
    rw [← hback, ← hE]
    funext k
    simp [Matrix.vecMul, dotProduct, Fin.sum_univ_three]
  have hsum := h.combination (a 0) (a 1) (a 2)
  rw [hcomb] at hsum
  by_contra hle
  have hzero := coordinates_zero (hsum.symm.trans_le (by linarith : 2 * vtMV m v ≤ 0))
  rw [hzero.1, hzero.2.1, hzero.2.2, zero_smul, zero_smul, zero_smul, add_zero, add_zero] at hcomb
  exact hv hcomb.symm

theorem UnitTet.vol_ne_zero (h : UnitTet m xyz0 xyz1 xyz2 xyz3) :
    xyzVol xyz0 xyz1 xyz2 xyz3 ≠ 0 := by
  have hdet := h.det_ne_zero
  have hvol : xyzVol xyz0 xyz1 xyz2 xyz3 * 6 =
      (Matrix.of ![xyz1 - xyz0, xyz2 - xyz0, xyz3 - xyz0]).det := by
    rw [Matrix.det_fin_three]
    simp [xyzVol]
    ring
  intro hzero
  rw [hzero, zero_mul] at hvol
  exact hdet hvol.symm

end Forms

/-! ## The tables -/

section Tables

variable {K : Type} [Field K]

theorem fillAb_other {ab : Table K} {row i : Nat} {n1 n0 : Fin 3 → K} (h : i ≠ row) :
    fillAb ab row n1 n0 i = ab i := by
  funext k
  simp [fillAb, Table.set_apply, h]

/-- A row of the table is the form on the edge. -/
theorem fillAb_sum (ab : Table K) (row : Nat) (n1 n0 : Fin 3 → K) (m : Fin 6 → K) :
    ∑ j : Fin 6, fillAb ab row n1 n0 row j * m j = vtMV m (n1 - n0) := by
  simp only [Fin.sum_univ_six, fillAb, Table.set_apply, vtMV, Pi.sub_apply]
  simp
  ring

theorem fillAb3_other {ab : Table K} {row i : Nat} {n1 n0 : Fin 3 → K} (h : i ≠ row) :
    fillAb3 ab row n1 n0 i = ab i := by
  funext k
  simp [fillAb3, Table.set_apply, h]

theorem fillAb3_sum (ab : Table K) (row : Nat) (n1 n0 : Fin 3 → K) (m : Fin 3 → K) :
    ∑ j : Fin 3, fillAb3 ab row n1 n0 row j * m j =
      vtMV ![m 0, m 1, 0, m 2, 0, 1] ![n1 0 - n0 0, n1 1 - n0 1, 0] := by
  simp only [Fin.sum_univ_three, fillAb3, Table.set_apply, vtMV]
  simp
  ring

theorem fillOnes_apply (rows : Nat) (ab : Table K) (i k : Nat) :
    fillOnes rows ab i k = if i < rows ∧ k = rows then 1 else ab i k := by
  have hloop : ∀ n, (List.range n).foldl (fun (ab : Table K) i => ab.set i rows 1) ab i k =
      if i < n ∧ k = rows then 1 else ab i k := by
    intro n
    induction n with
    | zero => simp
    | succ n ih =>
        rw [List.range_succ, List.foldl_append, List.foldl_cons, List.foldl_nil, Table.set_apply, ih]
        split_ifs <;> first | rfl | omega
  exact hloop rows

variable [LinearOrder K] [IsStrictOrderedRing K]

/-- The solution of a table with ones for the right hand side. -/
theorem solveAb_ones {rows : Nat} {ab : Table K} {solved : Table K × Bool}
    (hrun : solveAb rows (rows + 1) (fillOnes rows ab) = .ok solved) {i : Nat} (hi : i < rows) :
    ∑ j : Fin rows, ab i j * solved.1 j rows = 1 := by
  have hrow := congrFun ((solveAb_ok (Nat.le_succ rows) hrun).2 rows le_rfl (Nat.lt_succ_self rows))
    ⟨i, hi⟩
  rw [fillOnes_apply, if_pos ⟨hi, rfl⟩] at hrow
  rw [← hrow, Matrix.mulVec, dotProduct]
  refine Finset.sum_congr rfl fun j _ => ?_
  rw [Matrix.of_apply, fillOnes_apply, if_neg fun h => absurd h.2 j.isLt.ne]

omit [IsStrictOrderedRing K] in
/-- An implied metric is refused for a division, or for the condition of the
equations. -/
theorem solveAb_refused {α : Type} {rows cols : Nat} {ab : Table K} {f : Table K → α} {e : Status}
    (hrun : (do
      let solved ← solveAb rows cols ab
      if solved.2 then .error .illConditioned else .ok (f solved.1)) = Except.error e) :
    e = .divZero ∨ e = .illConditioned := by
  rcases bind_eq_error.mp hrun with hsolve | ⟨solved, -, hill⟩
  · exact Or.inl (solveAb_error hsolve)
  · split_ifs at hill
    exact Or.inr (Except.error.inj hill).symm

theorem implyM_unit {ab : Table K} {xyz0 xyz1 xyz2 xyz3 : Fin 3 → K} {m : Fin 6 → K}
    (hrun : implyM ab xyz0 xyz1 xyz2 xyz3 = .ok m) : UnitTet m xyz0 xyz1 xyz2 xyz3 := by
  obtain ⟨solved, hsolve, hm⟩ := bind_eq_ok.mp hrun
  split_ifs at hm
  cases hm
  have hrow : ∀ i < 6, _ := fun i hi => solveAb_ones hsolve hi
  refine ⟨?_, ?_, ?_, ?_, ?_, ?_⟩
  · have h := hrow 0 (by decide)
    rw [fillAb_other (by decide), fillAb_other (by decide), fillAb_other (by decide),
      fillAb_other (by decide), fillAb_other (by decide)] at h
    exact (fillAb_sum ..).symm.trans h
  · have h := hrow 1 (by decide)
    rw [fillAb_other (by decide), fillAb_other (by decide), fillAb_other (by decide),
      fillAb_other (by decide)] at h
    exact (fillAb_sum ..).symm.trans h
  · have h := hrow 2 (by decide)
    rw [fillAb_other (by decide), fillAb_other (by decide), fillAb_other (by decide)] at h
    exact (fillAb_sum ..).symm.trans h
  · have h := hrow 3 (by decide)
    rw [fillAb_other (by decide), fillAb_other (by decide)] at h
    exact (fillAb_sum ..).symm.trans h
  · have h := hrow 4 (by decide)
    rw [fillAb_other (by decide)] at h
    exact (fillAb_sum ..).symm.trans h
  · exact (fillAb_sum ..).symm.trans (hrow 5 (by decide))

/-- **The implied metric** of a tet is positive and has edges of length one; a
flat tet implies none. -/
theorem implyM_spec (ab : Table K) (xyz0 xyz1 xyz2 xyz3 : Fin 3 → K) :
    (∃ m, implyM ab xyz0 xyz1 xyz2 xyz3 = .ok m ∧ UnitTet m xyz0 xyz1 xyz2 xyz3 ∧
      (∀ v ≠ 0, 0 < vtMV m v) ∧ xyzVol xyz0 xyz1 xyz2 xyz3 ≠ 0) ∨
    ∃ e, implyM ab xyz0 xyz1 xyz2 xyz3 = .error e ∧ (e = .divZero ∨ e = .illConditioned) := by
  rcases hrun : implyM ab xyz0 xyz1 xyz2 xyz3 with e | m
  · exact Or.inr ⟨e, rfl, solveAb_refused (f := fun out (i : Fin 6) => out i 6) hrun⟩
  · have hunit := implyM_unit hrun
    exact Or.inl ⟨m, rfl, hunit, fun _ hv => hunit.pos hv, hunit.vol_ne_zero⟩

theorem implyM_spec_corner : ∃ m : Fin 6 → ℚ,
    implyM (fun _ _ => 0) ![0, 0, 0] ![1, 0, 0] ![0, 1, 0] ![0, 0, 1] = .ok m ∧
      UnitTet m ![0, 0, 0] ![1, 0, 0] ![0, 1, 0] ![0, 0, 1] := by
  have hsome : (implyM (fun _ _ => (0 : ℚ)) ![0, 0, 0] ![1, 0, 0] ![0, 1, 0]
      ![0, 0, 1]).toOption.isSome = true := by
    decide +kernel
  rcases implyM_spec (fun _ _ => (0 : ℚ)) ![0, 0, 0] ![1, 0, 0] ![0, 1, 0] ![0, 0, 1] with
    ⟨m, hok, hunit, -⟩ | ⟨e, hfail, -⟩
  · exact ⟨m, hok, hunit⟩
  · rw [hfail] at hsome
    cases hsome

/-- The edges of the triangle, in the plane, have length one in the form. -/
structure UnitTri (m : Fin 6 → K) (xyz0 xyz1 xyz2 : Fin 3 → K) : Prop where
  edge01 : vtMV m ![xyz0 0 - xyz1 0, xyz0 1 - xyz1 1, 0] = 1
  edge12 : vtMV m ![xyz1 0 - xyz2 0, xyz1 1 - xyz2 1, 0] = 1
  edge20 : vtMV m ![xyz2 0 - xyz0 0, xyz2 1 - xyz0 1, 0] = 1

/-- The planar form in the coordinates of the sides from the first node. -/
theorem planar_form {p q r u0 u1 w0 w1 : K} (hu : p * u0 ^ 2 + 2 * q * u0 * u1 + r * u1 ^ 2 = 1)
    (hw : p * w0 ^ 2 + 2 * q * w0 * w1 + r * w1 ^ 2 = 1)
    (huw : p * (w0 - u0) ^ 2 + 2 * q * (w0 - u0) * (w1 - u1) + r * (w1 - u1) ^ 2 = 1) (x y : K) :
    2 * ((u0 * w1 - u1 * w0) ^ 2 * (p * x ^ 2 + 2 * q * x * y + r * y ^ 2)) =
      (x * w1 - y * w0 + (u0 * y - u1 * x)) ^ 2 + (x * w1 - y * w0) ^ 2 +
        (u0 * y - u1 * x) ^ 2 := by
  linear_combination
    (2 * (x * w1 - y * w0) ^ 2 + 2 * (x * w1 - y * w0) * (u0 * y - u1 * x)) * hu +
    (2 * (u0 * y - u1 * x) ^ 2 + 2 * (x * w1 - y * w0) * (u0 * y - u1 * x)) * hw -
    2 * (x * w1 - y * w0) * (u0 * y - u1 * x) * huw

theorem planar_det_ne_zero {p q r u0 u1 w0 w1 : K}
    (hu : p * u0 ^ 2 + 2 * q * u0 * u1 + r * u1 ^ 2 = 1)
    (hw : p * w0 ^ 2 + 2 * q * w0 * w1 + r * w1 ^ 2 = 1)
    (huw : p * (w0 - u0) ^ 2 + 2 * q * (w0 - u0) * (w1 - u1) + r * (w1 - u1) ^ 2 = 1) :
    u0 * w1 - u1 * w0 ≠ 0 := by
  intro hdet
  have hzero : ∀ x y, x * w1 - y * w0 = 0 ∧ u0 * y - u1 * x = 0 := by
    intro x y
    have hform := planar_form hu hw huw x y
    rw [hdet, zero_pow two_ne_zero, zero_mul, mul_zero] at hform
    have hcoord := coordinates_zero (s := 0) (a := x * w1 - y * w0 + (u0 * y - u1 * x))
      (b := x * w1 - y * w0) (c := u0 * y - u1 * x) (by rw [zero_pow two_ne_zero]; linarith)
    exact ⟨hcoord.2.1, hcoord.2.2⟩
  have hu0 := (hzero 0 1).2
  have hu1 := (hzero 1 0).2
  rw [mul_one, mul_zero, sub_zero] at hu0
  rw [mul_zero, mul_one, zero_sub, neg_eq_zero] at hu1
  rw [hu0, hu1] at hu
  simp at hu

theorem planar_pos {p q r u0 u1 w0 w1 : K} (hu : p * u0 ^ 2 + 2 * q * u0 * u1 + r * u1 ^ 2 = 1)
    (hw : p * w0 ^ 2 + 2 * q * w0 * w1 + r * w1 ^ 2 = 1)
    (huw : p * (w0 - u0) ^ 2 + 2 * q * (w0 - u0) * (w1 - u1) + r * (w1 - u1) ^ 2 = 1) {x y : K}
    (hxy : p * x ^ 2 + 2 * q * x * y + r * y ^ 2 ≤ 0) : x = 0 ∧ y = 0 := by
  have hdet := planar_det_ne_zero hu hw huw
  have hform := planar_form hu hw huw x y
  have hle : (u0 * w1 - u1 * w0) ^ 2 * (p * x ^ 2 + 2 * q * x * y + r * y ^ 2) ≤ 0 :=
    mul_nonpos_of_nonneg_of_nonpos (sq_nonneg _) hxy
  obtain ⟨-, ha, hb⟩ := coordinates_zero (s := 0) (a := x * w1 - y * w0 + (u0 * y - u1 * x))
    (b := x * w1 - y * w0) (c := u0 * y - u1 * x) (by rw [zero_pow two_ne_zero]; linarith)
  constructor
  · have hx : (u0 * w1 - u1 * w0) * x = 0 := by linear_combination u0 * ha + w0 * hb
    exact (mul_eq_zero.mp hx).resolve_left hdet
  · have hy : (u0 * w1 - u1 * w0) * y = 0 := by linear_combination u1 * ha + w1 * hb
    exact (mul_eq_zero.mp hy).resolve_left hdet

theorem implyM3_unit {ab : Table K} {xyz0 xyz1 xyz2 : Fin 3 → K} {m : Fin 6 → K}
    (hrun : implyM3 ab xyz0 xyz1 xyz2 = .ok m) :
    UnitTri m xyz0 xyz1 xyz2 ∧ (∀ v ≠ 0, 0 < vtMV m v) ∧
      (xyz1 0 - xyz0 0) * (xyz2 1 - xyz0 1) - (xyz1 1 - xyz0 1) * (xyz2 0 - xyz0 0) ≠ 0 := by
  obtain ⟨solved, hsolve, hm⟩ := bind_eq_ok.mp hrun
  split_ifs at hm
  cases hm
  have hrow : ∀ i < 3, _ := fun i hi => solveAb_ones hsolve hi
  have hunit : UnitTri ![solved.1 0 3, solved.1 1 3, 0, solved.1 2 3, 0, 1] xyz0 xyz1 xyz2 := by
    refine ⟨?_, ?_, ?_⟩
    · have h := hrow 0 (by decide)
      rw [fillAb3_other (by decide), fillAb3_other (by decide)] at h
      exact (fillAb3_sum _ 0 xyz0 xyz1 fun j => solved.1 j 3).symm.trans h
    · have h := hrow 1 (by decide)
      rw [fillAb3_other (by decide)] at h
      exact (fillAb3_sum _ 1 xyz1 xyz2 fun j => solved.1 j 3).symm.trans h
    · exact (fillAb3_sum _ 2 xyz2 xyz0 fun j => solved.1 j 3).symm.trans (hrow 2 (by decide))
  obtain ⟨h01, h12, h20⟩ := id hunit
  simp only [vtMV, Matrix.cons_val] at h01 h12 h20
  have hu : solved.1 0 3 * (xyz1 0 - xyz0 0) ^ 2 +
      2 * solved.1 1 3 * (xyz1 0 - xyz0 0) * (xyz1 1 - xyz0 1) +
      solved.1 2 3 * (xyz1 1 - xyz0 1) ^ 2 = 1 := by linear_combination h01
  have hw : solved.1 0 3 * (xyz2 0 - xyz0 0) ^ 2 +
      2 * solved.1 1 3 * (xyz2 0 - xyz0 0) * (xyz2 1 - xyz0 1) +
      solved.1 2 3 * (xyz2 1 - xyz0 1) ^ 2 = 1 := by linear_combination h20
  have huw : solved.1 0 3 * (xyz2 0 - xyz0 0 - (xyz1 0 - xyz0 0)) ^ 2 +
      2 * solved.1 1 3 * (xyz2 0 - xyz0 0 - (xyz1 0 - xyz0 0)) *
        (xyz2 1 - xyz0 1 - (xyz1 1 - xyz0 1)) +
      solved.1 2 3 * (xyz2 1 - xyz0 1 - (xyz1 1 - xyz0 1)) ^ 2 = 1 := by
    linear_combination h12
  refine ⟨hunit, fun v hv => ?_, planar_det_ne_zero hu hw huw⟩
  have hsplit : vtMV ![solved.1 0 3, solved.1 1 3, 0, solved.1 2 3, 0, 1] v =
      solved.1 0 3 * v 0 ^ 2 + 2 * solved.1 1 3 * v 0 * v 1 + solved.1 2 3 * v 1 ^ 2 + v 2 ^ 2 := by
    simp only [vtMV, Matrix.cons_val]
    ring
  rw [hsplit]
  by_contra hle
  have hz := sq_nonneg (v 2)
  by_cases hplane : solved.1 0 3 * v 0 ^ 2 + 2 * solved.1 1 3 * v 0 * v 1 +
      solved.1 2 3 * v 1 ^ 2 ≤ 0
  · obtain ⟨h0, h1⟩ := planar_pos hu hw huw hplane
    rw [h0, h1] at hle
    have h2 : v 2 = 0 := (pow_eq_zero_iff two_ne_zero).mp (by linarith)
    apply hv
    funext k
    fin_cases k
    · exact h0
    · exact h1
    · exact h2
  · linarith

/-- **The implied metric of a triangle** is positive and has edges of length one in
the plane; a degenerate triangle implies none. -/
theorem implyM3_spec (ab : Table K) (xyz0 xyz1 xyz2 : Fin 3 → K) :
    (∃ m, implyM3 ab xyz0 xyz1 xyz2 = .ok m ∧ UnitTri m xyz0 xyz1 xyz2 ∧
      (∀ v ≠ 0, 0 < vtMV m v) ∧
      (xyz1 0 - xyz0 0) * (xyz2 1 - xyz0 1) - (xyz1 1 - xyz0 1) * (xyz2 0 - xyz0 0) ≠ 0) ∨
    ∃ e, implyM3 ab xyz0 xyz1 xyz2 = .error e ∧ (e = .divZero ∨ e = .illConditioned) := by
  rcases hrun : implyM3 ab xyz0 xyz1 xyz2 with e | m
  · exact Or.inr ⟨e, rfl, solveAb_refused
      (f := fun out => ![out 0 3, out 1 3, 0, out 2 3, 0, 1]) hrun⟩
  · exact Or.inl ⟨m, rfl, implyM3_unit hrun⟩

theorem implyM3_spec_corner : ∃ m : Fin 6 → ℚ,
    implyM3 (fun _ _ => 0) ![0, 0, 0] ![1, 0, 0] ![0, 1, 0] = .ok m ∧
      UnitTri m ![0, 0, 0] ![1, 0, 0] ![0, 1, 0] := by
  have hsome : (implyM3 (fun _ _ => (0 : ℚ)) ![0, 0, 0] ![1, 0, 0] ![0, 1, 0]).toOption.isSome =
      true := by
    decide +kernel
  rcases implyM3_spec (fun _ _ => (0 : ℚ)) ![0, 0, 0] ![1, 0, 0] ![0, 1, 0] with
    ⟨m, hok, hunit, -⟩ | ⟨e, hfail, -⟩
  · exact ⟨m, hok, hunit⟩
  · rw [hfail] at hsome
    cases hsome

end Tables

end RefineMesh
