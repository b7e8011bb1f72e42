import Mathlib.Tactic
import Mathlib.Analysis.Convex.Hull
import RefineMesh.Status

/-!
# Distance to a triangle

`ref_search_distance2`, `ref_search_distance3` and `ref_search_dist3` in exact
arithmetic, with the square of the distance for the distance.  A point of a
convex hull from which no vertex lies in the direction of the query is nearest.
The barycentric numbers of `ref_search_distance3` and the regions of
`ref_search_dist3` come from the same six scalar products.
-/

namespace RefineMesh

variable {K : Type} [Field K]

/-- `ref_math_dot`. -/
def mathDot (a b : Fin 3 → K) : K := a 0 * b 0 + a 1 * b 1 + a 2 * b 2

/-- `ref_math_cross_product`. -/
def mathCrossProduct (edge1 edge2 : Fin 3 → K) : Fin 3 → K :=
  ![edge1 1 * edge2 2 - edge1 2 * edge2 1, edge1 2 * edge2 0 - edge1 0 * edge2 2,
    edge1 0 * edge2 1 - edge1 1 * edge2 0]

/-- `ref_search_xyz_normal`. -/
def searchXyzNormal (xyz0 xyz1 xyz2 : Fin 3 → K) : Fin 3 → K :=
  mathCrossProduct (xyz1 - xyz0) (xyz2 - xyz0)

/-- The square of the distance of two points. -/
def distSq (p q : Fin 3 → K) : K := mathDot (p - q) (p - q)

theorem mathDot_add_smul (u v w : Fin 3 → K) (s t : K) :
    mathDot u (s • v + t • w) = s * mathDot u v + t * mathDot u w := by
  simp only [mathDot, Pi.add_apply, Pi.smul_apply, smul_eq_mul]
  ring

theorem mathDot_comm (u v : Fin 3 → K) : mathDot u v = mathDot v u := by
  simp only [mathDot]
  ring

/-- Moving the base of a product. -/
theorem mathDot_base (u p x y : Fin 3 → K) :
    mathDot u (p - y) = mathDot u (p - x) - mathDot u (y - x) := by
  simp only [mathDot, Pi.sub_apply]
  ring

/-- A projection in the normal direction does not change the barycentric numbers. -/
theorem searchXyzNormal_offset (x y z n : Fin 3 → K) (s : K) :
    mathDot (searchXyzNormal (x + s • n) y z) n = mathDot (searchXyzNormal x y z) n ∧
    mathDot (searchXyzNormal y (x + s • n) z) n = mathDot (searchXyzNormal y x z) n ∧
    mathDot (searchXyzNormal y z (x + s • n)) n = mathDot (searchXyzNormal y z x) n := by
  simp only [searchXyzNormal, mathCrossProduct, mathDot, Pi.sub_apply, Pi.add_apply,
    Pi.smul_apply, smul_eq_mul, Matrix.cons_val]
  refine ⟨?_, ?_, ?_⟩ <;> ring

/-- The barycentric numbers by the products of the sides with the query. -/
theorem bary_products (a b c p : Fin 3 → K) :
    mathDot (searchXyzNormal p b c) (searchXyzNormal a b c) =
        mathDot (b - a) (b - a) * mathDot (c - a) (c - a) -
          mathDot (b - a) (c - a) * mathDot (b - a) (c - a) -
          (mathDot (c - a) (c - a) - mathDot (b - a) (c - a)) * mathDot (b - a) (p - a) -
          (mathDot (b - a) (b - a) - mathDot (b - a) (c - a)) * mathDot (c - a) (p - a) ∧
      mathDot (searchXyzNormal a p c) (searchXyzNormal a b c) =
        mathDot (c - a) (c - a) * mathDot (b - a) (p - a) -
          mathDot (b - a) (c - a) * mathDot (c - a) (p - a) ∧
      mathDot (searchXyzNormal a b p) (searchXyzNormal a b c) =
        mathDot (b - a) (b - a) * mathDot (c - a) (p - a) -
          mathDot (b - a) (c - a) * mathDot (b - a) (p - a) := by
  simp only [searchXyzNormal, mathCrossProduct, mathDot, Pi.sub_apply, Matrix.cons_val]
  refine ⟨?_, ?_, ?_⟩ <;> ring

variable [LinearOrder K]

/-- The square of `ref_search_distance2`. -/
def searchDistance2 (xyz0 xyz1 xyz : Fin 3 → K) : K :=
  let dl := xyz1 - xyz0
  let dxyz := xyz - xyz0
  let len2 := mathDot dl dl
  let proj2 := mathDot dxyz dl
  if len2 ≠ 0 then
    let t := min (max (proj2 / len2) 0) 1
    let dxyz := xyz - (xyz0 + t • dl)
    mathDot dxyz dxyz
  else mathDot dxyz dxyz

/-- The square of `ref_search_distance3`. -/
def searchDistance3 (xyz0 xyz1 xyz2 xyz : Fin 3 → K) : K :=
  let totalNormal := searchXyzNormal xyz0 xyz1 xyz2
  let xyzp := xyz - xyz0
  let total := mathDot xyzp totalNormal
  let xyzp := xyzp - total • totalNormal + xyz0
  let bary0 := mathDot (searchXyzNormal xyzp xyz1 xyz2) totalNormal
  let bary1 := mathDot (searchXyzNormal xyz0 xyzp xyz2) totalNormal
  let bary2 := mathDot (searchXyzNormal xyz0 xyz1 xyzp) totalNormal
  let total := bary0 + bary1 + bary2
  let edges := min (min (searchDistance2 xyz0 xyz1 xyz) (searchDistance2 xyz1 xyz2 xyz))
    (searchDistance2 xyz2 xyz0 xyz)
  if total ≠ 0 then
    if 0 ≤ bary0 / total ∧ 0 ≤ bary1 / total ∧ 0 ≤ bary2 / total then
      let dxyz := (bary0 / total) • xyz0 + (bary1 / total) • xyz1 + (bary2 / total) • xyz2 - xyz
      mathDot dxyz dxyz
    else edges
  else edges

/-- The square of `ref_search_dist3`. -/
def searchDist3 (a b c p : Fin 3 → K) : Except Status K :=
  let ab := b - a
  let ac := c - a
  let ap := p - a
  let d1 := mathDot ab ap
  let d2 := mathDot ac ap
  if d1 ≤ 0 ∧ d2 ≤ 0 then .ok (distSq p a)
  else
    let bp := p - b
    let d3 := mathDot ab bp
    let d4 := mathDot ac bp
    if 0 ≤ d3 ∧ d4 ≤ d3 then .ok (distSq p b)
    else
      let vc := d1 * d4 - d3 * d2
      if vc ≤ 0 ∧ 0 ≤ d1 ∧ d3 ≤ 0 then
        if d1 - d3 ≠ 0 then .ok (distSq p (a + (d1 / (d1 - d3)) • ab)) else .error .failure
      else
        let cp := p - c
        let d5 := mathDot ab cp
        let d6 := mathDot ac cp
        if 0 ≤ d6 ∧ d5 ≤ d6 then .ok (distSq p c)
        else
          let vb := d5 * d2 - d1 * d6
          if vb ≤ 0 ∧ 0 ≤ d2 ∧ d6 ≤ 0 then
            if d2 - d6 ≠ 0 then .ok (distSq p (a + (d2 / (d2 - d6)) • ac)) else .error .failure
          else
            let va := d3 * d6 - d5 * d4
            if va ≤ 0 ∧ 0 ≤ d4 - d3 ∧ 0 ≤ d5 - d6 then
              if (d4 - d3) + (d5 - d6) ≠ 0 then
                .ok (distSq p (b + ((d4 - d3) / ((d4 - d3) + (d5 - d6))) • (c - b)))
              else .error .failure
            else if va + vb + vc ≠ 0 then
              .ok (distSq p (a + (vb / (va + vb + vc)) • ab + (vc / (va + vb + vc)) • ac))
            else .error .failure

/-! ## Nearest points of a hull -/

/-- The value is the least squared distance from `p` to the set. -/
def LeastDistSq (p : Fin 3 → K) (s : Set (Fin 3 → K)) (d : K) : Prop :=
  IsLeast (distSq p '' s) d

/-- A set with the nearest point of a larger one. -/
theorem LeastDistSq.mono {p : Fin 3 → K} {s t : Set (Fin 3 → K)} {d : K} (h : LeastDistSq p s d)
    (hst : s ⊆ t) (hts : ∀ q ∈ t, d ≤ distSq p q) : LeastDistSq p t d := by
  obtain ⟨⟨x, hx, rfl⟩, _⟩ := h
  refine ⟨⟨x, hst hx, rfl⟩, fun e he => ?_⟩
  obtain ⟨q, hq, rfl⟩ := he
  exact hts q hq

theorem LeastDistSq.le {p : Fin 3 → K} {s : Set (Fin 3 → K)} {d : K} (h : LeastDistSq p s d)
    {q : Fin 3 → K} (hq : q ∈ s) : d ≤ distSq p q := h.2 ⟨q, hq, rfl⟩

/-- The sides of a triangle. -/
def sidesOfTriangle (a b c : Fin 3 → K) : Set (Fin 3 → K) :=
  convexHull K {a, b} ∪ convexHull K {b, c} ∪ convexHull K {c, a}

theorem sidesOfTriangle_subset (a b c : Fin 3 → K) :
    sidesOfTriangle a b c ⊆ convexHull K {a, b, c} := by
  intro x hx
  rcases hx with (hx | hx) | hx
  · exact convexHull_mono (by intro y hy; rcases hy with rfl | rfl <;> simp) hx
  · exact convexHull_mono (by intro y hy; rcases hy with rfl | rfl <;> simp) hx
  · exact convexHull_mono (by intro y hy; rcases hy with rfl | rfl <;> simp) hx

section Nearest

variable [IsStrictOrderedRing K]

theorem mathDot_self_nonneg (u : Fin 3 → K) : 0 ≤ mathDot u u := by
  have h0 := mul_self_nonneg (u 0)
  have h1 := mul_self_nonneg (u 1)
  have h2 := mul_self_nonneg (u 2)
  rw [mathDot]
  linarith

theorem mathDot_self_eq_zero {u : Fin 3 → K} (h : mathDot u u = 0) : u = 0 := by
  have h0 := mul_self_nonneg (u 0)
  have h1 := mul_self_nonneg (u 1)
  have h2 := mul_self_nonneg (u 2)
  rw [mathDot] at h
  funext i
  fin_cases i
  · exact mul_self_eq_zero.mp (by simp only [Fin.zero_eta]; linarith)
  · exact mul_self_eq_zero.mp (by simp only [Fin.mk_one]; linarith)
  · exact mul_self_eq_zero.mp (by simp only [Fin.reduceFinMk]; linarith)

/-- The side of `x` away from `p` is convex. -/
theorem convex_behind (p x : Fin 3 → K) : Convex K {q | mathDot (p - x) (q - x) ≤ 0} := by
  intro y hy z hz s t hs ht hst
  have hsplit : s • y + t • z - x = s • (y - x) + t • (z - x) := by
    have hx : x = s • x + t • x := by rw [← add_smul, hst, one_smul]
    nth_rewrite 1 [hx]
    rw [smul_sub, smul_sub]
    abel
  have h1 := mul_nonneg hs (neg_nonneg.mpr hy)
  have h2 := mul_nonneg ht (neg_nonneg.mpr hz)
  change mathDot (p - x) (s • y + t • z - x) ≤ 0
  rw [hsplit, mathDot_add_smul]
  linarith

/-- **A point from which no vertex lies toward the query is nearest.** -/
theorem leastDistSq_of_obtuse {p x : Fin 3 → K} {s : Set (Fin 3 → K)} (hx : x ∈ convexHull K s)
    (hobtuse : ∀ v ∈ s, mathDot (p - x) (v - x) ≤ 0) :
    LeastDistSq p (convexHull K s) (distSq p x) := by
  refine ⟨⟨x, hx, rfl⟩, ?_⟩
  intro d hd
  obtain ⟨q, hq, rfl⟩ := hd
  have hbehind : mathDot (p - x) (q - x) ≤ 0 := convexHull_min hobtuse (convex_behind p x) hq
  have hexpand : distSq p q =
      distSq p x + mathDot (q - x) (q - x) - 2 * mathDot (p - x) (q - x) := by
    simp only [distSq, mathDot, Pi.sub_apply]
    ring
  have hnonneg := mathDot_self_nonneg (q - x)
  linarith

/-- **`ref_search_distance2`** is the distance to the segment. -/
theorem searchDistance2_least (a b p : Fin 3 → K) :
    LeastDistSq p (convexHull K {a, b}) (searchDistance2 a b p) := by
  have ha : a ∈ convexHull K {a, b} := subset_convexHull K _ (by simp)
  have hb : b ∈ convexHull K {a, b} := subset_convexHull K _ (by simp)
  unfold searchDistance2
  by_cases hlen : mathDot (b - a) (b - a) = 0
  · have hab : b = a := sub_eq_zero.mp (mathDot_self_eq_zero hlen)
    simp only [hlen, ne_eq, not_true, if_false]
    apply leastDistSq_of_obtuse ha
    intro v hv
    have hv' : v = a := by
      rcases hv with rfl | hv
      · rfl
      · exact hv.trans hab
    simp [hv', mathDot]
  · have hpos : 0 < mathDot (b - a) (b - a) :=
      lt_of_le_of_ne (mathDot_self_nonneg _) (Ne.symm hlen)
    simp only [hlen, ne_eq, not_false_iff, if_true]
    set len := mathDot (b - a) (b - a) with hlenDef
    set proj := mathDot (p - a) (b - a) with hproj
    set t := min (max (proj / len) 0) 1 with ht
    have h0 : 0 ≤ t := le_min (le_max_right _ _) zero_le_one
    have h1 : t ≤ 1 := min_le_right _ _
    apply leastDistSq_of_obtuse ((convex_convexHull K _).add_smul_sub_mem ha hb ⟨h0, h1⟩)
    have hA : mathDot (p - (a + t • (b - a))) (a - (a + t • (b - a))) = - t * (proj - t * len) := by
      simp only [hlenDef, hproj, mathDot, Pi.sub_apply, Pi.add_apply, Pi.smul_apply, smul_eq_mul]
      ring
    have hB : mathDot (p - (a + t • (b - a))) (b - (a + t • (b - a))) =
        (1 - t) * (proj - t * len) := by
      simp only [hlenDef, hproj, mathDot, Pi.sub_apply, Pi.add_apply, Pi.smul_apply, smul_eq_mul]
      ring
    have hslope : (t = 0 ∧ proj ≤ 0) ∨ proj = t * len ∨ (t = 1 ∧ len ≤ proj) := by
      rcases le_total proj 0 with hneg | hpos'
      · have : proj / len ≤ 0 := div_nonpos_of_nonpos_of_nonneg hneg hpos.le
        exact Or.inl ⟨by rw [ht, max_eq_right this, min_eq_left zero_le_one], hneg⟩
      · have hdiv : 0 ≤ proj / len := div_nonneg hpos' hpos.le
        rcases le_total proj len with hle | hge
        · have : proj / len ≤ 1 := (div_le_one hpos).mpr hle
          refine Or.inr (Or.inl ?_)
          rw [ht, max_eq_left hdiv, min_eq_left this, div_mul_cancel₀ _ hpos.ne']
        · have : 1 ≤ proj / len := (one_le_div hpos).mpr hge
          exact Or.inr (Or.inr ⟨by rw [ht, max_eq_left hdiv, min_eq_right this], hge⟩)
    intro v hv
    rcases hv with rfl | hv
    · rw [hA]
      rcases hslope with ⟨h, _⟩ | h | ⟨h, hge⟩
      · rw [h]
        simp
      · rw [h]
        simp
      · rw [h]
        linarith
    · obtain rfl : v = b := hv
      rw [hB]
      rcases hslope with ⟨h, hneg⟩ | h | ⟨h, _⟩
      · rw [h]
        linarith
      · rw [h]
        simp
      · rw [h]
        simp

/-! ## Regions of a triangle -/

/-- Beyond a corner along its first side, a query is nearest to the second
side or to the vertex at its end. -/
theorem corner_region (E F G d1 d2 : K) (hE : 0 < E) (hdet : F * F < E * G) (h1 : d1 < 0)
    (h2 : 0 < d2) (hside : E * d2 - F * d1 ≤ 0) :
    (G * d1 - F * d2 ≤ 0 ∧ 0 ≤ d2 ∧ d2 - G ≤ 0) ∨ (0 ≤ d2 - G ∧ d1 - F ≤ d2 - G) := by
  have hF : F < 0 := by
    by_contra hF
    have hFd : F * d1 ≤ 0 := mul_nonpos_of_nonneg_of_nonpos (not_lt.mp hF) h1.le
    have hEd : 0 < E * d2 := mul_pos hE h2
    linarith
  rcases le_total (d2 - G) 0 with hle | hge
  · refine Or.inl ⟨?_, h2.le, hle⟩
    have hscaled : E * (G * d1 - F * d2) ≤ 0 := by
      have hpos : 0 ≤ (-F) * (F * d1 - E * d2) :=
        mul_nonneg (neg_nonneg.mpr hF.le) (by linarith)
      have hneg : (E * G - F * F) * d1 ≤ 0 :=
        mul_nonpos_of_nonneg_of_nonpos (by linarith) h1.le
      linarith
    exact nonpos_of_mul_nonpos_right hscaled hE
  · refine Or.inr ⟨hge, ?_⟩
    have hEG : E * G ≤ E * d2 := mul_le_mul_of_nonneg_left (by linarith) hE.le
    have hscaled : F * F < F * d1 := by linarith
    have hd1 : d1 < F := lt_of_mul_lt_mul_of_nonpos_left hscaled hF.le
    linarith

/-- A query that is in no region of a vertex or side projects into the
triangle.  `E`, `F` and `G` are the products of the sides `ab` and `ac`, `d1`
and `d2` those of the sides with the query. -/
theorem inside_of_regions {E F G d1 d2 : K} (hE : 0 < E) (hG : 0 < G) (hL : 0 < E - 2 * F + G)
    (hdet : F * F < E * G) (hA : ¬ (d1 ≤ 0 ∧ d2 ≤ 0)) (hB : ¬ (0 ≤ d1 - E ∧ d2 - F ≤ d1 - E))
    (hAB : ¬ (E * d2 - F * d1 ≤ 0 ∧ 0 ≤ d1 ∧ d1 - E ≤ 0))
    (hC : ¬ (0 ≤ d2 - G ∧ d1 - F ≤ d2 - G))
    (hAC : ¬ (G * d1 - F * d2 ≤ 0 ∧ 0 ≤ d2 ∧ d2 - G ≤ 0))
    (hBC : ¬ (E * G - F * F - (G - F) * d1 - (E - F) * d2 ≤ 0 ∧ 0 ≤ d2 - F - (d1 - E) ∧
      0 ≤ d1 - F - (d2 - G))) :
    0 < E * G - F * F - (G - F) * d1 - (E - F) * d2 ∧ 0 < G * d1 - F * d2 ∧
      0 < E * d2 - F * d1 := by
  refine ⟨?_, ?_, ?_⟩
  · -- beyond `bc`: past `b` or past `c`
    by_contra hva
    rw [not_lt] at hva
    have hends : d2 - F < d1 - E ∨ d1 - F < d2 - G := by
      by_contra hends
      rw [not_or, not_lt, not_lt] at hends
      exact hBC ⟨hva, by linarith, by linarith⟩
    rcases hends with hb | hc
    · have hd1 : d1 - E < 0 := by
        by_contra hge
        exact hB ⟨by linarith, by linarith⟩
      rcases corner_region (E - 2 * F + G) (E - F) E (d2 - F - (d1 - E)) (E - d1) hL
        (by linarith) (by linarith) (by linarith) (by linarith) with h | h
      · exact hAB ⟨by linarith [h.1], by linarith [h.2.2], by linarith⟩
      · exact hA ⟨by linarith [h.1], by linarith [h.2]⟩
    · have hd2 : d2 - G < 0 := by
        by_contra hge
        exact hC ⟨by linarith, by linarith⟩
      rcases corner_region (E - 2 * F + G) (G - F) G (d1 - F - (d2 - G)) (G - d2) hL
        (by linarith) (by linarith) (by linarith) (by linarith) with h | h
      · exact hAC ⟨by linarith [h.1], by linarith [h.2.2], by linarith⟩
      · exact hA ⟨by linarith [h.2], by linarith [h.1]⟩
  · -- beyond `ac`: past `a` or past `c`
    by_contra hvb
    rw [not_lt] at hvb
    have hends : d2 < 0 ∨ 0 < d2 - G := by
      by_contra hends
      rw [not_or, not_lt, not_lt] at hends
      exact hAC ⟨hvb, by linarith, by linarith⟩
    rcases hends with ha | hc
    · have hd1 : 0 < d1 := by
        by_contra hle
        exact hA ⟨by linarith, by linarith⟩
      rcases corner_region G F E d2 d1 hG (by linarith) ha hd1 hvb with h | h
      · exact hAB ⟨by linarith [h.1], by linarith, by linarith [h.2.2]⟩
      · exact hB ⟨h.1, h.2⟩
    · have hd5 : d2 - G < d1 - F := by
        by_contra hge
        exact hC ⟨by linarith, by linarith⟩
      rcases corner_region G (G - F) (E - 2 * F + G) (G - d2) (d1 - F - (d2 - G)) hG
        (by linarith) (by linarith) (by linarith) (by linarith) with h | h
      · exact hBC ⟨by linarith [h.1], by linarith [h.2.2], by linarith⟩
      · exact hB ⟨by linarith [h.2], by linarith [h.1]⟩
  · -- beyond `ab`: past `a` or past `b`
    by_contra hvc
    rw [not_lt] at hvc
    have hends : d1 < 0 ∨ 0 < d1 - E := by
      by_contra hends
      rw [not_or, not_lt, not_lt] at hends
      exact hAB ⟨hvc, by linarith, by linarith⟩
    rcases hends with ha | hb
    · have hd2 : 0 < d2 := by
        by_contra hle
        exact hA ⟨by linarith, by linarith⟩
      rcases corner_region E F G d1 d2 hE hdet ha hd2 hvc with h | h
      · exact hAC h
      · exact hC h
    · have hd4 : d1 - E < d2 - F := by
        by_contra hge
        exact hB ⟨by linarith, by linarith⟩
      rcases corner_region E (E - F) (E - 2 * F + G) (E - d1) (d2 - F - (d1 - E)) hE
        (by linarith) (by linarith) (by linarith) (by linarith) with h | h
      · exact hBC ⟨by linarith [h.1], by linarith, by linarith [h.2.2]⟩
      · exact hC ⟨by linarith [h.2], by linarith [h.1]⟩

/-- A point of a triangle by its coordinates along `ab` and `ac`. -/
def trianglePoint (a b c : Fin 3 → K) (v w : K) : Fin 3 → K := a + v • (b - a) + w • (c - a)

theorem trianglePoint_mem (a b c : Fin 3 → K) {v w : K} (hv : 0 ≤ v) (hw : 0 ≤ w)
    (hvw : v + w ≤ 1) : trianglePoint a b c v w ∈ convexHull K {a, b, c} := by
  have hconv := convex_convexHull K ({a, b, c} : Set (Fin 3 → K))
  have ha : a ∈ convexHull K {a, b, c} := subset_convexHull K _ (by simp)
  have hb : b ∈ convexHull K {a, b, c} := subset_convexHull K _ (by simp)
  have hc : c ∈ convexHull K {a, b, c} := subset_convexHull K _ (by simp)
  rcases eq_or_lt_of_le (add_nonneg hv hw) with hzero | hpos
  · have hv0 : v = 0 := by linarith
    have hw0 : w = 0 := by linarith
    simpa [trianglePoint, hv0, hw0] using ha
  · -- from `a` toward a point of `bc`
    have hfrac : 0 ≤ w / (v + w) ∧ w / (v + w) ≤ 1 :=
      ⟨div_nonneg hw hpos.le, (div_le_one hpos).mpr (by linarith)⟩
    have hside := hconv.add_smul_sub_mem hb hc hfrac
    have hpoint := hconv.add_smul_sub_mem ha hside ⟨hpos.le, hvw⟩
    have heq : a + (v + w) • (b + (w / (v + w)) • (c - b) - a) = trianglePoint a b c v w := by
      funext i
      simp only [trianglePoint, Pi.add_apply, Pi.smul_apply, Pi.sub_apply, smul_eq_mul]
      field_simp
      ring
    rw [heq] at hpoint
    exact hpoint

/-- The conditions for a point of the triangle to be nearest, by the products
of the sides with the query. -/
theorem leastDistSq_triangle (a b c p : Fin 3 → K) {v w : K} (hv : 0 ≤ v) (hw : 0 ≤ w)
    (hvw : v + w ≤ 1) {S1 S2 : K}
    (hS1 : S1 = mathDot (b - a) (p - a) - v * mathDot (b - a) (b - a) - w * mathDot (b - a) (c - a))
    (hS2 : S2 = mathDot (c - a) (p - a) - v * mathDot (b - a) (c - a) - w * mathDot (c - a) (c - a))
    (h0 : 0 ≤ v * S1 + w * S2) (h1 : S1 ≤ v * S1 + w * S2) (h2 : S2 ≤ v * S1 + w * S2) :
    LeastDistSq p (convexHull K {a, b, c}) (distSq p (trianglePoint a b c v w)) := by
  apply leastDistSq_of_obtuse (trianglePoint_mem a b c hv hw hvw)
  set x := trianglePoint a b c v w with hx
  have hA : mathDot (p - x) (a - x) = - (v * S1 + w * S2) := by
    rw [hS1, hS2]
    simp only [hx, trianglePoint, mathDot, Pi.sub_apply, Pi.add_apply, Pi.smul_apply, smul_eq_mul]
    ring
  have hB : mathDot (p - x) (b - x) = S1 - (v * S1 + w * S2) := by
    rw [hS1, hS2]
    simp only [hx, trianglePoint, mathDot, Pi.sub_apply, Pi.add_apply, Pi.smul_apply, smul_eq_mul]
    ring
  have hC : mathDot (p - x) (c - x) = S2 - (v * S1 + w * S2) := by
    rw [hS1, hS2]
    simp only [hx, trianglePoint, mathDot, Pi.sub_apply, Pi.add_apply, Pi.smul_apply, smul_eq_mul]
    ring
  intro q hq
  rcases hq with rfl | rfl | hq
  · rw [hA]
    linarith
  · rw [hB]
    linarith
  · obtain rfl : q = c := hq
    rw [hC]
    linarith

/-- The foot of the query on a side is nearest when the third vertex is not
toward the query. -/
theorem leastDistSq_foot (x y z p : Fin 3 → K) (hlen : 0 < mathDot (y - x) (y - x))
    (h0 : 0 ≤ mathDot (y - x) (p - x)) (h1 : mathDot (y - x) (p - x) ≤ mathDot (y - x) (y - x))
    (hz : mathDot (y - x) (y - x) * mathDot (z - x) (p - x) ≤
      mathDot (y - x) (p - x) * mathDot (y - x) (z - x)) :
    LeastDistSq p (convexHull K {x, y, z})
      (distSq p (x + (mathDot (y - x) (p - x) / mathDot (y - x) (y - x)) • (y - x))) := by
  have hpoint (t : K) : x + t • (y - x) = trianglePoint x y z t 0 := by simp [trianglePoint]
  rw [hpoint]
  have hleast := @leastDistSq_triangle K _ _ _ x y z p
  set len := mathDot (y - x) (y - x)
  set proj := mathDot (y - x) (p - x)
  have hfoot : proj - proj / len * len - 0 * mathDot (y - x) (z - x) = 0 := by
    field_simp
    ring
  have hbeyond : mathDot (z - x) (p - x) - proj / len * mathDot (y - x) (z - x) -
      0 * mathDot (z - x) (z - x) ≤ 0 := by
    have hscaled : mathDot (z - x) (p - x) - proj / len * mathDot (y - x) (z - x) -
        0 * mathDot (z - x) (z - x) =
          (len * mathDot (z - x) (p - x) - proj * mathDot (y - x) (z - x)) / len := by
      field_simp
      ring
    rw [hscaled]
    exact div_nonpos_of_nonpos_of_nonneg (by linarith) hlen.le
  apply hleast (div_nonneg h0 hlen.le) le_rfl _ rfl rfl
  · rw [hfoot]
    linarith
  · rw [hfoot]
    linarith
  · rw [hfoot]
    linarith
  · rw [add_zero]
    exact (div_le_one hlen).mpr h1

/-- The projection of the query into the plane of the triangle is nearest when
no barycentric number is negative. -/
theorem leastDistSq_inside {a b c p : Fin 3 → K}
    (hdet : mathDot (b - a) (c - a) * mathDot (b - a) (c - a) <
      mathDot (b - a) (b - a) * mathDot (c - a) (c - a))
    {va vb vc total : K}
    (hvb : vb = mathDot (c - a) (c - a) * mathDot (b - a) (p - a) -
      mathDot (b - a) (c - a) * mathDot (c - a) (p - a))
    (hvc : vc = mathDot (b - a) (b - a) * mathDot (c - a) (p - a) -
      mathDot (b - a) (c - a) * mathDot (b - a) (p - a))
    (htotal : total = mathDot (b - a) (b - a) * mathDot (c - a) (c - a) -
      mathDot (b - a) (c - a) * mathDot (b - a) (c - a))
    (hsum : va + vb + vc = total) (h0 : 0 ≤ va) (h1 : 0 ≤ vb) (h2 : 0 ≤ vc) :
    LeastDistSq p (convexHull K {a, b, c})
      (distSq p (trianglePoint a b c (vb / total) (vc / total))) := by
  have hleast := @leastDistSq_triangle K _ _ _ a b c p
  set E := mathDot (b - a) (b - a)
  set F := mathDot (b - a) (c - a)
  set G := mathDot (c - a) (c - a)
  set d1 := mathDot (b - a) (p - a)
  set d2 := mathDot (c - a) (p - a)
  have hpos : 0 < total := by linarith
  have hfoot1 : d1 - vb / total * E - vc / total * F = 0 := by
    field_simp
    rw [hvb, hvc, htotal]
    ring
  have hfoot2 : d2 - vb / total * F - vc / total * G = 0 := by
    field_simp
    rw [hvb, hvc, htotal]
    ring
  apply hleast (div_nonneg h1 hpos.le) (div_nonneg h2 hpos.le) _ rfl rfl
  · rw [hfoot1, hfoot2]
    linarith
  · rw [hfoot1, hfoot2]
    linarith
  · rw [hfoot1, hfoot2]
    linarith
  · rw [← add_div]
    exact (div_le_one hpos).mpr (by linarith)

/-! ## The two searches -/

/-- The products of the sides of a triangle that has area. -/
theorem gram_pos {a b c : Fin 3 → K} (harea : searchXyzNormal a b c ≠ 0) :
    mathDot (b - a) (c - a) * mathDot (b - a) (c - a) <
        mathDot (b - a) (b - a) * mathDot (c - a) (c - a) ∧
      0 < mathDot (b - a) (b - a) ∧ 0 < mathDot (c - a) (c - a) ∧
      0 < mathDot (b - a) (b - a) - 2 * mathDot (b - a) (c - a) + mathDot (c - a) (c - a) := by
  have hnormal : 0 < mathDot (searchXyzNormal a b c) (searchXyzNormal a b c) := by
    apply lt_of_le_of_ne (mathDot_self_nonneg _)
    intro h
    exact harea (mathDot_self_eq_zero h.symm)
  have hlagrange : mathDot (searchXyzNormal a b c) (searchXyzNormal a b c) =
      mathDot (b - a) (b - a) * mathDot (c - a) (c - a) -
        mathDot (b - a) (c - a) * mathDot (b - a) (c - a) := by
    simp only [searchXyzNormal, mathCrossProduct, mathDot, Pi.sub_apply, Matrix.cons_val]
    ring
  have hside : mathDot (c - b) (c - b) =
      mathDot (b - a) (b - a) - 2 * mathDot (b - a) (c - a) + mathDot (c - a) (c - a) := by
    simp only [mathDot, Pi.sub_apply]
    ring
  have hdet : mathDot (b - a) (c - a) * mathDot (b - a) (c - a) <
      mathDot (b - a) (b - a) * mathDot (c - a) (c - a) := by linarith
  have hsquare := mul_self_nonneg (mathDot (b - a) (c - a))
  have hE : 0 < mathDot (b - a) (b - a) := by
    apply lt_of_le_of_ne (mathDot_self_nonneg _)
    intro h
    rw [← h, zero_mul] at hdet
    linarith
  have hG : 0 < mathDot (c - a) (c - a) := by
    apply lt_of_le_of_ne (mathDot_self_nonneg _)
    intro h
    rw [← h, mul_zero] at hdet
    linarith
  refine ⟨hdet, hE, hG, ?_⟩
  rw [← hside]
  apply lt_of_le_of_ne (mathDot_self_nonneg _)
  intro h
  -- with `b = c` the two products along the sides agree
  have hcb : c = b := sub_eq_zero.mp (mathDot_self_eq_zero h.symm)
  rw [hcb] at hdet
  exact lt_irrefl _ hdet

/-- **`ref_search_dist3` on a triangle with area.**  No division fails and the
result is the distance to the triangle, at a point of a side unless the query
projects into the triangle. -/
theorem searchDist3_least {a b c : Fin 3 → K} (p : Fin 3 → K)
    (harea : searchXyzNormal a b c ≠ 0) :
    ∃ d, searchDist3 a b c p = .ok d ∧ LeastDistSq p (convexHull K {a, b, c}) d ∧
      ((∃ x ∈ sidesOfTriangle a b c, d = distSq p x) ∨
        0 < mathDot (searchXyzNormal p b c) (searchXyzNormal a b c) ∧
        0 < mathDot (searchXyzNormal a p c) (searchXyzNormal a b c) ∧
        0 < mathDot (searchXyzNormal a b p) (searchXyzNormal a b c)) := by
  obtain ⟨hdet, hE, hG, hL⟩ := gram_pos harea
  obtain ⟨hbary0, hbary1, hbary2⟩ := bary_products a b c p
  rw [hbary0, hbary1, hbary2]
  have h3 := mathDot_base (b - a) p a b
  have h4 := mathDot_base (c - a) p a b
  have h5 := mathDot_base (b - a) p a c
  have h6 := mathDot_base (c - a) p a c
  rw [mathDot_comm (c - a) (b - a)] at h4
  have hleast := @leastDistSq_triangle K _ _ _ a b c p
  have hfootAB := leastDistSq_foot a b c p
  have hfootAC := leastDistSq_foot a c b p
  have hfootBC := leastDistSq_foot b c a p
  have hsetAC : ({a, c, b} : Set (Fin 3 → K)) = {a, b, c} := by rw [Set.pair_comm]
  have hsetBC : ({b, c, a} : Set (Fin 3 → K)) = {a, b, c} := by
    rw [Set.pair_comm, Set.insert_comm]
  rw [hsetAC, mathDot_comm (c - a) (b - a)] at hfootAC
  have hBC : mathDot (c - b) (c - b) =
      mathDot (b - a) (b - a) - 2 * mathDot (b - a) (c - a) + mathDot (c - a) (c - a) := by
    simp only [mathDot, Pi.sub_apply]
    ring
  have hBP : mathDot (c - b) (p - b) = mathDot (c - a) (p - b) - mathDot (b - a) (p - b) := by
    simp only [mathDot, Pi.sub_apply]
    ring
  have hBA : mathDot (c - b) (a - b) = mathDot (b - a) (b - a) - mathDot (b - a) (c - a) := by
    simp only [mathDot, Pi.sub_apply]
    ring
  have hAP : mathDot (a - b) (p - b) = mathDot (b - a) (b - a) - mathDot (b - a) (p - a) := by
    simp only [mathDot, Pi.sub_apply]
    ring
  rw [hsetBC, hBC, hBP, hBA, hAP, h3, h4] at hfootBC
  have hends (x y : Fin 3 → K) : x ∈ convexHull K {x, y} := subset_convexHull K _ (by simp)
  have hfoot (x y : Fin 3 → K) {s : K} (h0 : 0 ≤ s) (h1 : s ≤ 1) :
      x + s • (y - x) ∈ convexHull K {x, y} :=
    (convex_convexHull K _).add_smul_sub_mem (hends x y)
      (subset_convexHull K _ (by simp)) ⟨h0, h1⟩
  have hsideA : a ∈ sidesOfTriangle a b c := Or.inl (Or.inl (hends a b))
  have hsideB : b ∈ sidesOfTriangle a b c := Or.inl (Or.inr (hends b c))
  have hsideC : c ∈ sidesOfTriangle a b c := Or.inr (hends c a)
  have hpointA : distSq p a = distSq p (trianglePoint a b c 0 0) := by simp [trianglePoint]
  have hpointB : distSq p b = distSq p (trianglePoint a b c 1 0) := by simp [trianglePoint]
  have hpointC : distSq p c = distSq p (trianglePoint a b c 0 1) := by simp [trianglePoint]
  simp only [searchDist3, h3, h4, h5, h6]
  set E := mathDot (b - a) (b - a)
  set F := mathDot (b - a) (c - a)
  set G := mathDot (c - a) (c - a)
  set d1 := mathDot (b - a) (p - a)
  set d2 := mathDot (c - a) (p - a)
  have hvc : d1 * (d2 - F) - (d1 - E) * d2 = E * d2 - F * d1 := by ring
  have hvb : (d1 - F) * d2 - d1 * (d2 - G) = G * d1 - F * d2 := by ring
  have hva : (d1 - E) * (d2 - G) - (d1 - F) * (d2 - F) =
      E * G - F * F - (G - F) * d1 - (E - F) * d2 := by ring
  have hlenAB : d1 - (d1 - E) = E := by ring
  have hlenAC : d2 - (d2 - G) = G := by ring
  have hlenBC : d2 - F - (d1 - E) + (d1 - F - (d2 - G)) = E - 2 * F + G := by ring
  have htotal : E * G - F * F - (G - F) * d1 - (E - F) * d2 + (G * d1 - F * d2) +
      (E * d2 - F * d1) = E * G - F * F := by ring
  rw [hvc, hvb, hva, hlenAB, hlenAC, hlenBC, htotal]
  by_cases hA : d1 ≤ 0 ∧ d2 ≤ 0
  · rw [if_pos hA]
    refine ⟨_, rfl, ?_, Or.inl ⟨_, hsideA, rfl⟩⟩
    rw [hpointA]
    apply hleast le_rfl le_rfl (by linarith) rfl rfl <;> linarith
  rw [if_neg hA]
  by_cases hB : 0 ≤ d1 - E ∧ d2 - F ≤ d1 - E
  · rw [if_pos hB]
    refine ⟨_, rfl, ?_, Or.inl ⟨_, hsideB, rfl⟩⟩
    rw [hpointB]
    apply hleast zero_le_one le_rfl (by linarith) rfl rfl <;> linarith
  rw [if_neg hB]
  by_cases hAB : E * d2 - F * d1 ≤ 0 ∧ 0 ≤ d1 ∧ d1 - E ≤ 0
  · rw [if_pos hAB, if_pos hE.ne']
    have hon := hfoot a b (div_nonneg hAB.2.1 hE.le) ((div_le_one hE).mpr (by linarith))
    exact ⟨_, rfl, hfootAB hE hAB.2.1 (by linarith) (by linarith),
      Or.inl ⟨_, Or.inl (Or.inl hon), rfl⟩⟩
  rw [if_neg hAB]
  by_cases hC : 0 ≤ d2 - G ∧ d1 - F ≤ d2 - G
  · rw [if_pos hC]
    refine ⟨_, rfl, ?_, Or.inl ⟨_, hsideC, rfl⟩⟩
    rw [hpointC]
    apply hleast le_rfl zero_le_one (by linarith) rfl rfl <;> linarith
  rw [if_neg hC]
  by_cases hAC : G * d1 - F * d2 ≤ 0 ∧ 0 ≤ d2 ∧ d2 - G ≤ 0
  · rw [if_pos hAC, if_pos hG.ne']
    have hon := hfoot a c (div_nonneg hAC.2.1 hG.le) ((div_le_one hG).mpr (by linarith))
    rw [Set.pair_comm] at hon
    exact ⟨_, rfl, hfootAC hG hAC.2.1 (by linarith) (by linarith), Or.inl ⟨_, Or.inr hon, rfl⟩⟩
  rw [if_neg hAC]
  by_cases hBC : E * G - F * F - (G - F) * d1 - (E - F) * d2 ≤ 0 ∧ 0 ≤ d2 - F - (d1 - E) ∧
      0 ≤ d1 - F - (d2 - G)
  · rw [if_pos hBC, if_pos hL.ne']
    have hon := hfoot b c (div_nonneg hBC.2.1 hL.le) ((div_le_one hL).mpr (by linarith))
    exact ⟨_, rfl, hfootBC hL hBC.2.1 (by linarith) (by linarith),
      Or.inl ⟨_, Or.inl (Or.inr hon), rfl⟩⟩
  rw [if_neg hBC]
  obtain ⟨hva0, hvb0, hvc0⟩ := inside_of_regions hE hG hL hdet hA hB hAB hC hAC hBC
  have hDelta : 0 < E * G - F * F := by linarith
  rw [if_pos hDelta.ne']
  exact ⟨_, rfl, leastDistSq_inside hdet rfl rfl rfl htotal hva0.le hvb0.le hvc0.le,
    Or.inr ⟨hva0, hvb0, hvc0⟩⟩

/-- The least of the three segment distances. -/
theorem edges_least (a b c p : Fin 3 → K) :
    LeastDistSq p (sidesOfTriangle a b c)
      (min (min (searchDistance2 a b p) (searchDistance2 b c p)) (searchDistance2 c a p)) := by
  have hab := searchDistance2_least a b p
  have hbc := searchDistance2_least b c p
  have hca := searchDistance2_least c a p
  have hmono {s : Set (Fin 3 → K)} {d : K} (h : LeastDistSq p s d)
      (hs : s ⊆ sidesOfTriangle a b c) : d ∈ distSq p '' sidesOfTriangle a b c :=
    Set.image_mono hs h.1
  constructor
  · rcases min_choice (min (searchDistance2 a b p) (searchDistance2 b c p))
      (searchDistance2 c a p) with h | h
    · rw [h]
      rcases min_choice (searchDistance2 a b p) (searchDistance2 b c p) with h | h
      · rw [h]
        exact hmono hab fun x hx => Or.inl (Or.inl hx)
      · rw [h]
        exact hmono hbc fun x hx => Or.inl (Or.inr hx)
    · rw [h]
      exact hmono hca fun x hx => Or.inr hx
  · intro d hd
    obtain ⟨q, (hq | hq) | hq, rfl⟩ := hd
    · exact (min_le_left _ _).trans ((min_le_left _ _).trans (hab.le hq))
    · exact (min_le_left _ _).trans ((min_le_right _ _).trans (hbc.le hq))
    · exact (min_le_right _ _).trans (hca.le hq)

/-- Without area, one vertex lies between the other two. -/
theorem subset_sidesOfTriangle {a b c : Fin 3 → K} (harea : searchXyzNormal a b c = 0) :
    convexHull K {a, b, c} ⊆ sidesOfTriangle a b c := by
  have hends (x y : Fin 3 → K) : x ∈ convexHull K {x, y} := subset_convexHull K _ (by simp)
  have hends' (x y : Fin 3 → K) : y ∈ convexHull K {x, y} := subset_convexHull K _ (by simp)
  have hbetween (x y z : Fin 3 → K) (hz : z ∈ convexHull K {x, y}) :
      convexHull K {x, y, z} ⊆ convexHull K {x, y} := by
    apply convexHull_min _ (convex_convexHull K _)
    intro v hv
    rcases hv with rfl | rfl | hv
    · exact hends _ _
    · exact hends' _ _
    · obtain rfl : v = z := hv
      exact hz
  have hsegment {x y z : Fin 3 → K} {s : K} (h0 : 0 ≤ s) (h1 : s ≤ 1)
      (hz : z = x + s • (y - x)) : convexHull K {x, y, z} ⊆ convexHull K {x, y} := by
    apply hbetween
    rw [hz]
    exact (convex_convexHull K _).add_smul_sub_mem (hends x y) (hends' x y) ⟨h0, h1⟩
  by_cases hab : mathDot (b - a) (b - a) = 0
  · have hba : b = a := sub_eq_zero.mp (mathDot_self_eq_zero hab)
    intro x hx
    rw [hba, Set.insert_eq_of_mem (by simp), Set.pair_comm] at hx
    exact Or.inr hx
  · -- `c` is on the line of `a` and `b`
    have hlagrange : mathDot (searchXyzNormal a b c) (searchXyzNormal a b c) =
        mathDot (b - a) (b - a) * mathDot (c - a) (c - a) -
          mathDot (b - a) (c - a) * mathDot (b - a) (c - a) := by
      simp only [searchXyzNormal, mathCrossProduct, mathDot, Pi.sub_apply, Matrix.cons_val]
      ring
    have hzero : mathDot (searchXyzNormal a b c) (searchXyzNormal a b c) = 0 := by
      rw [harea]
      simp [mathDot]
    set s := mathDot (b - a) (c - a) / mathDot (b - a) (b - a) with hs
    have hline : c = a + s • (b - a) := by
      have hdist : mathDot (c - a - s • (b - a)) (c - a - s • (b - a)) = 0 := by
        have hexpand : mathDot (c - a - s • (b - a)) (c - a - s • (b - a)) =
            mathDot (c - a) (c - a) - 2 * s * mathDot (b - a) (c - a) +
              s * s * mathDot (b - a) (b - a) := by
          simp only [mathDot, Pi.sub_apply, Pi.smul_apply, smul_eq_mul]
          ring
        rw [hexpand, hs]
        field_simp
        linarith
      have := mathDot_self_eq_zero hdist
      rw [sub_eq_zero, sub_eq_iff_eq_add] at this
      rw [this, add_comm]
    rcases lt_or_ge s 0 with hneg | hnonneg
    · have hpos : 0 < 1 - s := by linarith
      have ha : a = b + (1 / (1 - s)) • (c - b) := by
        funext i
        rw [hline]
        simp only [Pi.add_apply, Pi.smul_apply, Pi.sub_apply, smul_eq_mul]
        field_simp
        ring
      have hsub := hsegment (by positivity) ((div_le_one hpos).mpr (by linarith)) ha
      intro x hx
      rw [Set.insert_comm, Set.pair_comm] at hx
      exact Or.inl (Or.inr (hsub hx))
    rcases le_or_gt s 1 with hle | hgt
    · intro x hx
      exact Or.inl (Or.inl (hsegment hnonneg hle hline hx))
    · have hpos : 0 < s := by linarith
      have hb : b = a + (1 / s) • (c - a) := by
        funext i
        rw [hline]
        simp only [Pi.add_apply, Pi.smul_apply, Pi.sub_apply, smul_eq_mul]
        field_simp
        ring
      have hsub := hsegment (by positivity) ((div_le_one hpos).mpr hgt.le) hb
      intro x hx
      rw [Set.pair_comm b c] at hx
      have hx := hsub hx
      rw [Set.pair_comm] at hx
      exact Or.inr hx

/-- **`ref_search_distance3`** is the distance to the triangle. -/
theorem searchDistance3_least (a b c p : Fin 3 → K) :
    LeastDistSq p (convexHull K {a, b, c}) (searchDistance3 a b c p) := by
  have hedges := edges_least a b c p
  have hproject : p - a - mathDot (p - a) (searchXyzNormal a b c) • searchXyzNormal a b c + a =
      p + (- mathDot (p - a) (searchXyzNormal a b c)) • searchXyzNormal a b c := by
    rw [neg_smul]
    abel
  obtain ⟨hoff0, -, -⟩ := searchXyzNormal_offset p b c (searchXyzNormal a b c)
    (- mathDot (p - a) (searchXyzNormal a b c))
  obtain ⟨-, hoff1, -⟩ := searchXyzNormal_offset p a c (searchXyzNormal a b c)
    (- mathDot (p - a) (searchXyzNormal a b c))
  obtain ⟨-, -, hoff2⟩ := searchXyzNormal_offset p a b (searchXyzNormal a b c)
    (- mathDot (p - a) (searchXyzNormal a b c))
  obtain ⟨hbary0, hbary1, hbary2⟩ := bary_products a b c p
  simp only [searchDistance3, hproject, hoff0, hoff1, hoff2]
  by_cases harea : searchXyzNormal a b c = 0
  · have htotal : mathDot (searchXyzNormal p b c) (searchXyzNormal a b c) +
        mathDot (searchXyzNormal a p c) (searchXyzNormal a b c) +
        mathDot (searchXyzNormal a b p) (searchXyzNormal a b c) = 0 := by
      rw [harea]
      simp [mathDot]
    rw [if_neg (not_not.mpr htotal)]
    exact hedges.mono (sidesOfTriangle_subset a b c)
      fun q hq => hedges.le (subset_sidesOfTriangle harea hq)
  · obtain ⟨hdet, -, -, -⟩ := gram_pos harea
    obtain ⟨d, -, hleast, hregion⟩ := searchDist3_least p harea
    set va := mathDot (searchXyzNormal p b c) (searchXyzNormal a b c)
    set vb := mathDot (searchXyzNormal a p c) (searchXyzNormal a b c)
    set vc := mathDot (searchXyzNormal a b p) (searchXyzNormal a b c)
    have hsum : va + vb + vc = mathDot (b - a) (b - a) * mathDot (c - a) (c - a) -
        mathDot (b - a) (c - a) * mathDot (b - a) (c - a) := by
      rw [hbary0, hbary1, hbary2]
      ring
    have hpos : 0 < va + vb + vc := by linarith
    rw [if_pos hpos.ne']
    by_cases hin : 0 ≤ va / (va + vb + vc) ∧ 0 ≤ vb / (va + vb + vc) ∧ 0 ≤ vc / (va + vb + vc)
    · rw [if_pos hin]
      have hsign (x : K) (hx : 0 ≤ x / (va + vb + vc)) : 0 ≤ x := by
        by_contra hneg
        exact absurd (div_neg_of_neg_of_pos (not_le.mp hneg) hpos) (not_lt.mpr hx)
      have hinside := leastDistSq_inside hdet hbary1 hbary2 hsum rfl (hsign _ hin.1)
        (hsign _ hin.2.1) (hsign _ hin.2.2)
      have hpoint : (va / (va + vb + vc)) • a + (vb / (va + vb + vc)) • b +
          (vc / (va + vb + vc)) • c =
            trianglePoint a b c (vb / (va + vb + vc)) (vc / (va + vb + vc)) := by
        funext i
        simp only [trianglePoint, Pi.add_apply, Pi.smul_apply, Pi.sub_apply, smul_eq_mul]
        field_simp
        ring
      have hsym (x : Fin 3 → K) : mathDot (x - p) (x - p) = distSq p x := by
        simp only [distSq, mathDot, Pi.sub_apply]
        ring
      rw [hpoint, hsym]
      exact hinside
    · -- a negative number: the query does not project inside, so a side is nearest
      rw [if_neg hin]
      have hside : ∃ x ∈ sidesOfTriangle a b c, d = distSq p x := by
        rcases hregion with hside | ⟨h0, h1, h2⟩
        · exact hside
        · exact absurd ⟨div_nonneg h0.le hpos.le, div_nonneg h1.le hpos.le,
            div_nonneg h2.le hpos.le⟩ hin
      obtain ⟨x, hx, hdx⟩ := hside
      apply hedges.mono (sidesOfTriangle_subset a b c)
      intro q hq
      have hxle := hedges.le hx
      have hdle := hleast.le hq
      rw [← hdx] at hxle
      exact hxle.trans hdle

/-- **The two distances to a triangle.**  The barycentric search gives the
distance for every triangle, and the region search gives the same where the
triangle has area. -/
theorem searchDistance3_eq_searchDist3 (a b c p : Fin 3 → K) :
    LeastDistSq p (convexHull K {a, b, c}) (searchDistance3 a b c p) ∧
      (searchXyzNormal a b c ≠ 0 →
        searchDist3 a b c p = .ok (searchDistance3 a b c p)) := by
  refine ⟨searchDistance3_least a b c p, fun harea => ?_⟩
  obtain ⟨d, hd, hleast, -⟩ := searchDist3_least p harea
  rw [hd, hleast.unique (searchDistance3_least a b c p)]

end Nearest

/-- A query over the interior of a triangle. -/
theorem searchDistance3_eq_searchDist3_unit :
    LeastDistSq (![1 / 4, 1 / 4, 2] : Fin 3 → ℚ)
        (convexHull ℚ {![0, 0, 0], ![1, 0, 0], ![0, 1, 0]})
        (searchDistance3 ![0, 0, 0] ![1, 0, 0] ![0, 1, 0] ![1 / 4, 1 / 4, 2]) ∧
      searchDist3 (![0, 0, 0] : Fin 3 → ℚ) ![1, 0, 0] ![0, 1, 0] ![1 / 4, 1 / 4, 2] =
        .ok (searchDistance3 ![0, 0, 0] ![1, 0, 0] ![0, 1, 0] ![1 / 4, 1 / 4, 2]) := by
  obtain ⟨hleast, hsame⟩ := searchDistance3_eq_searchDist3 (![0, 0, 0] : Fin 3 → ℚ) ![1, 0, 0]
    ![0, 1, 0] ![1 / 4, 1 / 4, 2]
  refine ⟨hleast, hsame fun h => ?_⟩
  have h2 := congrFun h 2
  simp [searchXyzNormal, mathCrossProduct] at h2

end RefineMesh
