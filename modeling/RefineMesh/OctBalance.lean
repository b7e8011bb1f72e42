import Mathlib.Tactic
import RefineMesh.OctFind

/-!
# The balance of the octree

`ref_oct_gradation` lets every leaf refine its neighbourhood: the box of the
leaf, scaled, cuts what is wider than twice the leaf.  On the cubes this is what
a graded tree has to have, since nothing but the cubes that touch lies in the
scaled box.  A round that adds no row has met no leaf that forces a cut.
-/

namespace RefineMesh

open Octree Fueled

namespace RefOct

variable {K : Type}

/-- The cube touches a cell that is finer by two levels. -/
def Forced (t : RefOct K) (c : Cube) : Prop :=
  ∃ e, Cell t.cut e ∧ c.Touch e ∧ c.level + 2 ≤ e.level

/-- What the leaves of the cube force is cut. -/
def Settled (s : RefOct K) (c : Cube) : Prop :=
  ∀ e, c.Below e → Leaf s.cut e →
    ∀ d, Cube.root.Below d → d.Touch e → d.level + 2 ≤ e.level → d ∈ s.cut

theorem Settled.graded {s : RefOct K} (h : s.Settled .root) : Graded s.cut := by
  intro c d hc hd htouch
  by_contra hlevel
  exact hc.2 (h d (hd.1.below_root cut_tree) hd c (hc.1.below_root cut_tree) htouch (by omega))

theorem settled_of_children {s : RefOct K} {c : Cube} (hc : c ∈ s.cut)
    (hchildren : ∀ o, s.Settled (c.child o)) : s.Settled c := by
  intro e hbelow hleaf
  rcases hbelow.eq_or_child with rfl | ⟨o, ho⟩
  · exact absurd hc hleaf.2
  · exact hchildren o e ho hleaf

/-- What is forced is in every graded tree that goes on from this one. -/
theorem Forced.mem {t : RefOct K} {c : Cube} {J : Set Cube} (h : t.Forced c) (hc : Cell t.cut c)
    (hJ : Graded J) (hfin : J.Finite) (hsub : t.cut ⊆ J) : c ∈ J := by
  obtain ⟨e, he, htouch, hlevel⟩ := h
  obtain ⟨L, hL⟩ := (hfin.image Cube.level).bddAbove
  exact hJ.forced (L := L + 1) (fun d hd => Nat.lt_succ_of_le (hL ⟨d, hd, rfl⟩)) hsub hc he htouch
    hlevel

/-- A forced cube is less deep than the leaves. -/
theorem Forced.level_lt {t : RefOct K} {c : Cube} {L : Nat} (h : t.Forced c)
    (hdeep : t.Deep L) : c.level < L := by
  obtain ⟨e, he, _, hlevel⟩ := h
  have hle := he.level_le hdeep
  omega

theorem Grows.deep {s t : RefOct K} {L : Nat} (h : Grows Forced s t) (hs : s.OctInv)
    (hdeep : s.Deep L) : t.Deep L :=
  Grows.cut_inv h hs (J := {c | c.level < L}) hdeep fun _ _ hsub _ _ hc => hc.level_lt hsub

section Boxes

variable [Field K] [LinearOrder K] [IsStrictOrderedRing K] [ExactSqrt K]

/-- The scaled diagonal of a cube against that of another. -/
theorem scaled_diag_lt_iff (d e : Cube) :
    gradationFactor * 2 * bboxDiag (cubeBox K e) < bboxDiag (cubeBox K d) ↔
      d.level + 2 ≤ e.level := by
  have hscaled : (0 : K) ≤ gradationFactor * 2 * bboxDiag (cubeBox K e) := by
    have hnonneg := bboxDiag_nonneg (cubeBox K e)
    rw [gradationFactor]
    positivity
  rw [← pow_lt_pow_iff_left₀ hscaled (bboxDiag_nonneg _) two_ne_zero, mul_pow, bboxDiag_sq,
    bboxDiag_sq, gradationFactor, ← mul_div_assoc, div_lt_div_iff₀ (by positivity) (by positivity)]
  have hd : (0 : K) < 4 ^ d.level := by positivity
  constructor
  · intro h
    by_contra hlevel
    have hle : (4 : K) ^ e.level ≤ 4 ^ (d.level + 1) :=
      pow_le_pow_right₀ (by norm_num) (by omega)
    rw [pow_succ] at hle
    linarith
  · intro hlevel
    have hle : (4 : K) ^ (d.level + 2) ≤ 4 ^ e.level := pow_le_pow_right₀ (by norm_num) hlevel
    rw [pow_add] at hle
    linarith

/-- **What a leaf refines** are the cubes that touch it and are larger by two
levels or more. -/
theorem over_scaled_iff (d e : Cube) :
    Over (bboxScale (cubeBox K e) gradationFactor)
        (gradationFactor * 2 * bboxDiag (cubeBox K e)) d ↔
      d.Touch e ∧ d.level + 2 ≤ e.level := by
  rw [Over, scaled_diag_lt_iff]
  refine and_congr_left fun hlevel => ?_
  have hside : (0 : K) < 1 / 2 ^ e.level := by positivity
  have hends : ∀ a, e.hi K a = e.lo K a + 1 / 2 ^ e.level := fun a => e.hi_eq a
  rw [Cube.touch_iff_near K (L := e.level) (by omega) le_rfl
    (t := 1 / 20 * (1 / 2 ^ e.level)) (by positivity) (by linarith), bboxOverlap_cubeBox]
  have htool : bboxScale (cubeBox K e) gradationFactor =
      ![e.lo K 0 - 1 / 20 * (1 / 2 ^ e.level), e.hi K 0 + 1 / 20 * (1 / 2 ^ e.level),
        e.lo K 1 - 1 / 20 * (1 / 2 ^ e.level), e.hi K 1 + 1 / 20 * (1 / 2 ^ e.level),
        e.lo K 2 - 1 / 20 * (1 / 2 ^ e.level), e.hi K 2 + 1 / 20 * (1 / 2 ^ e.level)] := by
    have hfactor : (1 / 2 * (gradationFactor - 1) : K) = 1 / 20 := by
      rw [gradationFactor]
      norm_num
    simp only [bboxScale, cubeBox, Matrix.cons_val, hfactor, hends, add_sub_cancel_left]
  rw [htool]
  simp only [Matrix.cons_val]
  constructor
  · rintro ⟨hx, hy, hz⟩ a
    fin_cases a
    · exact ⟨hx.2, hx.1⟩
    · exact ⟨hy.2, hy.1⟩
    · exact ⟨hz.2, hz.1⟩
  · exact fun h => ⟨⟨(h 0).2, (h 0).1⟩, ⟨(h 1).2, (h 1).1⟩, ⟨(h 2).2, (h 2).1⟩⟩

/-- **A round** of the gradation below a row. -/
theorem gradationNode_ends {depth : Nat} (fuel : Nat) {s : RefOct K} {v : Nat} {c : Cube}
    (hs : s.OctInv) (hbox : s.bbox = cubeBox K .root) (hat : s.At v c) :
    Ends (gradationNode depth fuel s v (cubeBox K c))
      (fun t => Grows Forced s t ∧ (t.n = s.n → s.Settled c)) (Full Forced s)
      (∀ L, s.Deep L → fuel + c.level ≤ L ∨ depth ≤ L) := by
  induction fuel generalizing s v c with
  | zero =>
      refine ends_out fun L hdeep => Or.inl ?_
      rw [Nat.zero_add]
      exact hdeep.at_le hat
  | succ fuel ih =>
      rw [gradationNode]
      by_cases hleaf : s.LeafNode v
      · rw [if_pos hleaf]
        have hcell : Cell s.cut c := cell_iff.mpr ⟨v, hat⟩
        have hforced : ∀ (u : RefOct K) d,
            Grows (fun _ => Over (bboxScale (cubeBox K c) gradationFactor)
              (gradationFactor * 2 * bboxDiag (cubeBox K c))) s u →
            Over (bboxScale (cubeBox K c) gradationFactor)
              (gradationFactor * 2 * bboxDiag (cubeBox K c)) d → u.Forced d := fun u d hu hd =>
          ⟨c, hcell.mono (hu.cut_subset hs), (over_scaled_iff d c).mp hd⟩
        refine (splitTouching_ends depth hs hbox).imp ?_ (fun e he => he.imp hforced) ?_
        · rintro t ⟨hgrow, hrefined⟩
          refine ⟨hgrow.imp hforced, fun hn e hbelow he d hd htouch hlevel => ?_⟩
          obtain rfl := hgrow.eq_of_n hn
          obtain rfl : e = c := (leaf_iff.mpr ⟨v, hat, hleaf⟩).eq_of_below cut_tree hbelow he.1
          exact hrefined d hd ((over_scaled_iff d e).mpr ⟨htouch, hlevel⟩)
        · intro hO L hdeep
          refine Or.inr (hO L hdeep fun d hd => ?_)
          have hle := hdeep.at_le hat
          have hlevel := ((over_scaled_iff d c).mp hd).2
          omega
      · rw [if_neg hleaf]
        refine (descend_ends (f := gradationNode depth fuel) (P := Forced)
          (D := fun x t => t.n = s.n → s.Settled x)
          (O := ∀ L, s.Deep L → fuel + 1 + c.level ≤ L ∨ depth ≤ L) hs hat hleaf
          (fun x t u hst htu hdone hn => hdone ?_) fun t w i hst ht hi hatw => ?_).imp
          (fun t ht => ⟨ht.1, fun hn => ?_⟩) (fun _ => id) id
        · have hle := hst.n_le
          have hle' := htu.n_le
          omega
        · refine (ih ht (hst.bbox.trans hbox) hatw).imp ?_ (fun _ => id) ?_
          · rintro u ⟨hu, hsettled⟩
            refine ⟨hu, fun hn => ?_⟩
            have hle := hst.n_le
            have hle' := hu.n_le
            obtain rfl := hst.eq_of_n (by omega)
            exact hsettled hn
          · intro hO L hdeep
            have hle := hO L (hst.deep hs hdeep)
            rw [Cube.child_level] at hle
            omega
        · exact settled_of_children ⟨v, hat, hleaf⟩ fun o => ht.2 o hn

/-- **The rounds** end when one adds no row. -/
theorem gradationLoop_ends {depth : Nat} (fuel : Nat) {s : RefOct K} {lastN : Int} (hs : s.OctInv)
    (hbox : s.bbox = cubeBox K .root) (hlast : (s.n : Int) = lastN → s.Settled .root) :
    Ends (gradationLoop depth fuel lastN s)
      (fun t => Grows Forced s t ∧ t.Settled .root) (Full Forced s)
      (fuel + s.n ≤ refIntMax / 27 + 1 ∨ ∀ L, s.Deep L → depth ≤ L) := by
  have hlimit := hs.n_le_limit
  induction fuel generalizing s lastN with
  | zero => exact ends_out (Or.inl (by omega))
  | succ fuel ih =>
      rw [gradationLoop]
      by_cases hn : (s.n : Int) = lastN
      · rw [if_neg (not_not.mpr hn)]
        exact ends_done ⟨.refl, hlast hn⟩
      · rw [if_pos hn]
        refine Ends.bind (Q := fun t => Grows Forced s t ∧ (t.n = s.n → s.Settled .root)) ?_ ?_
        · rw [hbox]
          refine (gradationNode_ends depth hs hbox .root).imp (fun _ => id) (fun _ => id) ?_
          exact fun hO => Or.inr fun L hdeep => (hO L hdeep).elim id id
        · rintro t ⟨hgrow, hsettled⟩
          by_cases hsame : t.n = s.n
          · obtain rfl := hgrow.eq_of_n hsame
            cases fuel with
            | zero => exact ends_out (Or.inl (by omega))
            | succ fuel =>
                rw [gradationLoop, if_neg (not_not.mpr rfl)]
                exact ends_done ⟨.refl, hsettled rfl⟩
          · have hle := hgrow.n_le
            refine (ih (hgrow.inv hs) (hgrow.bbox.trans hbox)
              (fun heq => absurd (Int.natCast_inj.mp heq) hsame)
              (hgrow.inv hs).n_le_limit).imp ?_ (fun e he => he.of_grows hgrow) ?_
            · exact fun u hu => ⟨hgrow.trans hu.1, hu.2⟩
            · refine Or.imp (fun hfuel => by omega) fun hO L hdeep => hO L (hgrow.deep hs hdeep)

theorem gradation_ends {depth fuel : Nat} {s : RefOct K} (hs : s.OctInv)
    (hbox : s.bbox = cubeBox K .root) :
    Ends (gradation depth fuel s) (fun t => Grows Forced s t ∧ t.Settled .root) (Full Forced s)
      (fuel + s.n ≤ refIntMax / 27 + 1 ∨ ∀ L, s.Deep L → depth ≤ L) :=
  gradationLoop_ends fuel hs hbox fun heq => absurd heq (natCast_ne_refEmpty _)

end Boxes

end RefOct

end RefineMesh
