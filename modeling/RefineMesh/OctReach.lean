import Mathlib.Tactic
import RefineMesh.OctBalance

/-!
# Reached octrees

The trees that the operations of `ref_oct` make from `ref_oct_create`, and what
the operations do to them: they only split leaves, so rows keep their cubes, and
they fail only when the tree that is asked for does not fit in the table.
-/

namespace RefineMesh

open Octree Fueled

namespace RefOct

variable {K : Type} [Field K] [LinearOrder K] [IsStrictOrderedRing K] [ExactSqrt K]

/-- The trees that the operations reach. -/
inductive Reach : RefOct K → Prop
  | create : Reach create
  | split {s t : RefOct K} {node : Int} (h : Reach s) (hrun : s.split node = .ok t) : Reach t
  | splitAt {s t : RefOct K} {xyz : Fin 3 → K} {h : K} {depth fuel : Nat} (hs : Reach s)
      (hrun : splitAt xyz h depth fuel s = done t) : Reach t
  | splitTouching {s t : RefOct K} {bbox : Fin 6 → K} {h : K} {depth : Nat} (hs : Reach s)
      (hrun : splitTouching bbox h depth s = done t) : Reach t
  | gradation {s t : RefOct K} {depth fuel : Nat} (hs : Reach s)
      (hrun : gradation depth fuel s = done t) : Reach t

omit [ExactSqrt K] in
theorem create_bbox : (create : RefOct K).bbox = cubeBox K .root := by
  funext k
  fin_cases k <;> simp [create, cubeBox, Cube.lo, Cube.hi, Cube.root]

omit [LinearOrder K] [IsStrictOrderedRing K] [ExactSqrt K] in
theorem create_cut : (create : RefOct K).cut = ∅ := by
  rw [Set.eq_empty_iff_forall_notMem]
  rintro c ⟨v, _, hinner⟩
  exact hinner rfl

/-- **Every operation only splits leaves.** -/
theorem Reach.grows {s : RefOct K} (h : s.Reach) : Grows (fun _ _ => True) RefOct.create s := by
  have hstep : ∀ {s t : RefOct K} {P : RefOct K → Cube → Prop},
      Grows (fun _ _ => True) RefOct.create s → Grows P s t →
        Grows (fun _ _ => True) RefOct.create t := fun hs hst =>
    hs.trans (hst.imp fun _ _ _ _ => trivial)
  induction h with
  | create => exact .refl
  | @split s t node _ hrun ih =>
      obtain ⟨v, _, hsplit⟩ := split_ok (ih.inv create_inv) hrun
      obtain ⟨c, hat⟩ := (ih.inv create_inv).exists_cube hsplit.leaf.1
      exact ih.tail ⟨v, c, hat, trivial, hsplit⟩
  | splitAt _ hrun ih =>
      exact hstep ih ((splitAt_ends _ (ih.inv create_inv)
        (ih.bbox.trans create_bbox)).of_done hrun).1
  | splitTouching _ hrun ih =>
      exact hstep ih ((splitTouching_ends _ (ih.inv create_inv)
        (ih.bbox.trans create_bbox)).of_done hrun).1
  | gradation _ hrun ih =>
      exact hstep ih ((gradation_ends (ih.inv create_inv)
        (ih.bbox.trans create_bbox)).of_done hrun).1

theorem Reach.inv {s : RefOct K} (h : s.Reach) : s.OctInv := h.grows.inv create_inv

theorem Reach.bbox {s : RefOct K} (h : s.Reach) : s.bbox = cubeBox K .root :=
  h.grows.bbox.trans create_bbox

/-! ## The rows -/

omit [Field K] [LinearOrder K] [IsStrictOrderedRing K] [ExactSqrt K] in
/-- There is a row for the root, and eight for each cube that is cut. -/
theorem Grows.n_eq {P : RefOct K → Cube → Prop} {s t : RefOct K} (h : Grows P s t) (hs : s.OctInv)
    (hn : s.cut.Finite ∧ s.n = 8 * s.cut.ncard + 1) :
    t.cut.Finite ∧ t.n = 8 * t.cut.ncard + 1 := by
  induction h with
  | refl => exact hn
  | @tail u t h hstep ih =>
      obtain ⟨v, c, hat, _, hsplit⟩ := hstep
      have hnot : c ∉ u.cut := (leaf_iff.mpr ⟨v, hat, hsplit.leaf.2⟩).2
      rw [hsplit.cut_eq (Grows.inv h hs) hat, hsplit.n, ih.2, Set.ncard_insert_of_notMem hnot ih.1]
      exact ⟨ih.1.insert c, by ring⟩

theorem Reach.n_eq {s : RefOct K} (h : s.Reach) : s.cut.Finite ∧ s.n = 8 * s.cut.ncard + 1 := by
  refine h.grows.n_eq create_inv ?_
  rw [create_cut, Set.ncard_empty]
  exact ⟨Set.finite_empty, rfl⟩

/-- **A full table** is too small for every tree that has what must be cut. -/
theorem Full.size {P : RefOct K → Cube → Prop} {s : RefOct K} {e : Status} (h : Full P s e)
    (hs : s.Reach) {J : Set Cube} (hJ : J.Finite) (hsub : s.cut ⊆ J)
    (hP : ∀ u c, u.cut ⊆ J → u.OctInv → Cell u.cut c → P u c → c ∈ J) :
    e = .failure ∧ refIntMax / 27 < 8 * J.ncard + 1 := by
  obtain ⟨he, t, v, c, hgrow, hat, hleaf, hc, hfull⟩ := h
  have ht := hgrow.inv hs.inv
  have hcut := Grows.cut_inv hgrow hs.inv hsub hP
  have hnot : c ∉ t.cut := (leaf_iff.mpr ⟨v, hat, hleaf⟩).2
  have hmem := hP t c hcut ht (cell_iff.mpr ⟨v, hat⟩) hc
  have hfin := hgrow.n_eq hs.inv hs.n_eq
  have hle : (insert c t.cut).ncard ≤ J.ncard :=
    Set.ncard_le_ncard (Set.insert_subset hmem hcut) hJ
  rw [Set.ncard_insert_of_notMem hnot hfin.1] at hle
  refine ⟨he, ?_⟩
  omega

/-- **The gradation** of a reached tree ends at the least graded tree that goes
on from it, or this tree has more rows than the table can have. -/
theorem gradation_balances {s : RefOct K} (hs : s.Reach) {L depth fuel : Nat} (hdeep : s.Deep L)
    (hdepth : L < depth) (hfuel : refIntMax / 27 < fuel) :
    (∃ t, gradation depth fuel s = done t ∧ t.Reach ∧ Graded t.cut ∧ t.Deep L ∧
        (∀ v c, s.At v c → t.At v c) ∧ s.cut ⊆ t.cut ∧
        ∀ J : Set Cube, J.Finite → Graded J → s.cut ⊆ J → t.cut ⊆ J) ∨
      gradation depth fuel s = stop .failure ∧
        ∀ J : Set Cube, J.Finite → Graded J → s.cut ⊆ J →
          refIntMax / 27 < 8 * J.ncard + 1 := by
  have hpos := hs.inv.pos
  have hleast : ∀ J : Set Cube, J.Finite → Graded J → ∀ (u : RefOct K) c, u.cut ⊆ J →
      u.OctInv → Cell u.cut c → u.Forced c → c ∈ J :=
    fun J hfin hJ u c hsub _ hc hforced => hforced.mem hc hJ hfin hsub
  have hends : Ends (gradation depth fuel s) _ _ _ := gradation_ends hs.inv hs.bbox
  rcases hends.total (fun hO => hO.elim (fun hle => by omega) fun hle => absurd (hle L hdeep) (by omega))
    with ⟨t, hrun, hgrow, hsettled⟩ | ⟨e, hrun, hfull⟩
  · left
    exact ⟨t, hrun, hs.gradation hrun, hsettled.graded, hgrow.deep hs.inv hdeep,
      fun v c hat => hgrow.at_of_at hat, hgrow.cut_subset hs.inv,
      fun J hfin hJ hsub => Grows.cut_inv hgrow hs.inv hsub (hleast J hfin hJ)⟩
  · right
    obtain rfl := hfull.1
    exact ⟨hrun, fun J hfin hJ hsub => (hfull.size hs hfin hsub (hleast J hfin hJ)).2⟩

/-- A tree with leaves of the third level at the middle of the root. -/
noncomputable def cornerTree : RefOct ℝ :=
  ((create.addChildren 0).addChildren 1).addChildren 15

theorem cornerTree_reach : cornerTree.Reach ∧ cornerTree.Deep 3 := by
  have hroot : (create : RefOct ℝ).split 0 = .ok (create.addChildren 0) := rfl
  have hchild : ((create : RefOct ℝ).addChildren 0).split 1 =
      .ok ((create.addChildren 0).addChildren 1) := rfl
  have hcorner : (((create : RefOct ℝ).addChildren 0).addChildren 1).split 15 =
      .ok cornerTree := rfl
  have hreach₁ := Reach.create.split hroot
  have hreach₂ := hreach₁.split hchild
  refine ⟨hreach₂.split hcorner, ?_⟩
  have hinner₁ : ¬ ((create : RefOct ℝ).addChildren 0).LeafNode 0 := by decide
  have hinner₂ : ¬ (((create : RefOct ℝ).addChildren 0).addChildren 1).LeafNode 0 := by decide
  have hinner₃ : ¬ (((create : RefOct ℝ).addChildren 0).addChildren 1).LeafNode 1 := by decide
  obtain ⟨v, hv, hsplit₁⟩ := split_ok Reach.create.inv hroot
  obtain rfl : v = 0 := by omega
  obtain ⟨v, hv, hsplit₂⟩ := split_ok hreach₁.inv hchild
  obtain rfl : v = 1 := by omega
  obtain ⟨v, hv, hsplit₃⟩ := split_ok hreach₂.inv hcorner
  obtain rfl : v = 15 := by omega
  have hdeep : (create : RefOct ℝ).Deep 3 := fun c hc => absurd hc (by rw [create_cut]; exact id)
  refine hsplit₃.deep hreach₂.inv (.child (i := 6) (.child (i := 0) .root hinner₂ (by decide))
    hinner₃ (by decide)) (by decide) ?_
  refine hsplit₂.deep hreach₁.inv (.child (i := 0) .root hinner₁ (by decide)) (by decide) ?_
  exact hsplit₁.deep Reach.create.inv .root (by decide) hdeep

theorem gradation_balances_cornerTree :
    (∃ t, gradation 4 80000000 cornerTree = done t ∧ Graded t.cut ∧ cornerTree.cut ⊆ t.cut) ∨
      gradation 4 80000000 cornerTree = stop .failure := by
  have hfuel : refIntMax / 27 < 80000000 := by decide
  rcases gradation_balances cornerTree_reach.1 cornerTree_reach.2 (by decide : 3 < 4) hfuel with
    ⟨t, hrun, -, hbal, -, -, hsub, -⟩ | ⟨hrun, -⟩
  · exact Or.inl ⟨t, hrun, hbal, hsub⟩
  · exact Or.inr hrun

/-- **Eight levels** fit in the table. -/
theorem gradation_total {s : RefOct K} (hs : s.Reach) {L depth fuel : Nat} (hdeep : s.Deep L)
    (hL : L ≤ 8) (hdepth : L < depth) (hfuel : refIntMax / 27 < fuel) :
    ∃ t, gradation depth fuel s = done t ∧ Graded t.cut := by
  rcases gradation_balances hs hdeep hdepth hfuel with ⟨t, hrun, _, hbal, _⟩ | ⟨_, hsmall⟩
  · exact ⟨t, hrun, hbal⟩
  · have hsub : s.cut ⊆ upTo L := fun c hc =>
      ⟨(cut_tree c hc).below_root cut_tree, hdeep c hc⟩
    have hlimit := hsmall (upTo L) (upTo_finite L) (graded_upTo L) hsub
    have hcard := ncard_upTo_le L
    have hpow : 8 ^ L ≤ 8 ^ 8 := Nat.pow_le_pow_right (by decide) hL
    simp only [refIntMax] at hlimit
    omega

/-! ## Regions and points -/

/-- The diagonals fall below every positive length. -/
theorem exists_level [Archimedean K] {h : K} (hpos : 0 < h) :
    ∃ L, ∀ c, h < bboxDiag (cubeBox K c) → c.level < L := by
  obtain ⟨L, hL⟩ := exists_pow_lt_of_lt_one (show 0 < h ^ 2 / 3 by positivity)
    (show (1 / 4 : K) < 1 by norm_num)
  refine ⟨L, fun c hc => ?_⟩
  by_contra hlevel
  refine absurd hc (not_lt.mpr ((bboxDiag_le_iff hpos.le c).mpr ?_))
  rw [one_div, inv_pow, lt_div_iff₀ (by norm_num)] at hL
  calc (3 : K) / 4 ^ c.level ≤ 3 / 4 ^ L := by
        apply div_le_div_of_nonneg_left (by norm_num) (by positivity)
        exact pow_le_pow_right₀ (by norm_num) (not_lt.mp hlevel)
    _ = (4 ^ L)⁻¹ * 3 := by rw [div_eq_mul_inv, mul_comm]
    _ ≤ h ^ 2 := hL.le

theorem Reach.exists_deep {s : RefOct K} (hs : s.Reach) : ∃ L, s.Deep L := by
  obtain ⟨L, hL⟩ := (hs.n_eq.1.image Cube.level).bddAbove
  exact ⟨L + 1, fun c hc => Nat.lt_succ_of_le (hL ⟨c, hc, rfl⟩)⟩

theorem Reach.union_finite {s : RefOct K} (hs : s.Reach) {Q : Cube → Prop} {L : Nat}
    (hQ : ∀ c, Q c → c.level < L) : (s.cut ∪ {c | Cube.root.Below c ∧ Q c}).Finite :=
  hs.n_eq.1.union ((upTo_finite L).subset fun c hc => ⟨hc.1, hQ c hc.2⟩)

omit [Field K] [LinearOrder K] [IsStrictOrderedRing K] [ExactSqrt K] in
theorem mem_union_of_cell {s u : RefOct K} {Q : Cube → Prop} {c : Cube} (hc : Cell u.cut c)
    (hQ : Q c) : c ∈ s.cut ∪ {c | Cube.root.Below c ∧ Q c} :=
  Or.inr ⟨hc.below_root cut_tree, hQ⟩

/-- A level that the tree and the cubes to be cut do not reach. -/
theorem Reach.exists_bound [Archimedean K] {s : RefOct K} (hs : s.Reach) {h : K} (hpos : 0 < h) :
    ∃ L, s.Deep L ∧ ∀ c, h < bboxDiag (cubeBox K c) → c.level < L := by
  obtain ⟨L, hL⟩ := exists_level hpos
  obtain ⟨M, hM⟩ := hs.exists_deep
  exact ⟨L + M, fun c hc => (hM c hc).trans_le (Nat.le_add_left _ _),
    fun c hc => (hL c hc).trans_le (Nat.le_add_right _ _)⟩

/-- **The refinement of a region** cuts the cubes that meet the region and are
larger than asked, with no other. -/
theorem splitTouching_cuts [Archimedean K] {s : RefOct K} (hs : s.Reach) (bbox : Fin 6 → K) {h : K}
    (hpos : 0 < h) : ∃ L, ∀ depth, L < depth →
      (∃ t, splitTouching bbox h depth s = done t ∧ t.Reach ∧ (∀ v c, s.At v c → t.At v c) ∧
        t.cut = s.cut ∪ {c | Cube.root.Below c ∧ Over bbox h c}) ∨
      splitTouching bbox h depth s = stop .failure ∧
        refIntMax / 27 < 8 * (s.cut ∪ {c | Cube.root.Below c ∧ Over bbox h c}).ncard + 1 := by
  obtain ⟨L, hdeep, hL⟩ := hs.exists_bound hpos
  have hlevel : ∀ c, Over bbox h c → c.level < L := fun c hover => hL c hover.2
  refine ⟨L, fun depth hdepth => ?_⟩
  have hends : Ends (splitTouching bbox h depth s) _ _ _ :=
    splitTouching_ends depth hs.inv hs.bbox
  rcases hends.total (fun hO => absurd (hO L hdeep hlevel) (not_le.mpr hdepth))
    with ⟨t, hrun, hgrow, hrefined⟩ | ⟨e, hrun, hfull⟩
  · refine Or.inl ⟨t, hrun, hs.splitTouching hrun, fun v c hat => hgrow.at_of_at hat, ?_⟩
    apply Set.Subset.antisymm
    · exact Grows.cut_inv hgrow hs.inv Set.subset_union_left fun _ _ _ _ => mem_union_of_cell
    · exact Set.union_subset (hgrow.cut_subset hs.inv) fun c hc => hrefined c hc.1 hc.2
  · obtain ⟨rfl, hsmall⟩ := hfull.size hs (hs.union_finite hlevel) Set.subset_union_left
      fun _ _ _ _ => mem_union_of_cell
    exact Or.inr ⟨hrun, hsmall⟩

theorem splitTouching_cuts_cornerTree : ∃ L, ∀ depth, L < depth →
    (∃ t, splitTouching ![1, 2, 1, 2, 1, 2] (1 / 4) depth cornerTree = done t ∧
      t.cut = cornerTree.cut ∪
        {c | Cube.root.Below c ∧ Over ![1, 2, 1, 2, 1, 2] (1 / 4 : ℝ) c}) ∨
    splitTouching ![1, 2, 1, 2, 1, 2] (1 / 4) depth cornerTree = stop .failure := by
  obtain ⟨L, hL⟩ := splitTouching_cuts cornerTree_reach.1 ![1, 2, 1, 2, 1, 2]
    (show (0 : ℝ) < 1 / 4 by norm_num)
  refine ⟨L, fun depth hdepth => ?_⟩
  rcases hL depth hdepth with ⟨t, hrun, -, -, hcut⟩ | ⟨hrun, -⟩
  · exact Or.inl ⟨t, hrun, hcut⟩
  · exact Or.inr hrun

/-- **The search** ends at a leaf with the point, and outside of the root it
finds none. -/
theorem contains_finds {s : RefOct K} (hs : s.Reach) {L depth : Nat} (hdeep : s.Deep L)
    (hdepth : L < depth) (xyz : Fin 3 → K) (bbox : Fin 6 → K) :
    ((∀ a, 0 ≤ xyz a ∧ xyz a ≤ 1) ∧ ∃ (v : Nat) (c : Cube),
      s.contains xyz depth bbox = done ((v : Int), cubeBox K c) ∧ s.At v c ∧ Leaf s.cut c ∧
        c.Has xyz) ∨
    (¬ ∀ a, 0 ≤ xyz a ∧ xyz a ≤ 1) ∧ s.contains xyz depth bbox = done (refEmpty, bbox) := by
  have hends : Ends (s.contains xyz depth bbox) _ _ _ := contains_ends depth hs.bbox
  rw [← Cube.root_has_iff]
  rcases hends.total fun hO => absurd (hO L hdeep) (not_le.mpr hdepth) with
    ⟨r, hrun, ⟨v, c, rfl, hat, hleaf, hbelow, hhas⟩ | ⟨rfl, hout⟩⟩ | ⟨_, _, hfalse⟩
  · refine Or.inl ⟨fun a => ?_, v, c, hrun, hat, leaf_iff.mpr ⟨v, hat, hleaf⟩, hhas⟩
    have hends := hbelow.ends (K := K) a
    exact ⟨hends.1.trans (hhas a).1, (hhas a).2.trans hends.2⟩
  · exact Or.inr ⟨hout, hrun⟩
  · exact hfalse.elim

theorem contains_finds_cornerTree : ∃ (v : Nat) (c : Cube),
    cornerTree.contains (fun _ => 1 / 2) 4 (fun _ => 0) = done ((v : Int), cubeBox ℝ c) ∧
      Leaf cornerTree.cut c ∧ c.Has fun _ : Fin 3 => (1 / 2 : ℝ) := by
  rcases contains_finds cornerTree_reach.1 cornerTree_reach.2 (by decide : 3 < 4)
    (fun _ => 1 / 2) (fun _ => 0) with ⟨-, v, c, hrun, -, hleaf, hhas⟩ | ⟨hout, -⟩
  · exact ⟨v, c, hrun, hleaf, hhas⟩
  · exact absurd (fun _ => ⟨by norm_num, by norm_num⟩) hout

/-- **The refinement at a point** cuts cubes with the point, until the leaf that
the search finds there is small enough. -/
theorem splitAt_refines [Archimedean K] {s : RefOct K} (hs : s.Reach) (xyz : Fin 3 → K) {h : K}
    (hpos : 0 < h) : ∃ L, ∀ depth fuel, L < depth → refIntMax / 27 < fuel →
      (∃ t, splitAt xyz h depth fuel s = done t ∧ t.Reach ∧ (∀ v c, s.At v c → t.At v c) ∧
        (∀ c ∈ t.cut, c ∈ s.cut ∨ c.Has xyz ∧ h < bboxDiag (cubeBox K c)) ∧
        ∃ (v : Nat) (c : Cube), t.contains xyz depth (fun _ => 0) = done ((v : Int), cubeBox K c) ∧
          t.At v c ∧ Leaf t.cut c ∧ c.Has xyz ∧ bboxDiag (cubeBox K c) ≤ h) ∨
      splitAt xyz h depth fuel s = stop .failure ∧
        ((¬ ∀ a, 0 ≤ xyz a ∧ xyz a ≤ 1) ∨
          refIntMax / 27 < 8 * (s.cut ∪ {c | Cube.root.Below c ∧ Around xyz h c}).ncard + 1) := by
  obtain ⟨L, hdeep, hL⟩ := hs.exists_bound hpos
  have hlevel : ∀ c, Around xyz h c → c.level < L := fun c haround => hL c haround.2
  refine ⟨L, fun depth fuel hdepth hfuel => ?_⟩
  have hends : Ends (splitAt xyz h depth fuel s) _ _ _ := splitAt_ends fuel hs.inv hs.bbox
  rcases hends.total (fun hO => hO.elim (fun hle => by omega)
    fun hle => absurd (hle L hdeep hlevel) (not_le.mpr hdepth))
    with ⟨t, hrun, hgrow, r, hfind, ⟨v, c, rfl, hat, hleaf, -, hhas⟩, hdiag⟩ | ⟨e, hrun, herr⟩
  · refine Or.inl ⟨t, hrun, hs.splitAt hrun, fun v c hat => hgrow.at_of_at hat, ?_,
      v, c, hfind, hat, leaf_iff.mpr ⟨v, hat, hleaf⟩, hhas, hdiag⟩
    intro c hc
    exact (Grows.cut_inv hgrow hs.inv Set.subset_union_left
      (fun _ _ _ _ => mem_union_of_cell) hc).imp_right fun h => h.2
  · rw [← Cube.root_has_iff]
    rcases herr with hfull | ⟨rfl, hout⟩
    · obtain ⟨rfl, hsmall⟩ := hfull.size hs (hs.union_finite hlevel) Set.subset_union_left
        fun _ _ _ _ => mem_union_of_cell
      exact Or.inr ⟨hrun, Or.inr hsmall⟩
    · exact Or.inr ⟨hrun, Or.inl hout⟩

theorem splitAt_refines_cornerTree : ∃ L, ∀ depth fuel, L < depth → refIntMax / 27 < fuel →
    (∃ t : RefOct ℝ, splitAt (fun _ => 1 / 3) (1 / 10) depth fuel cornerTree = done t ∧
      ∃ (v : Nat) (c : Cube),
        t.contains (fun _ => 1 / 3) depth (fun _ => 0) = done ((v : Int), cubeBox ℝ c) ∧
          bboxDiag (cubeBox ℝ c) ≤ 1 / 10) ∨
    splitAt (fun _ => 1 / 3) (1 / 10) depth fuel cornerTree = stop .failure := by
  obtain ⟨L, hL⟩ := splitAt_refines cornerTree_reach.1 (fun _ => 1 / 3)
    (show (0 : ℝ) < 1 / 10 by norm_num)
  refine ⟨L, fun depth fuel hdepth hfuel => ?_⟩
  rcases hL depth fuel hdepth hfuel with ⟨t, hrun, -, -, -, v, c, hfind, -, -, -, hdiag⟩ | ⟨hrun, -⟩
  · exact Or.inl ⟨t, hrun, v, c, hfind, hdiag⟩
  · exact Or.inr hrun

end RefOct

end RefineMesh
