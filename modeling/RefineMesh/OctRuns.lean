import Mathlib.Tactic
import RefineMesh.OctTree

/-!
# Refinement of the octree

A descent of `ref_oct_split_touching` or `ref_oct_gradation` meets rows that the
calls before it have split.  All of them only add cubes to the tree, and this is
what carries the loops over the children.
-/

namespace RefineMesh

open Octree Fueled

-- the numerals of the axes
local instance neZero_three_octRuns : NeZero 3 := ⟨by decide⟩

namespace RefOct

variable {K : Type}

/-! ## Growing trees -/

/-- One leaf is split, at a cube with `P`. -/
def Splits (P : RefOct K → Cube → Prop) (s t : RefOct K) : Prop :=
  ∃ v c, s.At v c ∧ P s c ∧ SplitOf s t v

/-- A row of splits. -/
def Grows (P : RefOct K → Cube → Prop) : RefOct K → RefOct K → Prop :=
  Relation.ReflTransGen (Splits P)

/-- The next split has no rows: the table is at its limit. -/
def Full (P : RefOct K → Cube → Prop) (s : RefOct K) (e : Status) : Prop :=
  e = .failure ∧ ∃ t v c, Grows P s t ∧ t.At v c ∧ t.LeafNode v ∧ P t c ∧
    refIntMax / 27 < t.n + 8

section Grows

variable {P Q : RefOct K → Cube → Prop} {s t : RefOct K}

theorem Grows.inv (h : Grows P s t) (hs : s.OctInv) : t.OctInv := by
  induction h with
  | refl => exact hs
  | tail _ hstep ih =>
      obtain ⟨v, c, _, _, hsplit⟩ := hstep
      exact hsplit.inv ih

theorem Grows.bbox (h : Grows P s t) : t.bbox = s.bbox := by
  induction h with
  | refl => rfl
  | tail _ hstep ih =>
      obtain ⟨v, c, _, _, hsplit⟩ := hstep
      rw [hsplit.bbox, ih]

/-- Rows keep their cubes. -/
theorem Grows.at_of_at (h : Grows P s t) {v : Nat} {c : Cube} (hat : s.At v c) : t.At v c := by
  induction h with
  | refl => exact hat
  | tail _ hstep ih =>
      obtain ⟨_, _, _, _, hsplit⟩ := hstep
      exact hsplit.at_of_at ih

theorem Grows.cut_subset (h : Grows P s t) (hs : s.OctInv) : s.cut ⊆ t.cut := by
  induction h with
  | refl => exact Set.Subset.rfl
  | tail h hstep ih =>
      obtain ⟨v, c, hat, _, hsplit⟩ := hstep
      rw [hsplit.cut_eq (Grows.inv h hs) hat]
      exact ih.trans (Set.subset_insert _ _)

theorem Grows.n_le (h : Grows P s t) : s.n ≤ t.n := by
  induction h with
  | refl => exact le_rfl
  | tail _ hstep ih =>
      obtain ⟨_, _, _, _, hsplit⟩ := hstep
      rw [hsplit.n]
      omega

/-- Without a new row nothing was split. -/
theorem Grows.eq_of_n (h : Grows P s t) (hn : t.n = s.n) : t = s := by
  cases h with
  | refl => rfl
  | tail h hstep =>
      obtain ⟨_, _, _, _, hsplit⟩ := hstep
      have hle := Grows.n_le h
      rw [hsplit.n] at hn
      omega

/-- What is cut keeps a property that each split keeps. -/
theorem Grows.cut_inv (h : Grows P s t) (hs : s.OctInv) {J : Set Cube} (hsub : s.cut ⊆ J)
    (hP : ∀ u c, u.cut ⊆ J → u.OctInv → Cell u.cut c → P u c → c ∈ J) : t.cut ⊆ J := by
  induction h with
  | refl => exact hsub
  | tail h hstep ih =>
      obtain ⟨v, c, hat, hc, hsplit⟩ := hstep
      have hu := Grows.inv h hs
      rw [hsplit.cut_eq hu hat]
      exact Set.insert_subset (hP _ c ih hu (cell_iff.mpr ⟨v, hat⟩) hc) ih

theorem Grows.imp (h : Grows P s t) (hPQ : ∀ u c, Grows P s u → P u c → Q u c) : Grows Q s t := by
  induction h with
  | refl => exact .refl
  | tail h hstep ih =>
      obtain ⟨v, c, hat, hc, hsplit⟩ := hstep
      exact ih.tail ⟨v, c, hat, hPQ _ c h hc, hsplit⟩

theorem Full.imp {e : Status} (h : Full P s e) (hPQ : ∀ u c, Grows P s u → P u c → Q u c) :
    Full Q s e := by
  obtain ⟨he, u, v, c, hu, hat, hleaf, hc, hfull⟩ := h
  exact ⟨he, u, v, c, hu.imp hPQ, hat, hleaf, hPQ u c hu hc, hfull⟩

theorem Full.of_grows {e : Status} (h : Full P t e) (hgrow : Grows P s t) : Full P s e := by
  obtain ⟨he, u, v, c, hu, hrest⟩ := h
  exact ⟨he, u, v, c, hgrow.trans hu, hrest⟩

end Grows

/-- The cut cubes are less deep than the level. -/
def Deep (s : RefOct K) (L : Nat) : Prop := ∀ c ∈ s.cut, c.level < L

theorem Deep.at_le {s : RefOct K} {L : Nat} (h : s.Deep L) {v : Nat} {c : Cube} (hat : s.At v c) :
    c.level ≤ L :=
  Cell.level_le h (cell_iff.mpr ⟨v, hat⟩)

theorem SplitOf.deep {s s' : RefOct K} {L v : Nat} {c : Cube} (h : SplitOf s s' v) (hs : s.OctInv)
    (hat : s.At v c) (hlevel : c.level < L) (hdeep : s.Deep L) : s'.Deep L := by
  intro d hd
  rw [h.cut_eq hs hat] at hd
  rcases hd with rfl | hd
  · exact hlevel
  · exact hdeep d hd

theorem cut_tree {s : RefOct K} : ∀ c ∈ s.cut, Cell s.cut c := by
  rintro c ⟨v, hat, _⟩
  exact cell_iff.mpr ⟨v, hat⟩

/-! ## Boxes of cubes -/

section Boxes

variable [Field K]

/-- The box of a cube. -/
def cubeBox (K : Type) [Field K] (c : Cube) : Fin 6 → K :=
  ![c.lo K 0, c.hi K 0, c.lo K 1, c.hi K 1, c.lo K 2, c.hi K 2]

variable [LinearOrder K] [IsStrictOrderedRing K]

theorem childBbox_cubeBox (c : Cube) {i : Nat} (hi : i < 8) :
    childBbox (cubeBox K c) i = .ok (cubeBox K (c.child (octant i))) := by
  have hmid : ∀ a b : K, 2⁻¹ * (a + b) = (a + b) / 2 := fun a b => by ring
  interval_cases i <;>
    simp [childBbox, cubeBox, middle, Cube.child_lo, Cube.child_hi, octant, hmid]

omit [Field K] [IsStrictOrderedRing K] in
theorem bboxOverlap_iff (bbox0 bbox1 : Fin 6 → K) : bboxOverlap bbox0 bbox1 = true ↔
    (bbox1 0 ≤ bbox0 1 ∧ bbox0 0 ≤ bbox1 1) ∧ (bbox1 2 ≤ bbox0 3 ∧ bbox0 2 ≤ bbox1 3) ∧
      (bbox1 4 ≤ bbox0 5 ∧ bbox0 4 ≤ bbox1 5) := by
  simp only [bboxOverlap, Bool.if_false_left, Bool.and_eq_true, Bool.not_eq_true',
    decide_eq_false_iff_not, not_or, not_lt, and_true]

omit [IsStrictOrderedRing K] in
theorem bboxOverlap_cubeBox (c : Cube) (bbox : Fin 6 → K) :
    bboxOverlap (cubeBox K c) bbox = true ↔
      (bbox 0 ≤ c.hi K 0 ∧ c.lo K 0 ≤ bbox 1) ∧ (bbox 2 ≤ c.hi K 1 ∧ c.lo K 1 ≤ bbox 3) ∧
        (bbox 4 ≤ c.hi K 2 ∧ c.lo K 2 ≤ bbox 5) :=
  bboxOverlap_iff _ _

variable [ExactSqrt K]

omit [IsStrictOrderedRing K] in
theorem bboxDiag_nonneg (bbox : Fin 6 → K) : 0 ≤ bboxDiag bbox := ExactSqrt.sqrt_nonneg _

/-- The square of the diagonal. -/
theorem bboxDiag_sq (c : Cube) : bboxDiag (cubeBox K c) ^ 2 = 3 / 4 ^ c.level := by
  have hside : ∀ a, c.hi K a - c.lo K a = 1 / 2 ^ c.level := fun a => by
    rw [Cube.hi_eq, add_sub_cancel_left]
  rw [bboxDiag, pow_two, ExactSqrt.sqrt_mul_self _ (by positivity)]
  simp only [cubeBox, Matrix.cons_val]
  rw [hside, hside, hside, div_pow, ← pow_mul, mul_comm, pow_mul]
  norm_num
  ring

theorem bboxDiag_le_iff {h : K} (hpos : 0 ≤ h) (c : Cube) :
    bboxDiag (cubeBox K c) ≤ h ↔ 3 / 4 ^ c.level ≤ h ^ 2 := by
  rw [← bboxDiag_sq, pow_le_pow_iff_left₀ (bboxDiag_nonneg _) hpos two_ne_zero]

theorem bboxDiag_anti {c d : Cube} (h : c.level ≤ d.level) :
    bboxDiag (cubeBox K d) ≤ bboxDiag (cubeBox K c) := by
  rw [bboxDiag_le_iff (bboxDiag_nonneg _), bboxDiag_sq]
  apply div_le_div_of_nonneg_left (by norm_num) (by positivity)
  exact pow_le_pow_right₀ (by norm_num) h

/-- The cubes that a call of `ref_oct_split_touching` is to cut. -/
def Over (bbox : Fin 6 → K) (h : K) (c : Cube) : Prop :=
  bboxOverlap (cubeBox K c) bbox = true ∧ h < bboxDiag (cubeBox K c)

theorem Over.of_below {bbox : Fin 6 → K} {h : K} {c d : Cube} (hbelow : c.Below d)
    (hover : Over bbox h d) : Over bbox h c := by
  obtain ⟨hoverlap, hdiag⟩ := hover
  refine ⟨?_, hdiag.trans_le (bboxDiag_anti hbelow.level_le)⟩
  have hends := fun a => hbelow.ends (K := K) a
  rw [bboxOverlap_cubeBox] at hoverlap ⊢
  obtain ⟨hx, hy, hz⟩ := hoverlap
  exact ⟨⟨hx.1.trans (hends 0).2, (hends 0).1.trans hx.2⟩,
    ⟨hy.1.trans (hends 1).2, (hends 1).1.trans hy.2⟩,
    ⟨hz.1.trans (hends 2).2, (hends 2).1.trans hz.2⟩⟩

/-! ## The loops over the children -/

omit [ExactSqrt K] in
/-- **A descent**: what each child gets, and what later children do not undo. -/
theorem descend_ends {f : RefOct K → Nat → (Fin 6 → K) → Fueled Status (RefOct K)}
    {P : RefOct K → Cube → Prop} {D : Cube → RefOct K → Prop} {s : RefOct K} {v : Nat} {c : Cube}
    {O : Prop} (hs : s.OctInv) (hat : s.At v c) (hinner : ¬ s.LeafNode v)
    (hD : ∀ x t u, Grows P s t → Grows P t u → D x t → D x u)
    (hf : ∀ t w i, Grows P s t → t.OctInv → i < 8 → t.At w (c.child (octant i)) →
      Ends (f t w (cubeBox K (c.child (octant i))))
        (fun u => Grows P t u ∧ D (c.child (octant i)) u) (Full P t) O) :
    Ends ((List.range 8).foldlM (fun t i => do
        let box ← lift (childBbox (cubeBox K c) i)
        f t (t.children v i).toNat box) s)
      (fun t => Grows P s t ∧ ∀ o, D (c.child o) t) (Full P s) O := by
  have hloop := ends_loop (E := Full P s) (O := O) (n := 8) (a := s)
    (f := fun t i => do
      let box ← lift (childBbox (cubeBox K c) i)
      f t (t.children v i).toNat box)
    (I := fun k t => Grows P s t ∧ ∀ i < k, D (c.child (octant i)) t)
    ⟨.refl, fun i hi => absurd hi (Nat.not_lt_zero i)⟩ ?_
  · refine hloop.imp (fun t ht => ⟨ht.1, fun o => ?_⟩) (fun _ => id) id
    obtain ⟨i, hi, rfl⟩ := exists_octant o
    exact ht.2 i hi
  · rintro k t hk ⟨hgrow, hdone⟩
    have ht := hgrow.inv hs
    have hcut : c ∈ t.cut := hgrow.cut_subset hs ⟨v, hat, hinner⟩
    have hatt := hgrow.at_of_at hat
    obtain ⟨w, hw, hinnerw⟩ := hcut
    obtain rfl := hw.row_unique hatt
    refine (ends_ok (childBbox_cubeBox c hk) (Q := fun box => box = _) rfl).bind ?_
    rintro box rfl
    refine (hf t _ k hgrow ht hk (.child hw hinnerw hk)).imp ?_
      (fun e he => he.of_grows hgrow) id
    rintro u ⟨hu, hdoneu⟩
    refine ⟨hgrow.trans hu, fun i hi => ?_⟩
    rcases Nat.lt_succ_iff_lt_or_eq.mp hi with hi | rfl
    · exact hD _ t u hgrow hu (hdone i hi)
    · exact hdoneu

/-- What a refinement of the cube has to cut is cut. -/
def Refined (bbox : Fin 6 → K) (h : K) (c : Cube) (t : RefOct K) : Prop :=
  ∀ d, c.Below d → Over bbox h d → d ∈ t.cut

omit [IsStrictOrderedRing K] in
theorem refined_of_children {bbox : Fin 6 → K} {h : K} {c : Cube} {t : RefOct K} (hc : c ∈ t.cut)
    (hchildren : ∀ o, Refined bbox h (c.child o) t) : Refined bbox h c t := by
  intro d hbelow hover
  rcases hbelow.eq_or_child with rfl | ⟨o, ho⟩
  · exact hc
  · exact hchildren o d ho hover

/-- **The refinement below a row.** -/
theorem splitTouchingNode_ends {bbox : Fin 6 → K} {h : K} (fuel : Nat) {s : RefOct K} {v : Nat}
    {c : Cube} (hs : s.OctInv) (hat : s.At v c) :
    Ends (splitTouchingNode bbox h fuel s v (cubeBox K c))
      (fun t => Grows (fun _ => Over bbox h) s t ∧ Refined bbox h c t)
      (Full (fun _ => Over bbox h) s)
      (∀ L, s.Deep L → (∀ d, Over bbox h d → d.level < L) → fuel + c.level ≤ L) := by
  induction fuel generalizing s v c with
  | zero =>
      refine ends_out fun L hdeep _ => ?_
      rw [Nat.zero_add]
      exact hdeep.at_le hat
  | succ fuel ih =>
      -- the descent from a row that is no leaf, after a split or without one
      have hdescend : ∀ t, Grows (fun _ => Over bbox h) s t → ¬ t.LeafNode v → t.At v c →
          Ends ((List.range 8).foldlM (fun t i => do
              let box ← lift (childBbox (cubeBox K c) i)
              splitTouchingNode bbox h fuel t (t.children v i).toNat box) t)
            (fun u => Grows (fun _ => Over bbox h) s u ∧ Refined bbox h c u)
            (Full (fun _ => Over bbox h) s)
            (∀ L, s.Deep L → (∀ d, Over bbox h d → d.level < L) → fuel + 1 + c.level ≤ L) := by
        intro t hst hinner hatt
        have ht := hst.inv hs
        have hall := descend_ends (f := splitTouchingNode bbox h fuel) (D := Refined bbox h)
          (O := ∀ L, s.Deep L → (∀ d, Over bbox h d → d.level < L) → fuel + 1 + c.level ≤ L)
          ht hatt hinner (P := fun _ => Over bbox h)
          (fun x u w hu hw hdone d hbelow hover =>
            hw.cut_subset (hu.inv ht) (hdone d hbelow hover))
          fun u w i hu huinv hi hatw => ?_
        · refine hall.imp (fun u hu => ⟨hst.trans hu.1, ?_⟩) (fun e he => he.of_grows hst) id
          exact refined_of_children (hu.1.cut_subset ht ⟨v, hatt, hinner⟩) hu.2
        · refine (ih huinv hatw).imp (fun _ => id) (fun _ => id) fun hO L hdeep hover => ?_
          have hdeepu : u.Deep L := fun d hd =>
            Grows.cut_inv (hst.trans hu) hs (J := {d | d.level < L}) hdeep
              (fun _ d _ _ _ hd => hover d hd) hd
          have hle := hO L hdeepu hover
          rw [Cube.child_level] at hle
          omega
      rw [splitTouchingNode]
      by_cases hoverlap : bboxOverlap (cubeBox K c) bbox = false
      · rw [if_pos hoverlap]
        refine ends_done ⟨.refl, fun d hbelow hover => ?_⟩
        rw [(Over.of_below hbelow hover).1] at hoverlap
        cases hoverlap
      · rw [if_neg hoverlap]
        by_cases hleaf : s.LeafNode v
        · rw [if_pos hleaf]
          by_cases hdiag : h < bboxDiag (cubeBox K c)
          · rw [if_pos hdiag]
            have hover : Over bbox h c := ⟨by simpa using hoverlap, hdiag⟩
            obtain ⟨herr, hfull⟩ | ⟨t, ht, hsplit⟩ := split_spec hs (hat.lt hs) hleaf
            · exact (ends_error herr (Q := fun _ => False)
                ⟨rfl, s, v, c, .refl, hat, hleaf, hover, hfull⟩).bind fun _ hfalse => hfalse.elim
            · refine (ends_ok ht (Q := fun u => u = t) rfl).bind ?_
              rintro _ rfl
              exact hdescend _ (.single ⟨v, c, hat, hover, hsplit⟩)
                (fun hl => (hsplit.leafNode_iff.mp hl).1 rfl) (hsplit.at_of_at hat)
          · rw [if_neg hdiag]
            exact ends_done ⟨.refl, fun d hbelow hover =>
              absurd (Over.of_below hbelow hover).2 hdiag⟩
        · rw [if_neg hleaf]
          exact hdescend s .refl hleaf hat

/-- **The refinement of a region** cuts what it has to, and no more. -/
theorem splitTouching_ends {bbox : Fin 6 → K} {h : K} (fuel : Nat) {s : RefOct K} (hs : s.OctInv)
    (hbox : s.bbox = cubeBox K .root) :
    Ends (splitTouching bbox h fuel s)
      (fun t => Grows (fun _ => Over bbox h) s t ∧ Refined bbox h .root t)
      (Full (fun _ => Over bbox h) s)
      (∀ L, s.Deep L → (∀ d, Over bbox h d → d.level < L) → fuel ≤ L) := by
  rw [splitTouching, hbox]
  exact splitTouchingNode_ends fuel hs .root

end Boxes

end RefOct

end RefineMesh
