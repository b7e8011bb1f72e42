import Mathlib.Tactic

/-!
# Octrees

A cube is a level and a corner in units of its side; the eighths of a cube are
the cubes of the next level.  A tree is the set of the cubes that are cut, so
its cells are the root and the eighths of its members, and its leaves the cells
that are not cut.  Trees whose touching leaves differ by one level at most are
graded, and what one leaf forces on its neighbours is in every graded tree.
-/

namespace Octree

-- the numeral of the halves, for every field
local instance atLeastTwo_two : Nat.AtLeastTwo 2 := ⟨le_rfl⟩

/-- A cube of the unit cube. -/
structure Cube where
  level : Nat
  corner : Fin 3 → Nat
deriving DecidableEq

namespace Cube

/-- The unit cube. -/
def root : Cube := ⟨0, fun _ => 0⟩

/-- The eighth on the given sides of the middle planes. -/
def child (c : Cube) (o : Fin 3 → Bool) : Cube :=
  ⟨c.level + 1, fun a => 2 * c.corner a + (o a).toNat⟩

@[simp] theorem child_level (c : Cube) (o : Fin 3 → Bool) : (c.child o).level = c.level + 1 := rfl

@[simp] theorem child_corner (c : Cube) (o : Fin 3 → Bool) (a : Fin 3) :
    (c.child o).corner a = 2 * c.corner a + (o a).toNat := rfl

theorem child_ne_root (c : Cube) (o : Fin 3 → Bool) : c.child o ≠ root := by
  intro h
  have hlevel := congrArg Cube.level h
  simp [root] at hlevel

theorem child_inj {c d : Cube} {o o' : Fin 3 → Bool} : c.child o = d.child o' ↔ c = d ∧ o = o' := by
  constructor
  · intro h
    have hlevel : c.level + 1 = d.level + 1 := congrArg Cube.level h
    have hcorner : ∀ a, 2 * c.corner a + (o a).toNat = 2 * d.corner a + (o' a).toNat := fun a =>
      congrFun (congrArg Cube.corner h) a
    have hboth : ∀ a, c.corner a = d.corner a ∧ o a = o' a := by
      intro a
      have ha := hcorner a
      cases ho : o a <;> cases ho' : o' a <;> rw [ho, ho'] at ha <;> simp at ha ⊢ <;> omega
    obtain ⟨level, corner⟩ := c
    obtain ⟨level', corner'⟩ := d
    obtain rfl : level = level' := Nat.succ_injective hlevel
    obtain rfl : corner = corner' := funext fun a => (hboth a).1
    exact ⟨rfl, funext fun a => (hboth a).2⟩
  · rintro ⟨rfl, rfl⟩
    rfl

section Points

variable {K : Type*} [Field K]

/-- The lower end along an axis. -/
def lo (K : Type*) [Field K] (c : Cube) (a : Fin 3) : K := c.corner a / 2 ^ c.level

/-- The upper end along an axis. -/
def hi (K : Type*) [Field K] (c : Cube) (a : Fin 3) : K := (c.corner a + 1) / 2 ^ c.level

theorem hi_eq (c : Cube) (a : Fin 3) : c.hi K a = c.lo K a + 1 / 2 ^ c.level := by
  rw [hi, lo, add_div]

variable [LinearOrder K]

/-- The point is in the closed cube. -/
def Has (c : Cube) (x : Fin 3 → K) : Prop := ∀ a, c.lo K a ≤ x a ∧ x a ≤ c.hi K a

variable [IsStrictOrderedRing K]

theorem lo_lt_hi (c : Cube) (a : Fin 3) : c.lo K a < c.hi K a := by
  rw [hi_eq]
  exact lt_add_of_pos_right _ (by positivity)

theorem child_lo (c : Cube) (o : Fin 3 → Bool) (a : Fin 3) :
    (c.child o).lo K a = if o a then (c.lo K a + c.hi K a) / 2 else c.lo K a := by
  cases ho : o a <;> simp [lo, hi, ho, pow_succ] <;> field_simp
  ring

theorem child_hi (c : Cube) (o : Fin 3 → Bool) (a : Fin 3) :
    (c.child o).hi K a = if o a then c.hi K a else (c.lo K a + c.hi K a) / 2 := by
  cases ho : o a <;> simp [lo, hi, ho, pow_succ] <;> field_simp <;> ring

/-- A point of an eighth is in the cube. -/
theorem Has.of_child {c : Cube} {o : Fin 3 → Bool} {x : Fin 3 → K} (h : (c.child o).Has x) :
    c.Has x := by
  intro a
  obtain ⟨hlo, hhi⟩ := h a
  rw [child_lo] at hlo
  rw [child_hi] at hhi
  have hlt := c.lo_lt_hi (K := K) a
  cases ho : o a <;> simp only [ho, if_true, if_false, Bool.false_eq_true] at hlo hhi <;>
    constructor <;> linarith

/-- **The eighths cover the cube.** -/
theorem Has.exists_child {c : Cube} {x : Fin 3 → K} (h : c.Has x) : ∃ o, (c.child o).Has x := by
  refine ⟨fun a => decide ((c.lo K a + c.hi K a) / 2 ≤ x a), fun a => ?_⟩
  obtain ⟨hlo, hhi⟩ := h a
  rw [child_lo, child_hi]
  by_cases ha : (c.lo K a + c.hi K a) / 2 ≤ x a
  · simp [ha, hhi]
  · simp [ha, hlo, (not_le.mp ha).le]

theorem root_has_iff {x : Fin 3 → K} : root.Has x ↔ ∀ a, 0 ≤ x a ∧ x a ≤ 1 := by
  simp [Has, lo, hi, root]

end Points

/-- The cube and what it is cut into. -/
inductive Below (c : Cube) : Cube → Prop
  | refl : Below c c
  | child {d : Cube} (h : Below c d) (o : Fin 3 → Bool) : Below c (d.child o)

theorem Below.eq_or_child {c d : Cube} (h : c.Below d) : d = c ∨ ∃ o, (c.child o).Below d := by
  induction h with
  | refl => exact Or.inl rfl
  | child h o ih =>
      right
      rcases ih with rfl | ⟨o', ho'⟩
      · exact ⟨o, .refl⟩
      · exact ⟨o', .child ho' o⟩

theorem Below.of_child {c d : Cube} {o : Fin 3 → Bool} (h : (c.child o).Below d) : c.Below d := by
  induction h with
  | refl => exact .child .refl o
  | child _ o' ih => exact .child ih o'

theorem Below.level_le {c d : Cube} (h : c.Below d) : c.level ≤ d.level := by
  induction h with
  | refl => exact le_rfl
  | child _ _ ih => exact ih.trans (Nat.le_succ _)

theorem Below.ends {K : Type*} [Field K] [LinearOrder K] [IsStrictOrderedRing K] {c d : Cube}
    (h : c.Below d) (a : Fin 3) : c.lo K a ≤ d.lo K a ∧ d.hi K a ≤ c.hi K a := by
  induction h with
  | refl => exact ⟨le_rfl, le_rfl⟩
  | @child d _ o ih =>
      have hlt := d.lo_lt_hi (K := K) a
      rw [child_lo, child_hi]
      cases o a <;> simp only [if_true, if_false, Bool.false_eq_true] <;> constructor <;> linarith

/-! ## Cubes that touch -/

/-- The closed cubes share a point, in multiples of both sides. -/
def Touch (c d : Cube) : Prop :=
  ∀ a, c.corner a * 2 ^ d.level ≤ (d.corner a + 1) * 2 ^ c.level ∧
    d.corner a * 2 ^ c.level ≤ (c.corner a + 1) * 2 ^ d.level

instance (c d : Cube) : Decidable (Touch c d) := inferInstanceAs (Decidable (∀ _, _))

theorem Touch.symm {c d : Cube} (h : Touch c d) : Touch d c := fun a => ⟨(h a).2, (h a).1⟩

section Near

variable (K : Type*) [Field K] [LinearOrder K] [IsStrictOrderedRing K]

theorem lo_le_hi_iff (c d : Cube) (a : Fin 3) :
    c.lo K a ≤ d.hi K a ↔ c.corner a * 2 ^ d.level ≤ (d.corner a + 1) * 2 ^ c.level := by
  rw [lo, hi, div_le_div_iff₀ (by positivity) (by positivity)]
  exact_mod_cast Iff.rfl

theorem touch_iff_ends {c d : Cube} :
    Touch c d ↔ ∀ a, c.lo K a ≤ d.hi K a ∧ d.lo K a ≤ c.hi K a := by
  refine forall_congr' fun a => ?_
  rw [lo_le_hi_iff, lo_le_hi_iff]

theorem touch_iff_point {c d : Cube} : Touch c d ↔ ∃ x : Fin 3 → K, c.Has x ∧ d.Has x := by
  rw [touch_iff_ends K]
  constructor
  · intro h
    refine ⟨fun a => max (c.lo K a) (d.lo K a), fun a => ?_, fun a => ?_⟩
    · exact ⟨le_max_left _ _, max_le (c.lo_lt_hi a).le (h a).2⟩
    · exact ⟨le_max_right _ _, max_le (h a).1 (d.lo_lt_hi a).le⟩
  · rintro ⟨x, hc, hd⟩ a
    exact ⟨(hc a).1.trans (hd a).2, (hd a).1.trans (hc a).2⟩

/-- Ends of cubes that are nearer than the finer side are in order. -/
theorem lo_le_hi_of_near {c d : Cube} {L : Nat} (hc : c.level ≤ L) (hd : d.level ≤ L) {a : Fin 3}
    {t : K} (ht : t < 1 / 2 ^ L) (hnear : c.lo K a ≤ d.hi K a + t) : c.lo K a ≤ d.hi K a := by
  rw [lo_le_hi_iff]
  have hunit : (0 : K) < 2 ^ L := by positivity
  have hcL : (2 : K) ^ L = 2 ^ c.level * 2 ^ (L - c.level) := by rw [← pow_add]; congr 1; omega
  have hdL : (2 : K) ^ L = 2 ^ d.level * 2 ^ (L - d.level) := by rw [← pow_add]; congr 1; omega
  have hscaled : (c.corner a : K) * 2 ^ (L - c.level) <
      (d.corner a + 1) * 2 ^ (L - d.level) + 1 := by
    have hlt : c.lo K a < d.hi K a + 1 / 2 ^ L := hnear.trans_lt (by linarith)
    have hmul := mul_lt_mul_of_pos_right hlt hunit
    rw [add_mul, one_div, inv_mul_cancel₀ hunit.ne'] at hmul
    calc (c.corner a : K) * 2 ^ (L - c.level) = c.lo K a * 2 ^ L := by
          rw [lo, hcL]
          field_simp
      _ < d.hi K a * 2 ^ L + 1 := hmul
      _ = (d.corner a + 1) * 2 ^ (L - d.level) + 1 := by
          rw [hi, hdL]
          field_simp
  have hle : c.corner a * 2 ^ (L - c.level) ≤ (d.corner a + 1) * 2 ^ (L - d.level) := by
    have hnat : c.corner a * 2 ^ (L - c.level) < (d.corner a + 1) * 2 ^ (L - d.level) + 1 := by
      exact_mod_cast hscaled
    omega
  have hpow : ∀ {k}, k ≤ L → 2 ^ L = 2 ^ k * 2 ^ (L - k) := by
    intro k hk
    rw [← pow_add]
    congr 1
    omega
  -- both sides times the two powers that are missing
  apply Nat.le_of_mul_le_mul_right _ (show 0 < 2 ^ (L - c.level) * 2 ^ (L - d.level) by positivity)
  calc c.corner a * 2 ^ d.level * (2 ^ (L - c.level) * 2 ^ (L - d.level))
      = c.corner a * 2 ^ (L - c.level) * 2 ^ L := by rw [hpow hd]; ring
    _ ≤ (d.corner a + 1) * 2 ^ (L - d.level) * 2 ^ L := Nat.mul_le_mul_right _ hle
    _ = (d.corner a + 1) * 2 ^ c.level * (2 ^ (L - c.level) * 2 ^ (L - d.level)) := by
        rw [hpow hc]; ring

/-- **Nearer than the finer side is touching.** -/
theorem touch_iff_near {c d : Cube} {L : Nat} (hc : c.level ≤ L) (hd : d.level ≤ L) {t : K}
    (hpos : 0 ≤ t) (ht : t < 1 / 2 ^ L) :
    Touch c d ↔ ∀ a, c.lo K a ≤ d.hi K a + t ∧ d.lo K a - t ≤ c.hi K a := by
  rw [touch_iff_ends K]
  refine forall_congr' fun a => ⟨fun h => ⟨by linarith [h.1], by linarith [h.2]⟩, fun h => ?_⟩
  exact ⟨lo_le_hi_of_near K hc hd ht h.1, lo_le_hi_of_near K hd hc ht (by linarith [h.2])⟩

end Near

end Cube

open Octree.Cube

/-! ## Trees -/

/-- A cell of the tree with these cut cubes. -/
def Cell (T : Set Cube) (c : Cube) : Prop := c = root ∨ ∃ p ∈ T, ∃ o, c = p.child o

/-- A cell that is not cut. -/
def Leaf (T : Set Cube) (c : Cube) : Prop := Cell T c ∧ c ∉ T

/-- Leaves that touch differ by one level at most. -/
def Graded (T : Set Cube) : Prop :=
  ∀ c d, Leaf T c → Leaf T d → Touch c d → d.level ≤ c.level + 1

theorem Cell.mono {T J : Set Cube} (h : T ⊆ J) {c : Cube} (hc : Cell T c) : Cell J c := by
  obtain rfl | ⟨p, hp, o, rfl⟩ := hc
  · exact Or.inl rfl
  · exact Or.inr ⟨p, h hp, o, rfl⟩

variable {T J : Set Cube} {L : Nat}

/-- The cut cubes of a tree are cells, and so every cell is below the root. -/
theorem Cell.below_root (htree : ∀ c ∈ T, Cell T c) {c : Cube} (hc : Cell T c) :
    root.Below c := by
  generalize hk : c.level = k
  induction k generalizing c with
  | zero =>
      obtain rfl | ⟨p, _, o, rfl⟩ := hc
      · exact .refl
      · cases hk
  | succ k ih =>
      obtain rfl | ⟨p, hp, o, rfl⟩ := hc
      · exact .refl
      · exact .child (ih (htree p hp) (Nat.succ_injective hk)) o

theorem Cell.cut_of_child {c : Cube} {o : Fin 3 → Bool} (hc : Cell T (c.child o)) : c ∈ T := by
  obtain heq | ⟨p, hp, o', heq⟩ := hc
  · exact absurd heq (Cube.child_ne_root _ _)
  · obtain ⟨rfl, _⟩ := Cube.child_inj.mp heq
    exact hp

/-- No cell is below a leaf but the leaf. -/
theorem Leaf.eq_of_below (htree : ∀ c ∈ T, Cell T c) {c e : Cube} (hc : Leaf T c)
    (hbelow : c.Below e) (he : Cell T e) : e = c := by
  induction hbelow with
  | refl => rfl
  | child _ o ih =>
      have hcut := he.cut_of_child
      obtain rfl := ih (htree _ hcut)
      exact absurd hcut hc.2

/-- A cell is no deeper than the cubes that are cut. -/
theorem Cell.level_le (hdeep : ∀ c ∈ T, c.level < L) {c : Cube} (hc : Cell T c) : c.level ≤ L := by
  obtain rfl | ⟨p, hp, o, rfl⟩ := hc
  · exact Nat.zero_le _
  · exact hdeep p hp

section Points

variable {K : Type*} [Field K] [LinearOrder K] [IsStrictOrderedRing K]

/-- **A point of a cell is in a leaf** of the cell. -/
theorem exists_leaf (hdeep : ∀ c ∈ T, c.level < L) {c : Cube} (hc : Cell T c) {x : Fin 3 → K}
    (hx : c.Has x) : ∃ d, Leaf T d ∧ d.Has x ∧ c.level ≤ d.level := by
  generalize hk : L - c.level = k
  induction k using Nat.strong_induction_on generalizing c with
  | _ k ih =>
      by_cases hcut : c ∈ T
      · have hlt := hdeep c hcut
        obtain ⟨o, ho⟩ := hx.exists_child
        obtain ⟨d, hd, hxd, hle⟩ := ih (L - (c.level + 1)) (by omega)
          (Or.inr ⟨c, hcut, o, rfl⟩) ho rfl
        exact ⟨d, hd, hxd, (Nat.le_succ _).trans hle⟩
      · exact ⟨c, ⟨hc, hcut⟩, hx, le_rfl⟩

end Points

/-- **What a cell forces**: a leaf that touches a cell two levels below is cut
in every graded tree that goes on from this one. -/
theorem Graded.forced (hJ : Graded J) (hdeep : ∀ c ∈ J, c.level < L) (hsub : T ⊆ J)
    {c e : Cube} (hc : Cell T c) (he : Cell T e) (htouch : Touch c e)
    (hlevel : c.level + 2 ≤ e.level) : c ∈ J := by
  by_contra hcut
  obtain ⟨x, hxc, hxe⟩ := (touch_iff_point ℚ).mp htouch
  obtain ⟨d, hd, hxd, hle⟩ := exists_leaf hdeep (he.mono hsub) hxe
  have hbal := hJ c d ⟨hc.mono hsub, hcut⟩ hd ((touch_iff_point ℚ).mpr ⟨x, hxc, hxd⟩)
  omega

/-! ## Full trees -/

/-- The cubes of the levels below `L`. -/
def upTo (L : Nat) : Set Cube := {c | root.Below c ∧ c.level < L}

theorem below_root_cases {c : Cube} (h : root.Below c) :
    c = root ∨ ∃ p o, root.Below p ∧ c = p.child o := by
  cases h with
  | refl => exact Or.inl rfl
  | child hp o => exact Or.inr ⟨_, o, hp, rfl⟩

theorem upTo_succ_subset (L : Nat) :
    upTo (L + 1) ⊆ insert root ((fun x : Cube × (Fin 3 → Bool) => x.1.child x.2) ''
      (upTo L ×ˢ Set.univ)) := by
  rintro c ⟨hc, hlevel⟩
  rcases below_root_cases hc with rfl | ⟨p, o, hp, rfl⟩
  · exact Or.inl rfl
  · exact Or.inr ⟨(p, o), ⟨⟨hp, Nat.lt_of_succ_lt_succ hlevel⟩, trivial⟩, rfl⟩

theorem upTo_finite (L : Nat) : (upTo L).Finite := by
  induction L with
  | zero => exact Set.finite_empty.subset fun c hc => absurd hc.2 (Nat.not_lt_zero _)
  | succ L ih =>
      exact (((ih.prod Set.finite_univ).image _).insert root).subset (upTo_succ_subset L)

theorem ncard_upTo_le (L : Nat) : 7 * (upTo L).ncard + 1 ≤ 8 ^ L := by
  induction L with
  | zero =>
      have hnone : upTo 0 = ∅ :=
        Set.eq_empty_iff_forall_notMem.mpr fun c hc => absurd hc.2 (Nat.not_lt_zero _)
      rw [hnone, Set.ncard_empty]
      decide
  | succ L ih =>
      have hfin := (upTo_finite L).prod (Set.finite_univ (α := Fin 3 → Bool))
      have hle : (upTo (L + 1)).ncard ≤ (upTo L).ncard * 8 + 1 := by
        refine (Set.ncard_le_ncard (upTo_succ_subset L) ((hfin.image _).insert root)).trans ?_
        refine (Set.ncard_insert_le _ _).trans (Nat.add_le_add_right ?_ 1)
        refine (Set.ncard_image_le hfin).trans ?_
        rw [Set.ncard_prod, Set.ncard_univ]
        simp
      rw [pow_succ]
      omega

theorem graded_upTo (L : Nat) : Graded (upTo L) := by
  have htree : ∀ c ∈ upTo L, Cell (upTo L) c := by
    rintro c ⟨hc, hlevel⟩
    rcases below_root_cases hc with rfl | ⟨p, o, hp, rfl⟩
    · exact Or.inl rfl
    · exact Or.inr ⟨p, ⟨hp, Nat.lt_of_succ_lt hlevel⟩, o, rfl⟩
  intro c d hc hd _
  have hle := hd.1.level_le (L := L) fun p hp => hp.2
  have hge : ¬ c.level < L := fun hlevel => hc.2 ⟨hc.1.below_root htree, hlevel⟩
  omega

end Octree
