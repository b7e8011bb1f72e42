import Mathlib.Tactic
import Mathlib.Data.Nat.Bitwise

/-!
# Morton codes

`ref_migrate_morton_id` puts the low 21 bits of three coordinates on every third
bit of one code.  `ref_migrate_split_morton` spreads one coordinate in five
steps.  Before a step the bits stand in blocks of `2 w` bits with `4 w` zero
bits after each block; the step moves the upper half of each block away, so
that blocks of `w` bits are left.
-/

namespace RefineMesh

/-- `ref_migrate_split_morton`. -/
def refMigrateSplitMorton (a : BitVec 64) : BitVec 64 :=
  let x := a &&& 0x1fffff#64
  let x := (x ||| x <<< 32) &&& 0x1f00000000ffff#64
  let x := (x ||| x <<< 16) &&& 0x1f0000ff0000ff#64
  let x := (x ||| x <<< 8) &&& 0x100f00f00f00f00f#64
  let x := (x ||| x <<< 4) &&& 0x10c30c30c30c30c3#64
  let x := (x ||| x <<< 2) &&& 0x1249249249249249#64
  x

/-- `ref_migrate_morton_id`. -/
def refMigrateMortonId (x y z : BitVec 32) : BitVec 64 :=
  0#64 |||
    (refMigrateSplitMorton (x.setWidth 64) ||| refMigrateSplitMorton (y.setWidth 64) <<< 1 |||
      refMigrateSplitMorton (z.setWidth 64) <<< 2)

namespace Morton

/-! ## Bits in blocks -/

/-- The bit of the coordinate that stands at bit `j`, with blocks of `w` bits. -/
def source (w j : Nat) : Nat := w * (j / (3 * w)) + j % (3 * w)

/-- Bit `j` is inside a block and has one of the low 21 bits. -/
def InBlock (w j : Nat) : Prop := j % (3 * w) < w ∧ source w j < 21

instance (w j : Nat) : Decidable (InBlock w j) := inferInstanceAs (Decidable (_ ∧ _))

/-- `x` has the low 21 bits of `a` in blocks of `w` bits and no other bit. -/
def Spread (a : BitVec 64) (w : Nat) (x : BitVec 64) : Prop :=
  ∀ j < 64, x.getLsbD j = (decide (InBlock w j) && a.getLsbD (source w j))

/-- The mask keeps the blocks of `w` bits, and each bit of them comes from one
place: where it stands, or `2 w` bits below. -/
def Splits (w : Nat) (mask : BitVec 64) : Prop :=
  ∀ j < 64, mask.getLsbD j = decide (InBlock w j) ∧
    (InBlock w j →
      InBlock (2 * w) j ∧ source (2 * w) j = source w j ∧
          ¬ (2 * w ≤ j ∧ InBlock (2 * w) (j - 2 * w)) ∨
        ¬ InBlock (2 * w) j ∧ 2 * w ≤ j ∧ InBlock (2 * w) (j - 2 * w) ∧
          source (2 * w) (j - 2 * w) = source w j)

instance (w : Nat) (mask : BitVec 64) : Decidable (Splits w mask) :=
  inferInstanceAs (Decidable (∀ j < 64, _))

/-- One step of the split. -/
theorem Spread.split {a x mask : BitVec 64} {w : Nat} (h : Spread a (2 * w) x)
    (hmask : Splits w mask) : Spread a w ((x ||| x <<< (2 * w)) &&& mask) := by
  intro j hj
  obtain ⟨hkeep, hfrom⟩ := hmask j hj
  rw [BitVec.getLsbD_and, BitVec.getLsbD_or, BitVec.getLsbD_shiftLeft, hkeep, h j hj,
    h (j - 2 * w) (by omega)]
  by_cases hin : InBlock w j
  · rcases hfrom hin with ⟨hstay, hsource, hnot⟩ | ⟨hleave, hle, hmove, hsource⟩
    · by_cases hle : 2 * w ≤ j
      · have hnone : ¬ InBlock (2 * w) (j - 2 * w) := fun hblock => hnot ⟨hle, hblock⟩
        simp [hin, hstay, hnone, hsource]
      · have hlt : j < 2 * w := by omega
        simp [hin, hstay, hlt, hsource]
    · have hnlt : ¬ j < 2 * w := by omega
      simp [hin, hleave, hnlt, hj, hmove, hsource]
  · simp [hin]

theorem spread_mask (a : BitVec 64) : Spread a 32 (a &&& 0x1fffff#64) := by
  have hmask : ∀ j < 64, (0x1fffff#64).getLsbD j = decide (InBlock 32 j) ∧
      (InBlock 32 j → source 32 j = j) := by decide
  intro j hj
  obtain ⟨hkeep, hsource⟩ := hmask j hj
  rw [BitVec.getLsbD_and, hkeep]
  by_cases hin : InBlock 32 j
  · simp [hin, hsource hin]
  · simp [hin]

/-- The five steps leave blocks of one bit. -/
theorem spread_splitMorton (a : BitVec 64) : Spread a 1 (refMigrateSplitMorton a) := by
  have h16 := (spread_mask a).split (w := 16) (show Splits 16 0x1f00000000ffff#64 by decide)
  have h8 := h16.split (w := 8) (show Splits 8 0x1f0000ff0000ff#64 by decide)
  have h4 := h8.split (w := 4) (show Splits 4 0x100f00f00f00f00f#64 by decide)
  have h2 := h4.split (w := 2) (show Splits 2 0x10c30c30c30c30c3#64 by decide)
  exact h2.split (w := 1) (show Splits 1 0x1249249249249249#64 by decide)

/-- **`ref_migrate_split_morton`** puts bit `i` of the coordinate at bit `3 i`. -/
theorem getLsbD_splitMorton (a : BitVec 64) {j : Nat} (hj : j < 64) :
    (refMigrateSplitMorton a).getLsbD j =
      (decide (j % 3 = 0 ∧ j / 3 < 21) && a.getLsbD (j / 3)) := by
  rw [spread_splitMorton a j hj]
  have hin : InBlock 1 j ↔ j % 3 = 0 ∧ j / 3 < 21 := by
    unfold InBlock source
    omega
  by_cases hblock : j % 3 = 0 ∧ j / 3 < 21
  · have hsource : source 1 j = j / 3 := by
      unfold source
      omega
    rw [hsource, decide_eq_true (hin.mpr hblock), decide_eq_true hblock]
  · rw [decide_eq_false (mt hin.mp hblock), decide_eq_false hblock, Bool.false_and, Bool.false_and]

/-! ## The code of three coordinates -/

/-- Three coordinates by their place in the code. -/
def place (x y z : BitVec 32) : Nat → BitVec 32
  | 0 => x
  | 1 => y
  | _ => z

/-- Bit `j` of the code is bit `j / 3` of the coordinate at place `j % 3`. -/
theorem getLsbD_mortonId (x y z : BitVec 32) {j : Nat} (hj : j < 63) :
    (refMigrateMortonId x y z).getLsbD j = (place x y z (j % 3)).getLsbD (j / 3) := by
  have hsplit : ∀ (a : BitVec 32) (d : Nat), j % 3 < 3 → d ≤ 2 →
      (!decide (j < d) && (refMigrateSplitMorton (a.setWidth 64)).getLsbD (j - d)) =
        (decide (j % 3 = d) && a.getLsbD (j / 3)) := by
    intro a d hr hd
    rw [getLsbD_splitMorton _ (by omega), BitVec.getLsbD_setWidth]
    by_cases heq : j % 3 = d
    · have hdiv : (j - d) / 3 = j / 3 := by omega
      have hon : ¬ j < d ∧ ((j - d) % 3 = 0 ∧ j / 3 < 21) ∧ j / 3 < 64 := by omega
      simp [hdiv, hon, heq]
    · by_cases hlt : j < d
      · simp [hlt, heq]
      · have hoff : ¬ (j - d) % 3 = 0 := by omega
        simp [hoff, heq]
  have hr : j % 3 < 3 := Nat.mod_lt j (by omega)
  have hx := hsplit x 0 hr (by omega)
  have hy := hsplit y 1 hr (by omega)
  have hz := hsplit z 2 hr (by omega)
  simp only [Nat.not_lt_zero, decide_false, Bool.not_false, Bool.true_and, Nat.sub_zero] at hx
  have hj64 : j < 64 := by omega
  rw [refMigrateMortonId, BitVec.getLsbD_or, BitVec.getLsbD_or, BitVec.getLsbD_or,
    BitVec.getLsbD_shiftLeft, BitVec.getLsbD_shiftLeft, decide_eq_true hj64, Bool.true_and,
    Bool.true_and, hx, hy, hz, BitVec.getLsbD_zero]
  obtain h | h | h : j % 3 = 0 ∨ j % 3 = 1 ∨ j % 3 = 2 := by omega
  all_goals simp [h, place]

theorem getLsbD_mortonId_top (x y z : BitVec 32) :
    (refMigrateMortonId x y z).getLsbD 63 = false := by
  rw [refMigrateMortonId, BitVec.getLsbD_or, BitVec.getLsbD_or, BitVec.getLsbD_or,
    BitVec.getLsbD_shiftLeft, BitVec.getLsbD_shiftLeft, getLsbD_splitMorton _ (by omega),
    getLsbD_splitMorton _ (by omega), getLsbD_splitMorton _ (by omega)]
  simp

/-! ## The order of the codes -/

/-- Two numbers in order differ first at a bit that is set in the larger. -/
theorem exists_top_bit {m n : Nat} (h : m < n) :
    ∃ i, m.testBit i = false ∧ n.testBit i = true ∧ ∀ j, i < j → m.testBit j = n.testBit j := by
  have hne : m ^^^ n ≠ 0 := Nat.xor_ne_zero_iff.mpr h.ne
  obtain ⟨i, hi, habove⟩ := Nat.exists_most_significant_bit hne
  have hsame : ∀ j, i < j → m.testBit j = n.testBit j := by
    intro j hj
    have hoff := habove j hj
    rw [Nat.testBit_xor] at hoff
    exact bne_eq_false_iff_eq.mp hoff
  rw [Nat.testBit_xor] at hi
  cases hm : m.testBit i with
  | false => exact ⟨i, hm, by simpa [hm] using hi, hsame⟩
  | true =>
      have hn : n.testBit i = false := by simpa [hm] using hi
      have hlt : n < m := Nat.lt_of_testBit i hn hm fun j hj => (hsame j hj).symm
      exact absurd hlt (by omega)

/-- A code grows with the coordinate at each place `d` as long as the other
coordinates stay. -/
theorem mortonId_lt {x y z x' y' z' : BitVec 32} {d : Nat} (hd : d < 3)
    (hlt : (place x y z d).toNat < (place x' y' z' d).toNat)
    (hbound : (place x' y' z' d).toNat < 2 ^ 21)
    (hsame : ∀ r, r < 3 → r ≠ d → place x y z r = place x' y' z' r) :
    (refMigrateMortonId x y z).toNat < (refMigrateMortonId x' y' z').toNat := by
  obtain ⟨i, hoff, hon, habove⟩ := exists_top_bit hlt
  have hi : i < 21 := by
    by_contra hge
    have hclear : (place x' y' z' d).toNat.testBit i = false :=
      Nat.testBit_lt_two_pow (hbound.trans_le (Nat.pow_le_pow_right (by omega) (by omega)))
    rw [hclear] at hon
    cases hon
  have hmod : (3 * i + d) % 3 = d := by omega
  have hdiv : (3 * i + d) / 3 = i := by omega
  refine Nat.lt_of_testBit (3 * i + d) ?_ ?_ fun j hj => ?_
  · rw [BitVec.testBit_toNat, getLsbD_mortonId x y z (by omega), hmod, hdiv]
    exact hoff
  · rw [BitVec.testBit_toNat, getLsbD_mortonId x' y' z' (by omega), hmod, hdiv]
    exact hon
  · rw [BitVec.testBit_toNat, BitVec.testBit_toNat]
    obtain hin | rfl | hout : j < 63 ∨ j = 63 ∨ 64 ≤ j := by omega
    · rw [getLsbD_mortonId x y z hin, getLsbD_mortonId x' y' z' hin]
      by_cases hr : j % 3 = d
      · rw [hr]
        exact habove (j / 3) (by omega)
      · rw [hsame (j % 3) (Nat.mod_lt j (by omega)) hr]
    · rw [getLsbD_mortonId_top, getLsbD_mortonId_top]
    · rw [BitVec.getLsbD_of_ge _ _ hout, BitVec.getLsbD_of_ge _ _ hout]

/-- A code has the low 21 bits of each coordinate. -/
theorem place_eq_of_mortonId_eq {x y z x' y' z' : BitVec 32}
    (h : refMigrateMortonId x y z = refMigrateMortonId x' y' z') {d : Nat} (hd : d < 3)
    (hbound : (place x y z d).toNat < 2 ^ 21) (hbound' : (place x' y' z' d).toNat < 2 ^ 21) :
    place x y z d = place x' y' z' d := by
  refine BitVec.eq_of_toNat_eq (Nat.eq_of_testBit_eq fun i => ?_)
  by_cases hi : i < 21
  · have hbit := congrArg (BitVec.getLsbD · (3 * i + d)) h
    have hmod : (3 * i + d) % 3 = d := by omega
    have hdiv : (3 * i + d) / 3 = i := by omega
    rw [getLsbD_mortonId x y z (by omega), getLsbD_mortonId x' y' z' (by omega), hmod, hdiv]
      at hbit
    exact hbit
  · have hpow : 2 ^ 21 ≤ 2 ^ i := Nat.pow_le_pow_right (by omega) (by omega)
    rw [Nat.testBit_lt_two_pow (hbound.trans_le hpow),
      Nat.testBit_lt_two_pow (hbound'.trans_le hpow)]

end Morton

open Morton

/-- **Morton codes** interleave the low 21 bits of the coordinates.  On
coordinates below `2 ^ 21` the code is injective, and it increases in each
coordinate. -/
theorem mortonId_interleaves :
    (∀ x y z : BitVec 32,
      (∀ i < 21, (refMigrateMortonId x y z).getLsbD (3 * i) = x.getLsbD i ∧
        (refMigrateMortonId x y z).getLsbD (3 * i + 1) = y.getLsbD i ∧
        (refMigrateMortonId x y z).getLsbD (3 * i + 2) = z.getLsbD i) ∧
      (refMigrateMortonId x y z).getLsbD 63 = false) ∧
    Set.InjOn (fun c : BitVec 32 × BitVec 32 × BitVec 32 => refMigrateMortonId c.1 c.2.1 c.2.2)
      {c | c.1.toNat < 2 ^ 21 ∧ c.2.1.toNat < 2 ^ 21 ∧ c.2.2.toNat < 2 ^ 21} ∧
    ∀ x y z v : BitVec 32, v.toNat < 2 ^ 21 →
      (x.toNat < v.toNat →
        (refMigrateMortonId x y z).toNat < (refMigrateMortonId v y z).toNat) ∧
      (y.toNat < v.toNat →
        (refMigrateMortonId x y z).toNat < (refMigrateMortonId x v z).toNat) ∧
      (z.toNat < v.toNat →
        (refMigrateMortonId x y z).toNat < (refMigrateMortonId x y v).toNat) := by
  refine ⟨fun x y z => ⟨fun i hi => ?_, getLsbD_mortonId_top x y z⟩, ?_, fun x y z v hv => ?_⟩
  · have hbit : ∀ d < 3, (refMigrateMortonId x y z).getLsbD (3 * i + d) =
        (place x y z d).getLsbD i := by
      intro d hd
      have hmod : (3 * i + d) % 3 = d := by omega
      have hdiv : (3 * i + d) / 3 = i := by omega
      rw [getLsbD_mortonId x y z (by omega), hmod, hdiv]
    exact ⟨hbit 0 (by omega), hbit 1 (by omega), hbit 2 (by omega)⟩
  · rintro ⟨x, y, z⟩ ⟨hx, hy, hz⟩ ⟨x', y', z'⟩ ⟨hx', hy', hz'⟩ heq
    have h0 : x = x' := place_eq_of_mortonId_eq heq (show 0 < 3 by omega) hx hx'
    have h1 : y = y' := place_eq_of_mortonId_eq heq (show 1 < 3 by omega) hy hy'
    have h2 : z = z' := place_eq_of_mortonId_eq heq (show 2 < 3 by omega) hz hz'
    rw [h0, h1, h2]
  · refine ⟨fun h => ?_, fun h => ?_, fun h => ?_⟩
    · refine mortonId_lt (d := 0) (by omega) h hv fun r hr hne => ?_
      interval_cases r <;> simp [place] at *
    · refine mortonId_lt (d := 1) (by omega) h hv fun r hr hne => ?_
      interval_cases r <;> simp [place] at *
    · refine mortonId_lt (d := 2) (by omega) h hv fun r hr hne => ?_
      interval_cases r <;> simp [place] at *

end RefineMesh
