import Mathlib.Tactic
import RefineMesh.Migrate
import RefineMesh.NodeRows

/-!
# Implicit parts

The readers cut a range of things into parts without a table: a few large parts
come first, the small parts after them.  `ref_part_first` is where a part
starts and `ref_part_implicit` is the part of a thing.
-/

namespace RefineMesh

/-- The division of integers; it is undefined for a divisor of zero. -/
def divide (x y : Int) : Except Status Int := if y = 0 then .error .undefined else .ok (x.tdiv y)

/-- `ref_part_large_implicit`. -/
def refPartLargeImplicit (totalThings totalParts thing : Int) : Except Status Int :=
  divide thing (refPartLargePartSize totalThings totalParts)

/-- `ref_part_total_large`. -/
def refPartTotalLarge (totalThings totalParts : Int) : Int :=
  refPartNLargePart totalThings totalParts * refPartLargePartSize totalThings totalParts

/-- `ref_part_small_implicit`. -/
def refPartSmallImplicit (totalThings totalParts thing : Int) : Except Status Int := do
  let part ← divide (thing - refPartTotalLarge totalThings totalParts)
    (refPartSmallPartSize totalThings totalParts)
  .ok (part + refPartNLargePart totalThings totalParts)

/-- `ref_part_implicit`.  The sizes of the parts divide by the number of parts. -/
def refPartImplicit (totalThings totalParts thing : Int) : Except Status Int :=
  if totalParts = 0 then .error .undefined
  else do
    let large ← divide thing (refPartLargePartSize totalThings totalParts)
    let part ←
      if large < refPartNLargePart totalThings totalParts then
        refPartLargeImplicit totalThings totalParts thing
      else refPartSmallImplicit totalThings totalParts thing
    .ok (toRefInt part)

theorem divide_ok (x : Nat) {y : Nat} (hy : 0 < y) : divide x y = .ok (x / y : Nat) := by
  have hne : (y : Int) ≠ 0 := by omega
  rw [divide, if_neg hne]
  exact congrArg Except.ok (Int.ofNat_tdiv x y)

/-! ## Where the parts start -/

/-- A part starts after the parts before it. -/
theorem refPartFirst_mono (n : Nat) {parts : Nat} (hparts : 0 < parts) {i j : Int} (hij : i ≤ j) :
    refPartFirst (n + 1 : Nat) parts i ≤ refPartFirst (n + 1 : Nat) parts j := by
  rw [refPartFirst_eq_add_min n hparts, refPartFirst_eq_add_min n hparts]
  gcongr

/-- A part has `n / parts` things or one more. -/
theorem refPartFirst_succ (n : Nat) {parts : Nat} (hparts : 0 < parts) (i : Int) :
    refPartFirst (n + 1 : Nat) parts (i + 1) - refPartFirst (n + 1 : Nat) parts i =
      (n / parts : Nat) + if i < (n % parts + 1 : Nat) then 1 else 0 := by
  rw [refPartFirst_eq_add_min n hparts, refPartFirst_eq_add_min n hparts, add_one_mul]
  split
  · rename_i hlt
    rw [min_eq_left (by omega), min_eq_left hlt.le]
    ring
  · rename_i hge
    rw [min_eq_right (by omega), min_eq_right (by omega)]
    ring

theorem refPartFirst_zero (n : Nat) {parts : Nat} (hparts : 0 < parts) :
    refPartFirst (n + 1 : Nat) parts 0 = 0 := by
  rw [refPartFirst_eq_add_min n hparts, min_eq_left (by omega)]
  ring

theorem refPartFirst_parts (n : Nat) {parts : Nat} (hparts : 0 < parts) :
    refPartFirst (n + 1 : Nat) parts parts = (n + 1 : Nat) := by
  have hmod := Nat.div_add_mod n parts
  have hlt := Nat.mod_lt n hparts
  rw [refPartFirst_eq hparts, min_eq_right (by omega)]
  congr 1
  omega

/-! ## The part of a thing -/

/-- Among the large parts. -/
theorem refPartImplicit_large {n parts thing : Nat} (hparts : 0 < parts)
    (hlarge : thing / (n / parts + 1) < n % parts + 1) :
    refPartImplicit (n + 1 : Nat) parts thing =
      .ok (toRefInt (thing / (n / parts + 1) : Nat)) := by
  have hdiv := divide_ok thing (Nat.succ_pos (n / parts))
  have hne : (parts : Int) ≠ 0 := by omega
  have hlt : ((thing / (n / parts + 1) : Nat) : Int) < (n % parts + 1 : Nat) := by omega
  rw [refPartImplicit, if_neg hne, refPartLargePartSize_eq n hparts, refPartNLargePart_eq,
    refPartLargeImplicit, refPartLargePartSize_eq n hparts, hdiv]
  simp only [bind, Except.bind]
  rw [if_pos hlt]

/-- Among the small parts. -/
theorem refPartImplicit_small {n parts thing : Nat} (hparts : 0 < parts) (hsize : 0 < n / parts)
    (hlarge : n % parts + 1 ≤ thing / (n / parts + 1)) :
    refPartImplicit (n + 1 : Nat) parts thing =
      .ok (toRefInt ((thing - (n % parts + 1) * (n / parts + 1)) / (n / parts) +
        (n % parts + 1) : Nat)) := by
  have hdiv := divide_ok thing (Nat.succ_pos (n / parts))
  have hne : (parts : Int) ≠ 0 := by omega
  have hge : ¬ ((thing / (n / parts + 1) : Nat) : Int) < (n % parts + 1 : Nat) := by omega
  have hle : (n % parts + 1) * (n / parts + 1) ≤ thing :=
    (Nat.mul_le_mul_right _ hlarge).trans (Nat.div_mul_le_self _ _)
  have hrest : (thing : Int) - (n % parts + 1 : Nat) * (n / parts + 1 : Nat) =
      (thing - (n % parts + 1) * (n / parts + 1) : Nat) := by
    rw [Nat.cast_sub hle, Nat.cast_mul]
  rw [refPartImplicit, if_neg hne, refPartLargePartSize_eq n hparts, refPartNLargePart_eq,
    refPartSmallImplicit, refPartTotalLarge, refPartSmallPartSize_eq,
    refPartLargePartSize_eq n hparts, refPartNLargePart_eq, hrest, divide_ok _ hsize, hdiv]
  simp only [bind, Except.bind]
  rw [if_neg hge, ← Nat.cast_add]

/-- The part of a thing is the one whose range has it. -/
theorem refPartImplicit_spec {n parts thing : Nat} (hparts : 0 < parts) (hint : parts ≤ refIntMax)
    (hthing : thing ≤ n) :
    ∃ part : Nat, refPartImplicit (n + 1 : Nat) parts thing = .ok (part : Int) ∧ part < parts ∧
      refPartFirst (n + 1 : Nat) parts part ≤ thing ∧
      thing < refPartFirst (n + 1 : Nat) parts (part + 1 : Nat) := by
  have hfits : ∀ part : Nat, part < parts → toRefInt part = part := by
    intro part hlt
    unfold refIntMax at hint
    exact toRefInt_of_fits (by omega) (by omega)
  have hn := Nat.div_add_mod n parts
  have hr := Nat.mod_lt n hparts
  set q := n / parts with hq
  set r := n % parts with hrdef
  by_cases hlarge : thing / (q + 1) < r + 1
  · have hlt : thing / (q + 1) < parts := by omega
    refine ⟨thing / (q + 1), ?_, hlt, ?_, ?_⟩
    · rw [refPartImplicit_large hparts hlarge, hfits _ hlt]
    · rw [refPartFirst_eq hparts, ← hq, ← hrdef, min_eq_left (by omega), Nat.cast_le,
        ← Nat.mul_succ]
      exact Nat.div_mul_le_self thing (q + 1)
    · rw [refPartFirst_eq hparts, ← hq, ← hrdef, min_eq_left (by omega), Nat.cast_lt,
        ← Nat.mul_succ, mul_comm]
      exact Nat.lt_mul_div_succ thing (Nat.succ_pos q)
  · rw [not_lt] at hlarge
    have hle : (r + 1) * (q + 1) ≤ thing :=
      (Nat.mul_le_mul_right _ hlarge).trans (Nat.div_mul_le_self _ _)
    -- the things after the large parts fill the other parts
    obtain ⟨m, hm⟩ : ∃ m, parts = r + 1 + m := ⟨parts - (r + 1), by omega⟩
    have hrest : thing - (r + 1) * (q + 1) < m * q := by
      have hsplit : parts * q = (r + 1) * q + m * q := by rw [hm, add_mul]
      have hexpand : (r + 1) * (q + 1) = (r + 1) * q + (r + 1) := Nat.mul_succ _ _
      omega
    have hpos : 0 < q := Nat.pos_of_mul_pos_left (Nat.zero_lt_of_lt hrest)
    obtain ⟨s, hs⟩ : ∃ s, s = (thing - (r + 1) * (q + 1)) / q := ⟨_, rfl⟩
    have hslt : s < m := hs ▸ (Nat.div_lt_iff_lt_mul hpos).mpr hrest
    have hlow : s * q ≤ thing - (r + 1) * (q + 1) := hs ▸ Nat.div_mul_le_self _ _
    have hhigh : thing - (r + 1) * (q + 1) < q * (s + 1) := hs ▸ Nat.lt_mul_div_succ _ hpos
    have hfirst : ∀ k : Nat, (k + (r + 1)) * q + (r + 1) = k * q + (r + 1) * (q + 1) := by
      intro k
      ring
    have hlt : s + (r + 1) < parts := by omega
    refine ⟨s + (r + 1), ?_, hlt, ?_, ?_⟩
    · rw [refPartImplicit_small hparts hpos hlarge, ← hq, ← hrdef, ← hs, hfits _ hlt]
    · rw [refPartFirst_eq hparts, ← hq, ← hrdef, min_eq_right (by omega), Nat.cast_le, hfirst]
      omega
    · rw [refPartFirst_eq hparts, ← hq, ← hrdef, min_eq_right (by omega), Nat.cast_lt,
        show s + (r + 1) + 1 = (s + 1) + (r + 1) by omega, hfirst, mul_comm (s + 1)]
      omega

/-- **The implicit parts** cut the things into ranges of one size, up to one,
and `ref_part_implicit` is the part whose range has the thing. -/
theorem part_implicit_consistent {totalThings totalParts : Int} (hthings : 1 ≤ totalThings)
    (hparts : 1 ≤ totalParts) (hint : totalParts ≤ refIntMax) :
    (∀ thing, 0 ≤ thing → thing < totalThings →
      ∃ part, refPartImplicit totalThings totalParts thing = .ok part ∧
        0 ≤ part ∧ part < totalParts ∧ refPartFirst totalThings totalParts part ≤ thing ∧
        thing < refPartFirst totalThings totalParts (part + 1)) ∧
    refPartFirst totalThings totalParts 0 = 0 ∧
    refPartFirst totalThings totalParts totalParts = totalThings ∧
    Monotone (refPartFirst totalThings totalParts) ∧
    ∀ i j : Int,
      |refPartFirst totalThings totalParts (i + 1) - refPartFirst totalThings totalParts i -
        (refPartFirst totalThings totalParts (j + 1) - refPartFirst totalThings totalParts j)| ≤
          1 := by
  obtain ⟨n, rfl⟩ : ∃ n : Nat, totalThings = (n + 1 : Nat) := ⟨(totalThings - 1).toNat, by omega⟩
  obtain ⟨parts, rfl⟩ : ∃ parts : Nat, totalParts = parts := ⟨totalParts.toNat, by omega⟩
  have hpos : 0 < parts := by omega
  refine ⟨fun thing hlo hhi => ?_, refPartFirst_zero n hpos, refPartFirst_parts n hpos,
    fun i j hij => refPartFirst_mono n hpos hij, fun i j => ?_⟩
  · obtain ⟨k, rfl⟩ : ∃ k : Nat, thing = k := ⟨thing.toNat, by omega⟩
    obtain ⟨part, hrun, hlt, hfirst, hnext⟩ :=
      refPartImplicit_spec hpos (show parts ≤ refIntMax by omega) (show k ≤ n by omega)
    exact ⟨part, hrun, by omega, by omega, hfirst, by exact_mod_cast hnext⟩
  · rw [refPartFirst_succ n hpos, refPartFirst_succ n hpos, abs_le]
    split <;> split <;> omega

theorem part_implicit_consistent_three :
    (∃ part, refPartImplicit 2 3 1 = .ok part ∧ 0 ≤ part ∧ part < 3 ∧
      refPartFirst 2 3 part ≤ 1 ∧ 1 < refPartFirst 2 3 (part + 1)) ∧ refPartFirst 2 3 3 = 2 := by
  have h := part_implicit_consistent (show (1 : Int) ≤ 2 by decide)
    (show (1 : Int) ≤ 3 by decide) (by decide)
  exact ⟨h.1 1 (by decide) (by decide), h.2.2.1⟩

example : refPartImplicit 7 3 4 = .ok 1 := by
  unfold refPartImplicit toRefInt
  decide

end RefineMesh
