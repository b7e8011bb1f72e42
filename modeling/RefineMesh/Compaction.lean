import Mathlib.Tactic
import Mathlib.Order.Interval.Finset.Basic
import Mathlib.Data.Int.Interval

/-!
# Closing the gaps of a numbering

`squeeze l x` is the number that `x` gets when the numbers of `l` are taken
out and the gaps close.  It keeps the order of the numbers that stay, it can be
done in rounds, and it maps what stays of an interval onto an interval.
-/

namespace Compaction

/-- `x` less the number of entries of `l` below it. -/
def squeeze (l : List Int) (x : Int) : Int := x - (l.countP (· < x) : Nat)

@[simp] theorem squeeze_nil (x : Int) : squeeze [] x = x := by simp [squeeze]

theorem squeeze_perm {l l' : List Int} (h : l.Perm l') (x : Int) :
    squeeze l x = squeeze l' x := by
  rw [squeeze, squeeze, h.countP_eq]

/-- Distinct integers of an interval are at most as many as it has. -/
theorem length_le_card {l : List Int} {S : Finset Int} (hnodup : l.Nodup)
    (hsub : ∀ u ∈ l, u ∈ S) : l.length ≤ S.card := by
  rw [← List.toFinset_card_of_nodup hnodup]
  apply Finset.card_le_card
  intro u hu
  exact hsub u (List.mem_toFinset.mp hu)

theorem countP_lt_add {x y : Int} (hxy : x ≤ y) (l : List Int) :
    l.countP (· < y) = l.countP (· < x) + l.countP (fun u => x ≤ u ∧ u < y) := by
  induction l with
  | nil => rfl
  | cons u l ih =>
      simp only [List.countP_cons, ih]
      by_cases hlow : u < x
      · simp [hlow, show u < y by omega, show ¬ x ≤ u by omega]
        omega
      · by_cases hhigh : u < y
        · simp [hlow, hhigh, show x ≤ u by omega]
          omega
        · simp [hlow, hhigh]

/-- Numbers that stay keep their order. -/
theorem squeeze_lt {l : List Int} {x y : Int} (hnodup : l.Nodup) (hx : x ∉ l) (hxy : x < y) :
    squeeze l x < squeeze l y := by
  have hcount : l.countP (fun u => x ≤ u ∧ u < y) ≤ (Finset.Ioo x y).card := by
    rw [List.countP_eq_length_filter]
    apply length_le_card (hnodup.filter _)
    intro u hu
    obtain ⟨hu, hin⟩ := List.mem_filter.mp hu
    have hin : x ≤ u ∧ u < y := by simpa using hin
    have hne : u ≠ x := by
      intro e
      exact hx (e ▸ hu)
    exact Finset.mem_Ioo.mpr ⟨by omega, hin.2⟩
  rw [Int.card_Ioo] at hcount
  have hsplit := countP_lt_add hxy.le l
  unfold squeeze
  omega

theorem squeeze_lt_iff {l : List Int} {x y : Int} (hnodup : l.Nodup) (hx : x ∉ l) (hy : y ∉ l) :
    squeeze l x < squeeze l y ↔ x < y := by
  constructor
  · intro h
    by_contra hle
    rcases lt_or_eq_of_le (not_lt.mp hle) with hlt | heq
    · exact absurd (squeeze_lt hnodup hy hlt) (by omega)
    · rw [heq] at h
      exact absurd h (lt_irrefl _)
  · exact squeeze_lt hnodup hx

/-- **Rounds compose**: taking out `l` and then the new numbers of `l'` takes
out both. -/
theorem squeeze_squeeze {l l' : List Int} {x : Int} (hnodup : l.Nodup) (hx : x ∉ l)
    (hl' : ∀ u ∈ l', u ∉ l) :
    squeeze (l'.map (squeeze l)) (squeeze l x) = squeeze (l ++ l') x := by
  have hcount : (l'.map (squeeze l)).countP (· < squeeze l x) = l'.countP (· < x) := by
    rw [List.countP_map]
    apply List.countP_congr
    intro u hu
    simp [squeeze_lt_iff hnodup (hl' u hu) hx]
  rw [squeeze, hcount, squeeze, squeeze, List.countP_append]
  push_cast
  ring

end Compaction
