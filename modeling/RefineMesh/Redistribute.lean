import Mathlib.Tactic
import RefineMesh.Spmd

/-!
# Moving a distributed array to other cuts

An array cut into one piece for each rank is moved to other cuts by one
exchange: rank `q` sends rank `r` the entries that are in the old piece of `q`
and the new piece of `r`.  A piece of the one cutting meets the pieces of the
other in their order, so every entry arrives at its place in the new piece.
-/

namespace Redistribute

open Segments Spmd

variable {E : Type}

/-- Cuts of an array of length `total` into `p` pieces: piece `r` is from
`a r` to `a (r + 1)`. -/
structure Cuts (p total : Nat) (a : Nat → Nat) : Prop where
  zero : a 0 = 0
  last : a p = total
  mono : ∀ i j, i ≤ j → j ≤ p → a i ≤ a j

theorem Cuts.le_total {p total : Nat} {a : Nat → Nat} (h : Cuts p total a) {i : Nat} (hi : i ≤ p) :
    a i ≤ total := by
  have hle := h.mono i p hi le_rfl
  rwa [h.last] at hle

/-- The pieces as segments. -/
theorem Cuts.start_eq {p total : Nat} {a : Nat → Nat} (h : Cuts p total a) {m : Nat} (hm : m ≤ p) :
    start (fun r => a (r + 1) - a r) m = a m := by
  induction m with
  | zero => rw [h.zero]; rfl
  | succ m ih =>
      have hle := h.mono m (m + 1) (Nat.le_succ m) hm
      rw [start_succ, ih (by omega)]
      omega

/-- The number of entries in piece `i` of the cuts `a` and in piece `j` of
`b`. -/
def overlap (a b : Nat → Nat) (i j : Nat) : Nat := min (a (i + 1)) (b (j + 1)) - max (a i) (b j)

theorem overlap_comm (a b : Nat → Nat) (i j : Nat) : overlap a b i j = overlap b a j i := by
  rw [overlap, overlap, min_comm, max_comm]

section Moved

variable {p total : Nat} {a b : Nat → Nat}

/-- A piece of `b` reaches as far into the first pieces of `a` as these reach
into it. -/
theorem Cuts.start_overlap (ha : Cuts p total a) (hb : Cuts p total b) {j : Nat} (hj : j < p)
    {m : Nat} (hm : m ≤ p) :
    start (fun i => overlap a b i j) m = min (a m) (b (j + 1)) - b j := by
  induction m with
  | zero =>
      rw [ha.zero, Nat.zero_min, Nat.zero_sub]
      rfl
  | succ m ih =>
      have hstep := ha.mono m (m + 1) (Nat.le_succ m) hm
      have hpiece := hb.mono j (j + 1) (Nat.le_succ j) hj
      rw [start_succ, ih (by omega), overlap]
      omega

/-- A piece is met by all pieces of the other cuts. -/
theorem Cuts.start_overlap_all (ha : Cuts p total a) (hb : Cuts p total b) {j : Nat} (hj : j < p) :
    start (fun i => overlap a b i j) p = b (j + 1) - b j := by
  have hle := hb.le_total (show j + 1 ≤ p from hj)
  rw [ha.start_overlap hb hj le_rfl, ha.last, min_eq_right hle]

/-- **Every entry arrives at its place.**  Rank `q` holds the piece `q` of `b`
of the array `x`; after the exchange rank `r` has the piece `r` of `a`. -/
theorem Cuts.exchanged_eq (ha : Cuts p total a) (hb : Cuts p total b) {x : Nat → E}
    {send : Nat → Nat → E} {sendCount recvCount : Nat → Nat → Nat}
    (hsend : ∀ q, q < p → ∀ j, b q + j < b (q + 1) → send q j = x (b q + j))
    (hsent : ∀ q r, q < p → r < p → sendCount q r = overlap a b r q)
    (hrecv : ∀ r q, r < p → q < p → recvCount r q = overlap a b r q)
    (mem : Nat → Nat → E) {r i : Nat} (hr : r < p) (hi : a r + i < a (r + 1)) :
    exchanged p send sendCount recvCount mem r i = x (a r + i) := by
  have hbefore : ∀ q, q ≤ p → start (recvCount r) q = min (b q) (a (r + 1)) - a r := by
    intro q hq
    rw [← hb.start_overlap ha hr hq]
    apply start_congr
    intro m hm
    rw [hrecv r m hr (by omega), overlap_comm]
  have hall := hbefore p le_rfl
  rw [hb.last, min_eq_right (ha.le_total (show r + 1 ≤ p from hr))] at hall
  obtain ⟨q, j, hloc⟩ := exists_locate (show i < start (recvCount r) p by omega)
  obtain ⟨hq, hj, hplace⟩ := locate_eq_some hloc
  have hfrom : start (sendCount q) r = min (a r) (b (q + 1)) - b q := by
    rw [← ha.start_overlap hb hq hr.le]
    apply start_congr
    intro m hm
    exact hsent q m hq (by omega)
  -- the entry is in both pieces
  rw [hrecv r q hr hq, overlap] at hj
  rw [hbefore q hq.le] at hplace
  simp only [exchanged, hloc]
  rw [hfrom, hsend q hq _ (by omega)]
  congr 1
  omega

end Moved

/-! ## The array of all ranks -/

/-- The pieces of the ranks are the pieces of one array. -/
theorem Cuts.exists_joined {p total : Nat} {b : Nat → Nat} (hb : Cuts p total b)
    (piece : Nat → Nat → E) :
    ∃ x : Nat → E, ∀ q, q < p → ∀ j, b q + j < b (q + 1) → piece q j = x (b q + j) := by
  refine ⟨fun g => (locate p (fun r => b (r + 1) - b r) g).elim (piece 0 0) fun place =>
    piece place.1 place.2, ?_⟩
  intro q hq j hj
  have hplace : locate p (fun r => b (r + 1) - b r) (start (fun r => b (r + 1) - b r) q + j) =
      some (q, j) := locate_start_add hq (by omega)
  rw [hb.start_eq hq.le] at hplace
  simp only [hplace, Option.elim_some]

/-- Lists made of the pieces are made of the whole. -/
theorem Cuts.flatMap_range {γ : Type} {p total : Nat} {a : Nat → Nat} (ha : Cuts p total a)
    {piece : Nat → Nat → γ} {x : Nat → γ}
    (h : ∀ r, r < p → ∀ i, a r + i < a (r + 1) → piece r i = x (a r + i)) :
    ((List.range p).flatMap fun r => (List.range (a (r + 1) - a r)).map (piece r)) =
      (List.range total).map x := by
  have hall := range_start (fun r => a (r + 1) - a r) p
  rw [ha.start_eq le_rfl, ha.last] at hall
  rw [hall, List.map_flatMap]
  apply List.flatMap_congr
  intro r hr
  have hr : r < p := List.mem_range.mp hr
  rw [List.map_map]
  apply List.map_congr_left
  intro i hi
  have hi : i < a (r + 1) - a r := List.mem_range.mp hi
  rw [Function.comp_apply, ha.start_eq hr.le]
  exact h r hr i (by omega)

/-! ## Entries of different lengths -/

/-- Cuts between entries of lengths `len` are cuts of the items. -/
theorem Cuts.items {p total : Nat} {a : Nat → Nat} (ha : Cuts p total a) (len : Nat → Nat) :
    Cuts p (start len total) fun r => start len (a r) := by
  refine ⟨?_, ?_, ?_⟩
  · rw [ha.zero]
    rfl
  · rw [ha.last]
  · intro i j hij hj
    exact start_le (ha.mono i j hij hj)

/-- The items of the entries in two pieces. -/
theorem overlap_items (a b len : Nat → Nat) (i j : Nat) :
    overlap (fun r => start len (a r)) (fun r => start len (b r)) i j =
      start len (min (a (i + 1)) (b (j + 1))) - start len (max (a i) (b j)) := by
  have hmono : Monotone (start len) := fun x y hxy => start_le hxy
  rw [overlap, hmono.map_min, hmono.map_max]

theorem sum_map_range (len : Nat → Nat) (m : Nat) : ((List.range m).map len).sum = start len m := by
  induction m with
  | zero => rfl
  | succ m ih => rw [List.range_succ, List.map_append, List.sum_append, ih, start_succ]; rfl

/-- The items of a part of one piece. -/
theorem start_add (len : Nat → Nat) (g i : Nat) :
    start len (g + i) = start len g + start (fun k => len (g + k)) i := by
  induction i with
  | zero => rfl
  | succ i ih =>
      rw [← Nat.add_assoc, start_succ, start_succ, ih]
      omega

end Redistribute
