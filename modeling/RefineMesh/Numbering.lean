import Mathlib.Tactic
import RefineMesh.ArrayLoops
import RefineMesh.Segments

/-!
# Numbers given part by part

Each part numbers its own items from 0 on and then adds the number of items of
the parts before it.  The loops here give out the numbers of one part, to the
items that pass a test or to the items that have no number yet, and
`bijOn_start` joins the parts to one numbering of all items.
-/

namespace Numbering

open Segments

variable {α κ : Type}

/-- One step of a loop that numbers the items with `P`; `value` is what the
loop stores for a count. -/
def step [DecidableEq α] (P : α → Prop) [DecidablePred P] (value : Int → Int) (acc : Int × (α → Int)) (x : α) :
    Int × (α → Int) :=
  if P x then (acc.1 + 1, Function.update acc.2 x (value acc.1)) else acc

theorem foldl_step_of_notMem [DecidableEq α] {P : α → Prop} [DecidablePred P]
    {value : Int → Int} {l : List α}
    {acc : Int × (α → Int)} {x : α} (hx : x ∉ l.filter P) :
    (l.foldl (step P value) acc).2 x = acc.2 x := by
  induction l generalizing acc with
  | nil => rfl
  | cons a l ih =>
      rw [List.foldl_cons, step]
      split
      · rename_i ha
        rw [List.filter_cons_of_pos (by simpa using ha), List.mem_cons, not_or] at hx
        rw [ih hx.2]
        exact Function.update_of_ne hx.1 _ _
      · rename_i ha
        rw [List.filter_cons_of_neg (by simpa using ha)] at hx
        exact ih hx

/-- The items are numbered in their order. -/
theorem foldl_step_apply [DecidableEq α] {P : α → Prop} [DecidablePred P] (value : Int → Int)
    {l : List α} (hl : l.Nodup) {acc : Int × (α → Int)} {j : Nat} {x : α} (hj : (l.filter P)[j]? = some x) :
    (l.foldl (step P value) acc).2 x = value (acc.1 + j) := by
  induction l generalizing acc j with
  | nil => simp at hj
  | cons a l ih =>
      obtain ⟨hnew, hrest⟩ := List.nodup_cons.mp hl
      rw [List.foldl_cons, step]
      split
      · rename_i ha
        rw [List.filter_cons_of_pos (by simpa using ha)] at hj
        cases j with
        | zero =>
            obtain rfl : a = x := by simpa using hj
            rw [foldl_step_of_notMem fun hin => hnew (List.mem_filter.mp hin).1]
            simp
        | succ j =>
            rw [ih hrest (by simpa using hj)]
            congr 1
            push_cast
            ring
      · rename_i ha
        rw [List.filter_cons_of_neg (by simpa using ha)] at hj
        exact ih hrest hj

/-- The numbers of distinct items are the numbers below their count. -/
theorem bijOn_idxOf [DecidableEq α] {l : List α} (hl : l.Nodup) :
    Set.BijOn (fun x => (l.idxOf x : Int)) {x | x ∈ l} (Set.Ico 0 (l.length : Int)) := by
  refine ⟨?_, ?_, ?_⟩
  · intro x hx
    have hlt := List.idxOf_lt_length_iff.mpr hx
    exact ⟨Int.natCast_nonneg _, Int.ofNat_lt.mpr hlt⟩
  · intro x hx y hy heq
    exact (List.idxOf_inj hx).mp (Int.ofNat_inj.mp heq)
  · intro n hn
    obtain ⟨hpos, hlt⟩ := hn
    have hlt' : n.toNat < l.length := by omega
    refine ⟨l[n.toNat], List.getElem_mem _, ?_⟩
    change ((l.idxOf _ : Nat) : Int) = n
    rw [hl.idxOf_getElem]
    omega

/-- The numbers after a loop over distinct items. -/
theorem foldl_step_eq_idxOf [DecidableEq α] {P : α → Prop} [DecidablePred P] (value : Int → Int)
    {l : List α} (hl : l.Nodup) (acc : Int × (α → Int)) {x : α} (hx : x ∈ l.filter P) :
    (l.foldl (step P value) acc).2 x = value (acc.1 + (l.filter P).idxOf x) := by
  apply foldl_step_apply value hl
  rw [List.getElem?_eq_getElem (List.idxOf_lt_length_of_mem hx), List.getElem_idxOf]

/-! ## Items that may come again -/

/-- The items `S` have the numbers below `n`, all others are `empty`. -/
structure Given (empty : Int) (S : Set α) (acc : Int × (α → Int)) : Prop where
  bijOn : Set.BijOn acc.2 S (Set.Ico 0 acc.1)
  other : ∀ x, x ∉ S → acc.2 x = empty
  nonneg : 0 ≤ acc.1

theorem given_empty (empty : Int) : Given empty (∅ : Set α) (0, fun _ => empty) := by
  refine ⟨?_, fun x _ => rfl, le_rfl⟩
  simp

/-- One step of a loop that numbers the items with `P` that have no number. -/
def onceStep [DecidableEq α] (empty : Int) (P : α → Prop) [DecidablePred P]
    (acc : Int × (α → Int)) (x : α) : Int × (α → Int) :=
  if P x ∧ acc.2 x = empty then (acc.1 + 1, Function.update acc.2 x acc.1) else acc

theorem Given.eq_empty_iff {empty : Int} (hempty : empty < 0) {S : Set α}
    {acc : Int × (α → Int)} (h : Given empty S acc) (x : α) : acc.2 x = empty ↔ x ∉ S := by
  constructor
  · intro heq hx
    have hval := (h.bijOn.mapsTo hx).1
    omega
  · exact h.other x

theorem Given.step [DecidableEq α] {empty : Int} (hempty : empty < 0) {P : α → Prop}
    [DecidablePred P] {S : Set α} {acc : Int × (α → Int)} (h : Given empty S acc) (x : α) :
    Given empty (S ∪ {y | y = x ∧ P y}) (onceStep empty P acc x) := by
  rw [onceStep]
  split
  · rename_i hnew
    obtain ⟨hP, hnone⟩ := hnew
    have hx : x ∉ S := (h.eq_empty_iff hempty x).mp hnone
    have hset : S ∪ {y | y = x ∧ P y} = insert x S := by
      ext y
      simp only [Set.mem_union, Set.mem_ofPred_eq, Set.mem_insert_iff]
      grind
    rw [hset]
    refine ⟨?_, ?_, by have := h.nonneg; simp only; omega⟩
    · have hkeep : Set.EqOn acc.2 (Function.update acc.2 x acc.1) S := by
        intro y hy
        rw [Function.update_of_ne (by rintro rfl; exact hx hy)]
      have hlast : Set.Ico 0 (acc.1 + 1) = insert acc.1 (Set.Ico 0 acc.1) := by
        ext n
        have := h.nonneg
        simp only [Set.mem_Ico, Set.mem_insert_iff]
        omega
      have hnext := (h.bijOn.congr hkeep).insert (a := x)
        (by rw [Function.update_self]; simp)
      rw [Function.update_self] at hnext
      rwa [hlast]
    · intro y hy
      rw [Set.mem_insert_iff, not_or] at hy
      exact (Function.update_of_ne hy.1 _ _).trans (h.other y hy.2)
  · rename_i hskip
    have hset : S ∪ {y | y = x ∧ P y} = S := by
      ext y
      have := h.eq_empty_iff hempty x
      simp only [Set.mem_union, Set.mem_ofPred_eq]
      grind
    rw [hset]
    exact h

/-- The loop numbers the items of the list that pass the test, each once. -/
theorem Given.foldl [DecidableEq α] {empty : Int} (hempty : empty < 0) {P : α → Prop}
    [DecidablePred P] {S : Set α} {acc : Int × (α → Int)} (h : Given empty S acc) (l : List α) :
    Given empty (S ∪ {y | y ∈ l ∧ P y}) (l.foldl (onceStep empty P) acc) := by
  induction l generalizing S acc with
  | nil => simpa using h
  | cons x l ih =>
      have hset : S ∪ {y | y ∈ x :: l ∧ P y} = S ∪ {y | y = x ∧ P y} ∪ {y | y ∈ l ∧ P y} := by
        ext y
        simp only [Set.mem_union, Set.mem_ofPred_eq, List.mem_cons]
        grind
      rw [hset, List.foldl_cons]
      exact ih (h.step hempty x)

/-- Things numbered below `n` are `n` things. -/
theorem ncard_of_bijOn {S : Set κ} {f : κ → Int} {n : Int} (hn : 0 ≤ n)
    (h : Set.BijOn f S (Set.Ico 0 n)) : (S.ncard : Int) = n := by
  have hcard := h.injOn.ncard_image
  rw [h.image_eq, ← Finset.coe_Ico, Set.ncard_coe_finset, Int.card_Ico] at hcard
  omega

theorem Given.count {empty : Int} {S : Set α} {acc : Int × (α → Int)} (h : Given empty S acc) :
    (S.ncard : Int) = acc.1 :=
  ncard_of_bijOn h.nonneg h.bijOn

/-! ## All parts -/

/-- The numbers of the parts one after the other. -/
theorem bijOn_start {p : Nat} {count : Nat → Nat} {own : Nat → Set α} {number : Nat → α → Int}
    (h : ∀ r, r < p → Set.BijOn (number r) (own r) (Set.Ico 0 (count r : Int))) :
    Set.BijOn (fun x : Nat × α => (start count x.1 : Nat) + number x.1 x.2)
      {x | x.1 < p ∧ x.2 ∈ own x.1} (Set.Ico 0 ((start count p : Nat) : Int)) := by
  have hplace : ∀ x : Nat × α, x.1 < p → x.2 ∈ own x.1 →
      ∃ j, j < count x.1 ∧ number x.1 x.2 = (j : Nat) := by
    intro x hr hx
    obtain ⟨hpos, hlt⟩ := (h x.1 hr).mapsTo hx
    exact ⟨(number x.1 x.2).toNat, by omega, by omega⟩
  refine ⟨?_, ?_, ?_⟩
  · intro x hx
    obtain ⟨j, hj, hnumber⟩ := hplace x hx.1 hx.2
    have hlt := start_add_lt hx.1 hj
    simp only [hnumber, Set.mem_Ico]
    omega
  · intro x hx y hy heq
    obtain ⟨j, hj, hnumber⟩ := hplace x hx.1 hx.2
    obtain ⟨k, hk, hnumber'⟩ := hplace y hy.1 hy.2
    simp only [hnumber, hnumber'] at heq
    obtain ⟨hrank, hjk⟩ := start_add_inj hj hk (by omega)
    have hitem : x.2 = y.2 := by
      apply (h x.1 hx.1).injOn hx.2 (hrank ▸ hy.2)
      rw [hnumber, hjk, hrank, ← hnumber']
    exact Prod.ext hrank hitem
  · intro n hn
    obtain ⟨hpos, hlt⟩ := hn
    obtain ⟨q, j, hloc⟩ := exists_locate (show n.toNat < start count p by omega)
    obtain ⟨hq, hj, hsum⟩ := locate_eq_some hloc
    obtain ⟨a, ha, hnumber⟩ := (h q hq).surjOn (show (j : Int) ∈ Set.Ico 0 (count q : Int) by
      simp only [Set.mem_Ico]
      omega)
    refine ⟨(q, a), ⟨hq, ha⟩, ?_⟩
    simp only [hnumber]
    omega

/-- A numbering of the items is one of their keys. -/
theorem exists_bijOn_key {ι : Type} {S : Set ι} {f : ι → Int} {T : Set Int} (h : Set.BijOn f S T)
    {key : ι → κ} (hkey : Set.InjOn key S) :
    ∃ number : κ → Int, (∀ x ∈ S, number (key x) = f x) ∧ Set.BijOn number (key '' S) T := by
  by_cases hι : Nonempty ι
  · have hinv : ∀ x ∈ S, Function.invFunOn key S (key x) = x := fun x hx =>
      hkey.leftInvOn_invFunOn hx
    refine ⟨fun k => f (Function.invFunOn key S k), fun x hx => congrArg f (hinv x hx), ?_⟩
    have hback : Set.BijOn (Function.invFunOn key S) (key '' S) S := by
      refine ⟨?_, ?_, fun x hx => ⟨key x, ⟨x, hx, rfl⟩, hinv x hx⟩⟩
      · rintro _ ⟨x, hx, rfl⟩
        rw [hinv x hx]
        exact hx
      · rintro _ ⟨x, hx, rfl⟩ _ ⟨y, hy, rfl⟩ heq
        rw [hinv x hx, hinv y hy] at heq
        rw [heq]
    exact h.comp hback
  · have hempty : S = ∅ := Set.eq_empty_of_forall_notMem fun x => (hι ⟨x⟩).elim
    subst hempty
    refine ⟨fun _ => 0, fun x hx => hx.elim, ?_⟩
    rw [Set.image_empty]
    rw [← h.image_eq, Set.image_empty]
    exact Set.bijOn_empty _

end Numbering
