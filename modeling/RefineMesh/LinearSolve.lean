import Mathlib.Tactic
import RefineMesh.ArrayLoops
import RefineMesh.ExactMath
import RefineMesh.LinearRows
import RefineMesh.Status

/-!
# The solver of `ref_matrix`

`ref_matrix_solve_ab` eliminates with row exchanges and substitutes back, in
place.  It leaves out the columns that it has cleared; on these the rows are
zero, so that each column is a step of the row operations.
-/

namespace RefineMesh

open LinearRows ArrayLoop

-- the numeral of the scale
local instance atLeastTwo_ten_solve : Nat.AtLeastTwo 10 := ⟨by decide⟩

/-- The entries of an array with rows and columns. -/
abbrev Table (K : Type) := Nat → Nat → K

namespace Table

variable {K : Type}

/-- `a[i + rows * k] = x`. -/
def set (a : Table K) (i k : Nat) (x : K) : Table K :=
  Function.update a i (Function.update (a i) k x)

theorem set_apply (a : Table K) (i k i' k' : Nat) (x : K) :
    a.set i k x i' k' = if i' = i ∧ k' = k then x else a i' k' := by
  rw [set]
  by_cases hi : i' = i
  · subst hi
    rw [Function.update_self, Function.update_apply]
    simp
  · rw [Function.update_of_ne hi, if_neg fun h => hi h.1]

/-- A loop over columns that rewrites each from its own entries. -/
theorem foldl_columns {f : Table K → Nat → Table K} {g : Nat → (Nat → K) → Nat → K}
    (hf : ∀ a j i k, f a j i k = if k = j then g j (fun i => a i j) i else a i k)
    (start len : Nat) (a : Table K) (i k : Nat) :
    (List.range' start len).foldl f a i k =
      if start ≤ k ∧ k < start + len then g k (fun i => a i k) i else a i k := by
  induction len generalizing i k with
  | zero => rw [if_neg (by omega)]; rfl
  | succ len ih =>
      rw [List.range'_1_concat, List.foldl_append, List.foldl_cons, List.foldl_nil, hf]
      by_cases hk : k = start + len
      · subst hk
        rw [if_pos rfl, if_pos (by omega)]
        congr 1
        funext i
        rw [ih, if_neg (by omega)]
      · rw [if_neg hk, ih]
        exact if_congr (by omega) rfl rfl

end Table

/-- A loop whose steps are guarded. -/
theorem foldlM_guard {α β : Type} {f : β → α → β} {P : β → α → Prop} [∀ b a, Decidable (P b a)]
    {e : Status} {l : List α} {b b' : β}
    (hrun : l.foldlM (fun b a => if ¬ P b a then Except.error e else Except.ok (f b a)) b = .ok b') :
    b' = l.foldl f b ∧ (l ≠ [] → ∃ b a, P b a) := by
  induction l generalizing b with
  | nil =>
      cases hrun
      exact ⟨rfl, fun h => absurd rfl h⟩
  | cons a rest ih =>
      rw [List.foldlM_cons] at hrun
      by_cases hP : P b a
      · rw [if_neg (not_not.mpr hP)] at hrun
        exact ⟨(ih hrun).1, fun _ => ⟨b, a, hP⟩⟩
      · rw [if_pos hP] at hrun
        cases hrun

/-- The rule for a loop over positions that succeeds. -/
theorem foldlM_range {β : Type} {f : β → Nat → Except Status β} (P : Nat → β → Prop) {n : Nat}
    (hstep : ∀ k < n, ∀ b b', P k b → f b k = .ok b' → P (k + 1) b') {b b' : β} (h0 : P 0 b)
    (hrun : (List.range n).foldlM f b = .ok b') : P n b' := by
  have hlast : P (List.range n).length b' := by
    refine (foldlM_inv (fun done rest b => done ++ rest = List.range n ∧ P done.length b)
      (fun done k rest b b' h hf => ?_) ⟨rfl, h0⟩ hrun).2
    obtain ⟨hsplit, hP⟩ := h
    obtain ⟨rfl, hk⟩ := range_split hsplit
    refine ⟨?_, ?_⟩
    · rw [List.append_assoc, List.singleton_append, hsplit]
    · rw [List.length_append, List.length_singleton]
      exact hstep _ hk b b' hP hf
  rwa [List.length_range] at hlast

section Solve

variable {K : Type} [Field K] [LinearOrder K]

/-- The row and the size of the largest pivot of a column. -/
def pivotSearch (rows col : Nat) (ab : Table K) : Nat × K :=
  (List.range' (col + 1) (rows - (col + 1))).foldl (fun best i =>
    let pivot := |ab i col|
    if best.2 < pivot then (i, pivot) else best) (col, |ab col col|)

/-- The exchange of rows. -/
def exchangeRows (cols col pivotRow : Nat) (ab : Table K) : Table K :=
  if pivotRow ≠ col then
    (List.range' col (cols - col)).foldl (fun ab j =>
      let temp := ab pivotRow j
      (ab.set pivotRow j (ab col j)).set col j temp) ab
  else ab

/-- The loop that normalizes the pivot row. -/
def normalizeRow (cols col : Nat) (pivot : K) (ab : Table K) : Except Status (Table K) :=
  (List.range' col (cols - col)).foldlM (fun ab j =>
    if ¬ mathDivisible (ab col j) pivot then .error .divZero
    else .ok (ab.set col j (ab col j / pivot))) ab

/-- The elimination of a row. -/
def eliminateRow (cols col : Nat) (ab : Table K) (i : Nat) : Table K :=
  let factor := ab i col
  (List.range' col (cols - col)).foldl (fun ab j => ab.set i j (ab i j - ab col j * factor)) ab

/-- A column of the elimination, with the flag `ill_condition`. -/
def solveColumn (rows cols : Nat) (s : Table K × Bool) (col : Nat) :
    Except Status (Table K × Bool) := do
  let ab := exchangeRows cols col (pivotSearch rows col s.1).1 s.1
  let pivot := ab col col
  let ill := s.2 || decide (col < cols ∧ |pivot| < 1 / 10 ^ 13)
  let ab ← normalizeRow cols col pivot ab
  .ok ((List.range' (col + 1) (rows - (col + 1))).foldl (eliminateRow cols col) ab, ill)

/-- A row of the substitution for the right hand side in column `col`. -/
def backRow (rows col : Nat) (ab : Table K) (row : Nat) : Except Status (Table K) :=
  let rhs := (List.range' (row + 1) (rows - (row + 1))).foldl
    (fun rhs k => rhs - ab row k * ab k col) (ab row col)
  if ¬ mathDivisible rhs (ab row row) then .error .divZero
  else .ok (ab.set row col (rhs / ab row row))

/-- `ref_matrix_solve_ab`: the table, and whether the return code is
`REF_ILL_CONDITIONED`. -/
def solveAb (rows cols : Nat) (ab : Table K) : Except Status (Table K × Bool) := do
  let s ← (List.range rows).foldlM (solveColumn rows cols) (ab, false)
  let ab ← (List.range' rows (cols - rows)).foldlM (fun ab col =>
    (List.range rows).reverse.foldlM (backRow rows col) ab) s.1
  .ok (ab, s.2)

/-! ## The loops -/

theorem pivotSearch_mem {rows col : Nat} (hcol : col < rows) (ab : Table K) :
    col ≤ (pivotSearch rows col ab).1 ∧ (pivotSearch rows col ab).1 < rows := by
  apply List.foldlRecOn (motive := fun best : Nat × K => col ≤ best.1 ∧ best.1 < rows)
  · exact ⟨le_rfl, hcol⟩
  · intro best hbest i hi
    have hrange := List.mem_range'_1.mp hi
    dsimp only
    split
    · exact ⟨by omega, by omega⟩
    · exact hbest

omit [Field K] [LinearOrder K] in
theorem exchangeRows_apply (cols col pivotRow : Nat) (ab : Table K) (i k : Nat) :
    exchangeRows cols col pivotRow ab i k =
      if col ≤ k ∧ k < cols then swapRows pivotRow col ab i k else ab i k := by
  rw [exchangeRows]
  by_cases hrow : pivotRow = col
  · subst hrow
    rw [if_neg (not_not.mpr rfl), swapRows]
    split_ifs with h1 h2
    · rw [h2]
    · rfl
    · rfl
  · rw [if_pos hrow, Table.foldl_columns
      (g := fun _ column i => if i = pivotRow then column col else if i = col then column pivotRow
        else column i)]
    · refine (if_congr (by omega) ?_ rfl)
      rw [swapRows]
      split_ifs <;> rfl
    · intro a j i k
      rw [Table.set_apply, Table.set_apply]
      split_ifs <;> simp_all

theorem normalizeRow_spec {cols col : Nat} {pivot : K} {ab out : Table K} (hcol : col < cols)
    [IsStrictOrderedRing K] (hrun : normalizeRow cols col pivot ab = .ok out) :
    pivot ≠ 0 ∧ ∀ i k, out i k = if i = col ∧ col ≤ k ∧ k < cols then ab i k / pivot else ab i k := by
  obtain ⟨rfl, hguard⟩ := foldlM_guard hrun
  have hne : List.range' col (cols - col) ≠ [] := by
    rw [Ne, List.range'_eq_nil_iff]
    omega
  obtain ⟨_, _, hdiv⟩ := hguard hne
  refine ⟨hdiv.ne_zero, fun i k => ?_⟩
  rw [Table.foldl_columns (g := fun _ column i => if i = col then column i / pivot else column i)]
  · by_cases hi : i = col <;> by_cases hk : col ≤ k ∧ k < cols
    · rw [if_pos (by omega), if_pos hi, if_pos ⟨hi, hk⟩]
    · rw [if_neg (by omega), if_neg fun h => hk h.2]
    · rw [if_pos (by omega), if_neg hi, if_neg fun h => hi h.1]
    · rw [if_neg (by omega), if_neg fun h => hi h.1]
  · intro a j i k
    rw [Table.set_apply]
    split_ifs <;> simp_all

omit [LinearOrder K] in
theorem eliminateRow_apply {cols col : Nat} {ab : Table K} (r i k : Nat) :
    eliminateRow cols col ab r i k =
      if i = r ∧ col ≤ k ∧ k < cols then ab i k - ab col k * ab r col else ab i k := by
  rw [eliminateRow, Table.foldl_columns
    (g := fun _ column i => if i = r then column i - column col * ab r col else column i)]
  · by_cases hi : i = r <;> by_cases hk : col ≤ k ∧ k < cols
    · rw [if_pos (by omega), if_pos hi, if_pos ⟨hi, hk⟩]
    · rw [if_neg (by omega), if_neg fun h => hk h.2]
    · rw [if_pos (by omega), if_neg hi, if_neg fun h => hi h.1]
    · rw [if_neg (by omega), if_neg fun h => hi h.1]
  · intro a j i k
    rw [Table.set_apply]
    split_ifs <;> simp_all

omit [LinearOrder K] in
/-- The rows below the pivot. -/
theorem eliminateRows_apply {cols col : Nat} (len : Nat) {ab : Table K} (i k : Nat) :
    (List.range' (col + 1) len).foldl (eliminateRow cols col) ab i k =
      if (col < i ∧ i ≤ col + len) ∧ col ≤ k ∧ k < cols then ab i k - ab col k * ab i col
      else ab i k := by
  induction len generalizing i k with
  | zero => rw [if_neg (by omega)]; rfl
  | succ len ih =>
      rw [List.range'_1_concat, List.foldl_append, List.foldl_cons, List.foldl_nil,
        eliminateRow_apply]
      by_cases hi : i = col + 1 + len
      · have hkeep : ∀ r, (r = i ∨ r = col) → ∀ k,
            (List.range' (col + 1) len).foldl (eliminateRow cols col) ab r k = ab r k :=
          fun r hr k => by rw [ih, if_neg (by omega)]
        subst hi
        rw [hkeep _ (Or.inl rfl), hkeep _ (Or.inr rfl), hkeep _ (Or.inl rfl)]
        exact if_congr (by omega) rfl rfl
      · rw [if_neg fun h => hi h.1, ih]
        exact if_congr (by omega) rfl rfl

/-! ## The elimination -/

variable [IsStrictOrderedRing K]

/-- **A column of the elimination** keeps the kernel, and its pivot is not zero. -/
theorem solveColumn_spec {rows cols col : Nat} (hcol : col < rows) (hcols : rows ≤ cols)
    {s t : Table K × Bool} (hech : Echelon col rows s.1)
    (hrun : solveColumn rows cols s col = .ok t) :
    Echelon (col + 1) rows t.1 ∧ ∀ y, Kernel rows cols t.1 y ↔ Kernel rows cols s.1 y := by
  obtain ⟨ab, hnormal, hout⟩ := bind_eq_ok.mp hrun
  cases hout
  obtain ⟨hp, hprows⟩ := pivotSearch_mem hcol s.1
  generalize (pivotSearch rows col s.1).1 = p at hp hprows hnormal
  obtain ⟨hpivot, hab⟩ := normalizeRow_spec (by omega) hnormal
  generalize hswap : exchangeRows cols col p s.1 = a at hpivot hab
  have ha : ∀ i k, a i k = if col ≤ k ∧ k < cols then swapRows p col s.1 i k else s.1 i k := by
    rw [← hswap]
    exact exchangeRows_apply cols col p s.1
  -- the rows from the pivot on are zero in the columns that are cleared
  have hzero : ∀ i < rows, col ≤ i → ∀ k < col, s.1 i k = 0 := fun i hi hci k hk =>
    (hech k hk).2 i hi (by omega)
  have hazero : ∀ i < rows, col ≤ i → ∀ k < col, a i k = 0 := by
    intro i hi hci k hk
    rw [ha, if_neg (by omega)]
    exact hzero i hi hci k hk
  have habzero : ∀ i < rows, col ≤ i → ∀ k < col, ab i k = 0 := by
    intro i hi hci k hk
    rw [hab, if_neg (by omega)]
    exact hazero i hi hci k hk
  have hswapped : Agree rows cols a (swapRows p col s.1) := by
    intro i hi k hk
    rw [ha]
    by_cases hck : col ≤ k
    · rw [if_pos ⟨hck, hk⟩]
    · rw [if_neg fun h => hck h.1, swapRows]
      split_ifs with h1 h2
      · rw [h1, hzero p hprows hp k (by omega), hzero col hcol le_rfl k (by omega)]
      · rw [h2, hzero p hprows hp k (by omega), hzero col hcol le_rfl k (by omega)]
      · rfl
  have hscaled : Agree rows cols ab (scaleRow col (a col col) a) := by
    intro i hi k hk
    rw [hab, scaleRow]
    by_cases hic : i = col
    · by_cases hck : col ≤ k
      · rw [if_pos ⟨hic, hck, hk⟩, if_pos hic]
      · rw [if_neg fun h => hck h.2.1, if_pos hic, hazero i hi (by omega) k (by omega), zero_div]
    · rw [if_neg fun h => hic h.1, if_neg hic]
  have hone : ab col col = 1 := by
    rw [hab, if_pos ⟨rfl, le_rfl, by omega⟩, div_self hpivot]
  have hcleared : Agree rows cols
      ((List.range' (col + 1) (rows - (col + 1))).foldl (eliminateRow cols col) ab)
      (clearRows col (fun i => if col < i then ab i col else 0) ab) := by
    intro i hi k hk
    rw [eliminateRows_apply, clearRows]
    by_cases hic : col < i
    · rw [if_neg (by omega : i ≠ col), if_pos hic]
      by_cases hck : col ≤ k
      · rw [if_pos ⟨⟨hic, by omega⟩, hck, hk⟩]
      · rw [if_neg fun h => hck h.2.1, habzero col hcol le_rfl k (by omega), zero_mul, sub_zero]
    · rw [if_neg fun h => hic h.1.1, if_neg hic, mul_zero, sub_zero, ite_self]
  refine ⟨?_, fun y => ?_⟩
  · intro j hj
    dsimp only
    rcases Nat.lt_succ_iff_lt_or_eq.mp hj with hjc | rfl
    · -- a column that was clear before
      have hkeep : ∀ i < rows, i < col ∨ j < i →
          (List.range' (col + 1) (rows - (col + 1))).foldl (eliminateRow cols col) ab i j =
            s.1 i j := by
        intro i hi hside
        rw [eliminateRows_apply, if_neg (by omega), hab, if_neg (by omega), ha,
          if_neg (by omega)]
      refine ⟨?_, fun i hi hji => ?_⟩
      · rw [hkeep j (by omega) (Or.inl hjc)]
        exact (hech j hjc).1
      · rw [hkeep i hi (Or.inr hji)]
        exact (hech j hjc).2 i hi hji
    · refine ⟨?_, fun i hi hji => ?_⟩
      · rw [eliminateRows_apply, if_neg (by omega), hone]
      · rw [eliminateRows_apply, if_pos ⟨⟨hji, by omega⟩, le_rfl, by omega⟩, hone, one_mul, sub_self]
  · rw [Kernel.congr hcleared, kernel_clearRows hcol, Kernel.congr hscaled, kernel_scaleRow hpivot,
      Kernel.congr hswapped, kernel_swapRows hprows hcol]

/-- **The elimination.** -/
theorem solveColumns_spec {rows cols : Nat} (hcols : rows ≤ cols) {ab : Table K}
    {t : Table K × Bool}
    (hrun : (List.range rows).foldlM (solveColumn rows cols) (ab, false) = .ok t) :
    Echelon rows rows t.1 ∧ ∀ y, Kernel rows cols t.1 y ↔ Kernel rows cols ab y := by
  refine foldlM_range (fun n s => Echelon n rows s.1 ∧
    ∀ y, Kernel rows cols s.1 y ↔ Kernel rows cols ab y) (fun col hcol s s' h hstep => ?_)
      ⟨fun j hj => absurd hj (Nat.not_lt_zero j), fun _ => Iff.rfl⟩ hrun
  obtain ⟨hech, hkernel⟩ := solveColumn_spec hcol hcols h.1 hstep
  exact ⟨hech, fun y => (hkernel y).trans (h.2 y)⟩

/-! ## The substitution -/

omit [LinearOrder K] [IsStrictOrderedRing K] in
theorem foldl_sub (f : Nat → K) (start len : Nat) (x : K) :
    (List.range' start len).foldl (fun x k => x - f k) x =
      x - ∑ k ∈ Finset.Ico start (start + len), f k := by
  induction len with
  | zero => simp
  | succ len ih =>
      rw [List.range'_1_concat, List.foldl_append, List.foldl_cons, List.foldl_nil, ih,
        ← Nat.add_assoc, Finset.sum_Ico_succ_top (by omega), sub_sub]

/-- **The substitution for a right hand side**, from the last row up. -/
theorem backColumn_spec {rows c : Nat} (n : Nat) (hn : n ≤ rows)
    {ab out : Table K} (hrun : (List.range n).reverse.foldlM (backRow rows c) ab = .ok out) :
    (∀ i k, k ≠ c ∨ n ≤ i → out i k = ab i k) ∧
      ∀ i < n, ab i i * out i c + ∑ k ∈ Finset.Ico (i + 1) rows, ab i k * out k c = ab i c := by
  induction n generalizing ab with
  | zero =>
      cases hrun
      exact ⟨fun _ _ _ => rfl, fun i hi => absurd hi (Nat.not_lt_zero i)⟩
  | succ n ih =>
      rw [List.range_succ, List.reverse_append, List.reverse_singleton, List.singleton_append,
        List.foldlM_cons] at hrun
      obtain ⟨ab', hrow, hrest⟩ := bind_eq_ok.mp hrun
      rw [backRow, foldl_sub] at hrow
      split_ifs at hrow with hdiv
      cases hrow
      have hpivot := hdiv.ne_zero
      obtain ⟨hkeep, hsolve⟩ := ih (by omega) hrest
      have hother : ∀ i k, k ≠ c ∨ i ≠ n →
          ab.set n c ((ab n c - ∑ k ∈ Finset.Ico (n + 1) (n + 1 + (rows - (n + 1))),
            ab n k * ab k c) / ab n n) i k = ab i k := fun i k hik => by
        rw [Table.set_apply, if_neg (by omega)]
      refine ⟨fun i k hik => ?_, fun i hi => ?_⟩
      · rw [hkeep i k (by omega), hother i k (by omega)]
      · rcases Nat.lt_succ_iff_lt_or_eq.mp hi with hi | rfl
        · have hrow := hsolve i hi
          rw [hother i i (by omega), hother i c (by omega)] at hrow
          rw [← hrow]
          congr 1
          refine Finset.sum_congr rfl fun k hk => ?_
          rw [hother i k (Or.inr (by omega))]
        · have hsum : ∑ k ∈ Finset.Ico (i + 1) rows, ab i k * out k c =
              ∑ k ∈ Finset.Ico (i + 1) (i + 1 + (rows - (i + 1))), ab i k * ab k c := by
            rw [show i + 1 + (rows - (i + 1)) = rows by omega]
            refine Finset.sum_congr rfl fun k hk => ?_
            have hlt := (Finset.mem_Ico.mp hk).1
            rw [hkeep k c (by omega), hother k c (by omega)]
          rw [hsum, hkeep i c (by omega), Table.set_apply, if_pos ⟨rfl, rfl⟩,
            mul_div_cancel₀ _ hpivot, sub_add_cancel]

/-- All the right hand sides. -/
theorem backColumns_spec {rows : Nat} (len : Nat) {ab out : Table K}
    (hrun : (List.range' rows len).foldlM (fun ab c =>
      (List.range rows).reverse.foldlM (backRow rows c) ab) ab = .ok out) :
    (∀ i k, k < rows ∨ rows + len ≤ k → out i k = ab i k) ∧
      ∀ c, rows ≤ c → c < rows + len → ∀ i < rows,
        ab i i * out i c + ∑ k ∈ Finset.Ico (i + 1) rows, ab i k * out k c = ab i c := by
  induction len generalizing out with
  | zero =>
      cases hrun
      exact ⟨fun _ _ _ => rfl, fun c hc hlt => by omega⟩
  | succ len ih =>
      rw [List.range'_1_concat, List.foldlM_append] at hrun
      obtain ⟨ab', hfirst, hlast⟩ := bind_eq_ok.mp hrun
      obtain ⟨ab'', hcolumn, hdone⟩ := bind_eq_ok.mp ((List.foldlM_cons ..).symm.trans hlast)
      cases hdone
      obtain ⟨hkeep, hsolve⟩ := ih hfirst
      obtain ⟨hkeep', hsolve'⟩ := backColumn_spec rows le_rfl hcolumn
      refine ⟨fun i k hk => ?_, fun c hc hlt i hi => ?_⟩
      · rw [hkeep' i k (Or.inl (by omega)), hkeep i k (by omega)]
      · by_cases hlast : c = rows + len
        · subst hlast
          have hrow := hsolve' i hi
          rw [hkeep i i (by omega), hkeep i (rows + len) (by omega)] at hrow
          rw [← hrow]
          congr 1
          refine Finset.sum_congr rfl fun k hk => ?_
          rw [hkeep i k (Or.inl (Finset.mem_Ico.mp hk).2)]
        · rw [← hsolve c hc (by omega) i hi, hkeep' i c (Or.inl hlast)]
          congr 1
          exact Finset.sum_congr rfl fun k _ => by rw [hkeep' k c (Or.inl hlast)]

omit [LinearOrder K] [IsStrictOrderedRing K] in
theorem solves_of_back {rows c : Nat} {ab : Table K} {x : Nat → K} (hech : Echelon rows rows ab)
    (hx : ∀ i < rows, ab i i * x i + ∑ k ∈ Finset.Ico (i + 1) rows, ab i k * x k = ab i c) :
    Solves rows ab c x := by
  intro i hi
  have hbelow : ∑ k ∈ Finset.range i, ab i k * x k = 0 := Finset.sum_eq_zero fun k hk => by
    have hki := Finset.mem_range.mp hk
    rw [(hech k (by omega)).2 i hi hki, zero_mul]
  rw [← hx i hi, ← Finset.sum_range_add_sum_Ico _ (show i + 1 ≤ rows by omega),
    Finset.sum_range_succ, hbelow, zero_add]

omit [IsStrictOrderedRing K] in
/-- The solver fails only in a division. -/
theorem solveAb_error {rows cols : Nat} {ab : Table K} {e : Status}
    (hrun : solveAb rows cols ab = .error e) : e = .divZero := by
  rcases bind_eq_error.mp hrun with helim | ⟨t, -, hback⟩
  · obtain ⟨s, col, -, hcolumn⟩ := exists_mem_of_foldlM_error helim
    rcases bind_eq_error.mp hcolumn with hnormal | ⟨_, -, hdone⟩
    · obtain ⟨_, _, -, hentry⟩ := exists_mem_of_foldlM_error hnormal
      split_ifs at hentry
      exact (Except.error.inj hentry).symm
    · cases hdone
  · rcases bind_eq_error.mp hback with hcolumns | ⟨_, -, hdone⟩
    · obtain ⟨_, _, -, hcolumn⟩ := exists_mem_of_foldlM_error hcolumns
      obtain ⟨_, _, -, hrow⟩ := exists_mem_of_foldlM_error hcolumn
      rw [backRow] at hrow
      split_ifs at hrow
      exact (Except.error.inj hrow).symm
    · cases hdone

/-- A table that is solved is regular, and each right hand side becomes its
solution. -/
theorem solveAb_ok {rows cols : Nat} (hcols : rows ≤ cols) {ab out : Table K} {ill : Bool}
    (hrun : solveAb rows cols ab = .ok (out, ill)) :
    (Matrix.of fun i j : Fin rows => ab i j).det ≠ 0 ∧
      ∀ c, rows ≤ c → c < cols →
        (Matrix.of fun i j : Fin rows => ab i j).mulVec (fun j => out j c) =
          fun i : Fin rows => ab i c := by
  obtain ⟨t, helim, hback⟩ := bind_eq_ok.mp hrun
  obtain ⟨out', hcolumns, hdone⟩ := bind_eq_ok.mp hback
  cases hdone
  obtain ⟨hech, hkernel⟩ := solveColumns_spec hcols helim
  refine ⟨hech.det_ne_zero hcols hkernel, fun c hc hlt => ?_⟩
  have hsolve := (backColumns_spec (cols - rows) hcolumns).2 c hc (by omega)
  have hx := (solves_of_back hech hsolve).of_kernel hkernel hc hlt
  funext i
  rw [Matrix.mulVec, dotProduct, ← hx i i.isLt, Finset.sum_range]
  rfl

/-- What the solver returns is the only solution. -/
theorem solveAb_eq {rows cols : Nat} (hcols : rows ≤ cols) {ab out : Table K} {ill : Bool}
    (hrun : solveAb rows cols ab = .ok (out, ill)) {c : Nat} (hc : rows ≤ c) (hlt : c < cols)
    {x : Nat → K} (hx : Solves rows ab c x) {i : Nat} (hi : i < rows) : out i c = x i := by
  obtain ⟨hdet, hsolve⟩ := solveAb_ok hcols hrun
  have hmul : (Matrix.of fun i j : Fin rows => ab i j).mulVec (fun j => out j c - x j) = 0 := by
    funext i
    have hout := congrFun (hsolve c hc hlt) i
    simp only [Matrix.mulVec, dotProduct, Matrix.of_apply] at hout ⊢
    simp only [mul_sub, Finset.sum_sub_distrib]
    rw [hout, ← Finset.sum_range fun j => ab i j * x j, hx i i.isLt, sub_self]
    rfl
  exact sub_eq_zero.mp (congrFun (Matrix.eq_zero_of_mulVec_eq_zero hdet hmul) ⟨i, hi⟩)

/-- **The solver.**  A table is solved, its matrix is regular and each right hand
side becomes its solution, or it is refused with `REF_DIV_ZERO`. -/
theorem solveAb_spec {rows cols : Nat} (hcols : rows ≤ cols) (ab : Table K) :
    (∃ out ill, solveAb rows cols ab = .ok (out, ill) ∧
      (Matrix.of fun i j : Fin rows => ab i j).det ≠ 0 ∧
        ∀ c, rows ≤ c → c < cols →
          (Matrix.of fun i j : Fin rows => ab i j).mulVec (fun j => out j c) =
            fun i : Fin rows => ab i c) ∨
      solveAb rows cols ab = .error .divZero := by
  rcases hrun : solveAb rows cols ab with e | ⟨out, ill⟩
  · rw [solveAb_error hrun]
    exact Or.inr rfl
  · exact Or.inl ⟨out, ill, rfl, solveAb_ok hcols hrun⟩

end Solve

/-- Two equations for one right hand side. -/
def pairTable : Table ℚ := fun i j => if i = j then 2 else 1

theorem solveAb_spec_pair : ∃ out ill, solveAb 2 3 pairTable = .ok (out, ill) ∧
    (Matrix.of fun i j : Fin 2 => pairTable i j).mulVec (fun j => out j 2) =
      fun i : Fin 2 => pairTable i 2 := by
  have hsome : (solveAb 2 3 pairTable).toOption.isSome = true := by decide +kernel
  rcases solveAb_spec (show 2 ≤ 3 by decide) pairTable with ⟨out, ill, hok, -, hsolve⟩ | hfail
  · exact ⟨out, ill, hok, hsolve 2 le_rfl (by decide)⟩
  · rw [hfail] at hsome
    cases hsome

end RefineMesh
