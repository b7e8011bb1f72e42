import Mathlib.Tactic
import RefineMesh.EdgeRcm
import RefineMesh.Face
import RefineMesh.Segments

/-!
# The compressed rows

`REF_COMPROW_STRUCT` holds for each node the nodes next to it along an edge and
the node itself, row after row.  The array `first` serves as the count of the
rows, then as their ends, and after the rows are filled from the back as their
starts.
-/

namespace RefineMesh

open ArrayLoop Segments

variable {D : Type}

/-- `REF_COMPROW_STRUCT`. -/
structure RefComprow where
  max : Nat
  nnz : Nat
  first : Nat → Nat
  col : Nat → Int

namespace RefComprow

/-- A node as a place of `first`, which has one place more than there are rows. -/
def place (max : Nat) (node : Int) : Except Status Nat :=
  if 0 ≤ node ∧ node ≤ max then .ok node.toNat else .error .undefined

/-- `first[row] += amount`, computed in `REF_INT`. -/
def raise (first : Nat → Nat) (row amount : Nat) : Except Status (Nat → Nat) :=
  if refIntMax < first row + amount then .error .undefined
  else .ok (Function.update first row (first row + amount))

/-- The loop that counts the nodes that the edges touch. -/
def countEnds (edges : RefEdge) (max : Nat) (first : Nat → Nat) : Except Status (Nat → Nat) :=
  (List.range edges.n).foldlM (fun first edge => do
    let row ← place max (edges.e2n edge 0)
    let first ← raise first row 1
    let row ← place max (edges.e2n edge 1)
    raise first row 1) first

/-- The loop that adds the diagonal to the counts. -/
def countDiagonal (max : Nat) (first : Nat → Nat) : Except Status (Nat → Nat) :=
  (List.range max).foldlM (fun first node =>
    if 0 < first node then raise first node 1 else .ok first) first

/-- The cumulative sum, which sets `first` to the last entry on each row. -/
def cumulate (max : Nat) (first : Nat → Nat) : Except Status (Nat → Nat) :=
  (List.range max).foldlM (fun first node => raise first (node + 1) (first node)) first

/-- `first[row]--; col[first[row]] = value;` -/
def put (s : RefComprow) (row : Nat) (value : Int) : Except Status RefComprow :=
  if s.first row = 0 ∨ s.nnz < s.first row then .error .undefined
  else .ok { s with
    first := Function.update s.first row (s.first row - 1)
    col := Function.update s.col (s.first row - 1) value }

/-- The diagonal of row `k + 1`, when the row ends behind the row before. -/
def diagonalStep (s : RefComprow) (k : Nat) : Except Status RefComprow :=
  if s.first k < s.first (k + 1) then s.put (k + 1) ((k + 1 : Nat) : Int) else .ok s

/-- The loop that adds the diagonal, from the last row down to row 1, and the
step for row 0. -/
def addDiagonal (s : RefComprow) : Except Status RefComprow := do
  let s ← (List.range s.max).reverse.foldlM diagonalStep s
  if 0 < s.first 0 then s.put 0 0 else .ok s

/-- The loop that adds the off-diagonals. -/
def addOffDiagonals (edges : RefEdge) (s : RefComprow) : Except Status RefComprow :=
  let max := s.max
  (List.range edges.n).foldlM (fun s edge => do
    let n0 ← place max (edges.e2n edge 0)
    let s ← s.put n0 (edges.e2n edge 1)
    let n0 ← place max (edges.e2n edge 1)
    s.put n0 (edges.e2n edge 0)) s

/-- `ref_comprow_create` after the edges are made. -/
def ofEdges (edges : RefEdge) (max : Nat) : Except Status RefComprow :=
  if refIntMax < 1 + max then .error .undefined
  else do
    let first ← countEnds edges max fun _ => 0
    let first ← countDiagonal max first
    let first ← cumulate max first
    let s ← addDiagonal { max := max, nnz := first max, first := first, col := fun _ => refEmpty }
    addOffDiagonals edges s

/-- `ref_comprow_create`, over memory `mem` that the edge store does not clear. -/
def create (mem : RefEdge) (g : RefGrid D) : Except Status RefComprow := do
  let edges ← RefEdge.create mem g
  ofEdges edges g.node.max

/-- `ref_comprow_entry`; the entry is `REF_EMPTY` exactly when it fails. -/
def entry (s : RefComprow) (row col : Int) : Except Status Nat :=
  if row < 0 ∨ s.max ≤ row ∨ col < 0 ∨ s.max ≤ col then .error .invalid
  else
    let row := row.toNat
    if s.first (row + 1) = s.first row then .error .notFound
    else
      match (List.range' (s.first row) (s.first (row + 1) - s.first row)).find? fun entry =>
        col = s.col entry with
      | some entry => .ok entry
      | none => .error .notFound

/-! ## The counts -/

/-- The row and the column of each store of the off-diagonal loop. -/
def offEntries (edges : RefEdge) (l : List Nat) : List (Nat × Int) :=
  l.flatMap fun e => [((edges.e2n e 0).toNat, edges.e2n e 1),
    ((edges.e2n e 1).toNat, edges.e2n e 0)]

/-- How often the edges touch a row. -/
def touches (edges : RefEdge) (row : Nat) : Nat :=
  (group Prod.fst (offEntries edges (List.range edges.n)) row).length

/-- The entries of a row, with the diagonal. -/
def rowSize (edges : RefEdge) (row : Nat) : Nat :=
  touches edges row + if 0 < touches edges row then 1 else 0

/-- The ends of the edges are rows. -/
def EndsWithin (edges : RefEdge) (max : Nat) : Prop :=
  ∀ e, e < edges.n → ∀ i, i < 2 → 0 ≤ edges.e2n e i ∧ edges.e2n e i < max

section Counts

variable {edges : RefEdge} {max : Nat}

theorem length_offEntries (edges : RefEdge) (l : List Nat) :
    (offEntries edges l).length = 2 * l.length := by
  induction l with
  | nil => rfl
  | cons e rest ih =>
      rw [offEntries, List.flatMap_cons, List.length_append]
      change 2 + (offEntries edges rest).length = 2 * (rest.length + 1)
      rw [ih]
      omega

/-- A loop over the edges that handles each end is a loop over the entries. -/
theorem foldlM_offEntries {β : Type} {f : β → Nat → Except Status β}
    {g : β → Nat × Int → Except Status β} {l : List Nat}
    (h : ∀ e ∈ l, ∀ b, f b e = g b ((edges.e2n e 0).toNat, edges.e2n e 1) >>= fun b =>
      g b ((edges.e2n e 1).toNat, edges.e2n e 0)) (b : β) :
    l.foldlM f b = (offEntries edges l).foldlM g b := by
  induction l generalizing b with
  | nil => rfl
  | cons e rest ih =>
      have hrest := ih fun e' he' => h e' (List.mem_cons_of_mem e he')
      rw [List.foldlM_cons, h e List.mem_cons_self b, offEntries, List.flatMap_cons,
        List.foldlM_append]
      simp only [List.foldlM_cons, List.foldlM_nil, bind_assoc, pure_bind]
      congr 1
      funext b1
      congr 1
      funext b2
      exact hrest b2

theorem touches_le (edges : RefEdge) (row : Nat) : touches edges row ≤ 2 * edges.n := by
  have hle := List.length_filter_le (fun i : Nat × Int => decide (i.1 = row))
    (offEntries edges (List.range edges.n))
  rw [length_offEntries, List.length_range] at hle
  exact hle

theorem rowSize_le (edges : RefEdge) (row : Nat) : rowSize edges row ≤ 2 * touches edges row := by
  unfold rowSize
  split <;> omega

/-- All rows together have at most four entries for each edge. -/
theorem start_rowSize_le (edges : RefEdge) (p : Nat) : start (rowSize edges) p ≤ 4 * edges.n := by
  have hle : start (rowSize edges) p ≤ start (fun row => 2 * touches edges row) p :=
    Finset.sum_le_sum fun row _ => rowSize_le edges row
  have htotal : start (touches edges) p ≤ (offEntries edges (List.range edges.n)).length :=
    start_group_le _ p
  rw [start_mul] at hle
  rw [length_offEntries, List.length_range] at htotal
  omega

theorem place_ok {node : Int} (h : 0 ≤ node ∧ node < max) : place max node = .ok node.toNat :=
  if_pos ⟨h.1, h.2.le⟩

/-- Without an end outside the rows a row outside is not touched. -/
theorem touches_eq_zero (hin : EndsWithin edges max) {row : Nat} (hrow : max ≤ row) :
    touches edges row = 0 := by
  rw [touches, List.length_eq_zero_iff, group, List.filter_eq_nil_iff]
  intro entry hentry
  obtain ⟨e, he, hentry⟩ := List.mem_flatMap.mp hentry
  have h0 := hin e (List.mem_range.mp he) 0 (by omega)
  have h1 := hin e (List.mem_range.mp he) 1 (by omega)
  simp only [List.mem_cons, List.not_mem_nil, or_false] at hentry
  rcases hentry with rfl | rfl
  · simp only [decide_eq_true_eq]
    omega
  · simp only [decide_eq_true_eq]
    omega

theorem raise_or (first : Nat → Nat) (row amount : Nat) :
    raise first row amount = .ok (Function.update first row (first row + amount)) ∨
      raise first row amount = .error .undefined ∧ refIntMax < first row + amount := by
  unfold raise
  split
  · rename_i hover
    exact Or.inr ⟨rfl, hover⟩
  · exact Or.inl rfl

/-- The first loop counts the entries next to the diagonal. -/
theorem countEnds_spec (hin : EndsWithin edges max) :
    (∃ first, countEnds edges max (fun _ => 0) = .ok first ∧ ∀ row, first row = touches edges row) ∨
      countEnds edges max (fun _ => 0) = .error .undefined ∧ refIntMax < 4 * edges.n := by
  have hends : countEnds edges max (fun _ => 0) =
      (offEntries edges (List.range edges.n)).foldlM (fun first entry => raise first entry.1 1)
        fun _ => 0 := by
    apply foldlM_offEntries
    intro e he first
    have h0 := hin e (List.mem_range.mp he) 0 (by omega)
    have h1 := hin e (List.mem_range.mp he) 1 (by omega)
    simp only [place_ok h0, place_ok h1]
    rfl
  rw [hends]
  have hloop := foldlM_exists_or (e := Status.undefined) (Q := refIntMax < 4 * edges.n)
    (f := fun first (entry : Nat × Int) => raise first entry.1 1)
    (l := offEntries edges (List.range edges.n)) (b := fun _ => 0)
    (fun done rest first => done ++ rest = offEntries edges (List.range edges.n) ∧
      ∀ row, first row = (group Prod.fst done row).length)
    (by
      intro done entry rest first h
      obtain ⟨hsplit, hfirst⟩ := h
      have hlen : done.length < 2 * edges.n := by
        have htotal := length_offEntries edges (List.range edges.n)
        rw [← hsplit, List.length_range, List.length_append, List.length_cons] at htotal
        omega
      rcases raise_or first entry.1 1 with hrun | ⟨hrun, hover⟩
      · refine Or.inl ⟨_, hrun, by simpa using hsplit, fun row => ?_⟩
        by_cases hrow : row = entry.1
        · rw [hrow, Function.update_self, hfirst]
          simp [group]
        · have hne : ¬ entry.1 = row := fun heq => hrow heq.symm
          rw [Function.update_of_ne hrow, hfirst]
          simp [group, hne]
      · have hle : first entry.1 ≤ done.length := by
          rw [hfirst]
          exact List.length_filter_le _ _
        exact Or.inr ⟨hrun, by omega⟩)
    ⟨List.nil_append _, fun row => rfl⟩
  rcases hloop with ⟨first, hrun, _, hfirst⟩ | herror
  · exact Or.inl ⟨first, hrun, hfirst⟩
  · exact Or.inr herror

/-- The second loop adds the diagonal. -/
theorem countDiagonal_spec {first : Nat → Nat} (hfirst : ∀ row, first row = touches edges row)
    (hout : ∀ row, max ≤ row → touches edges row = 0) :
    (∃ first', countDiagonal max first = .ok first' ∧ ∀ row, first' row = rowSize edges row) ∨
      countDiagonal max first = .error .undefined ∧ refIntMax < 4 * edges.n := by
  have hloop := foldlM_exists_or (e := Status.undefined) (Q := refIntMax < 4 * edges.n)
    (f := fun first node => if 0 < first node then raise first node 1 else .ok first)
    (l := List.range max) (b := first)
    (fun done rest first => done ++ rest = List.range max ∧
      ∀ row, first row = if row < done.length then rowSize edges row else touches edges row)
    (by
      intro done node rest first h
      obtain ⟨hsplit, hfirst⟩ := h
      obtain ⟨rfl, hnode⟩ := range_split hsplit
      have hself : first done.length = touches edges done.length := by
        rw [hfirst, if_neg (lt_irrefl _)]
      have hnext : ∀ first' : Nat → Nat, first' done.length = rowSize edges done.length →
          (∀ row, row ≠ done.length → first' row = first row) →
          ∀ row, first' row = if row < (done ++ [done.length]).length then rowSize edges row
            else touches edges row := by
        intro first' hset hkeep row
        rw [List.length_append, List.length_singleton]
        by_cases hrow : row = done.length
        · rw [hrow, hset, if_pos (by omega)]
        · rw [hkeep row hrow, hfirst]
          by_cases hlt : row < done.length
          · rw [if_pos hlt, if_pos (by omega)]
          · rw [if_neg hlt, if_neg (by omega)]
      by_cases hpos : 0 < first done.length
      · simp only [hpos, if_true]
        rcases raise_or first done.length 1 with hrun | ⟨hrun, hover⟩
        · refine Or.inl ⟨_, hrun, by simpa using hsplit, hnext _ ?_ ?_⟩
          · rw [Function.update_self, rowSize, ← hself, if_pos hpos]
          · exact fun row hrow => Function.update_of_ne hrow _ _
        · have hle := touches_le edges done.length
          exact Or.inr ⟨hrun, by omega⟩
      · simp only [hpos, if_false]
        refine Or.inl ⟨_, rfl, by simpa using hsplit, hnext _ ?_ fun _ _ => rfl⟩
        rw [rowSize, ← hself, if_neg hpos, Nat.add_zero])
    ⟨List.nil_append _, fun row => hfirst row⟩
  rcases hloop with ⟨first', hrun, _, hfirst'⟩ | herror
  · refine Or.inl ⟨first', hrun, fun row => ?_⟩
    rw [hfirst', List.length_range]
    split
    · rfl
    · rename_i hrow
      rw [rowSize, hout row (by omega)]
      rfl
  · exact Or.inr herror

/-- The third loop leaves the ends of the rows. -/
theorem cumulate_spec (max : Nat) {first : Nat → Nat} (hfirst : ∀ row, first row = rowSize edges row) :
    (∃ first', cumulate max first = .ok first' ∧
        ∀ row, row ≤ max → first' row = start (rowSize edges) (row + 1)) ∨
      cumulate max first = .error .undefined ∧ refIntMax < 4 * edges.n := by
  have hloop := foldlM_exists_or (e := Status.undefined) (Q := refIntMax < 4 * edges.n)
    (f := fun first node => raise first (node + 1) (first node))
    (l := List.range max) (b := first)
    (fun done rest first => done ++ rest = List.range max ∧ ∀ row, first row =
      if row ≤ done.length then start (rowSize edges) (row + 1) else rowSize edges row)
    (by
      intro done node rest first h
      obtain ⟨hsplit, hfirst⟩ := h
      obtain ⟨rfl, hnode⟩ := range_split hsplit
      have hsum : first (done.length + 1) + first done.length =
          start (rowSize edges) (done.length + 1 + 1) := by
        rw [hfirst, hfirst, if_neg (by omega), if_pos le_rfl, start_succ _ (done.length + 1)]
        omega
      rcases raise_or first (done.length + 1) (first done.length) with hrun | ⟨hrun, hover⟩
      · refine Or.inl ⟨_, hrun, by simpa using hsplit, fun row => ?_⟩
        rw [List.length_append, List.length_singleton]
        by_cases hrow : row = done.length + 1
        · rw [hrow, Function.update_self, hsum, if_pos le_rfl]
        · rw [Function.update_of_ne hrow, hfirst]
          by_cases hle : row ≤ done.length
          · rw [if_pos hle, if_pos (by omega)]
          · rw [if_neg hle, if_neg (by omega)]
      · have hle := start_rowSize_le edges (done.length + 1 + 1)
        exact Or.inr ⟨hrun, by omega⟩)
    ⟨List.nil_append _, fun row => by
      rw [hfirst]
      split
      · rename_i hrow
        rw [show row = 0 from Nat.le_zero.mp hrow, start_succ, start_zero, Nat.zero_add]
      · rfl⟩
  rcases hloop with ⟨first', hrun, _, hfirst'⟩ | herror
  · refine Or.inl ⟨first', hrun, fun row hrow => ?_⟩
    rw [hfirst', List.length_range, if_pos hrow]
  · exact Or.inr herror

end Counts

/-! ## Filling the rows -/

/-- The stores of the diagonal for the rows below `k`, from the last row on. -/
def diagonal (edges : RefEdge) : Nat → List (Nat × Int)
  | 0 => []
  | k+1 => (if 0 < touches edges k then [(k, (k : Int))] else []) ++ diagonal edges k

/-- All stores in their order. -/
def entries (edges : RefEdge) (max : Nat) : List (Nat × Int) :=
  diagonal edges (max + 1) ++ offEntries edges (List.range edges.n)

/-- The columns of a row. -/
def row (s : RefComprow) (i : Nat) : List Int :=
  (List.range' (s.first i) (s.first (i + 1) - s.first i)).map s.col

/-- The rows while they are filled. -/
structure Filling (edges : RefEdge) (max : Nat) (done todo : List (Nat × Int)) (s : RefComprow) :
    Prop where
  rows : s.max = max
  total : s.nnz = start (rowSize edges) (max + 1)
  back : BackFilled Prod.fst Prod.snd (max + 1) (entries edges max) done todo s.first s.col

/-- The filled rows. -/
structure Rows (edges : RefEdge) (max : Nat) (s : RefComprow) : Prop where
  rows : s.max = max
  total : s.nnz = start (rowSize edges) max
  starts : ∀ row, row ≤ max → s.first row = start (rowSize edges) row
  filled : ∀ row, row < max →
    s.row row = ((group Prod.fst (entries edges max) row).map Prod.snd).reverse

section Fill

variable {edges : RefEdge} {max : Nat} {s : RefComprow} {done todo : List (Nat × Int)}

theorem group_diagonal (edges : RefEdge) (k row : Nat) :
    group Prod.fst (diagonal edges k) row =
      if row < k ∧ 0 < touches edges row then [(row, (row : Int))] else [] := by
  induction k with
  | zero => simp [diagonal, group]
  | succ k ih =>
      have hsplit : group Prod.fst (diagonal edges (k + 1)) row =
          group Prod.fst (if 0 < touches edges k then [(k, (k : Int))] else []) row ++
            group Prod.fst (diagonal edges k) row := List.filter_append _ _
      rw [hsplit, ih]
      by_cases hk : row = k
      · subst hk
        by_cases hpos : 0 < touches edges row <;> simp [group, hpos]
      · have hne : ¬ k = row := fun heq => hk heq.symm
        have hlt : row < k + 1 ↔ row < k := by omega
        by_cases hpos : 0 < touches edges k <;> simp [group, hpos, hne, hlt]

/-- With the diagonal below `k` still to store, the rows below `k` are empty. -/
theorem length_group_todo (edges : RefEdge) {k row : Nat} (hrow : row < k) :
    (group Prod.fst (diagonal edges k ++ offEntries edges (List.range edges.n)) row).length =
      rowSize edges row := by
  rw [group, List.filter_append, List.length_append]
  change (group Prod.fst (diagonal edges k) row).length + touches edges row = _
  rw [group_diagonal, rowSize]
  by_cases hpos : 0 < touches edges row
  · rw [if_pos ⟨hrow, hpos⟩, if_pos hpos, List.length_singleton, Nat.add_comm]
  · rw [if_neg fun h => hpos h.2, if_neg hpos, List.length_nil, Nat.add_comm]

theorem start_entries (edges : RefEdge) {max part : Nat} (hpart : part ≤ max + 1) :
    start (fun row => (group Prod.fst (entries edges max) row).length) part =
      start (rowSize edges) part :=
  start_congr fun _ hrow => length_group_todo edges (by omega)

/-- Every store is into a row. -/
theorem entries_row_lt (hin : EndsWithin edges max) {entry : Nat × Int}
    (hentry : entry ∈ entries edges max) : entry.1 < max + 1 := by
  by_contra hout
  have hzero := touches_eq_zero hin (show max ≤ entry.1 by omega)
  have hgroup : entry ∈ group Prod.fst (entries edges max) entry.1 :=
    List.mem_filter.mpr ⟨hentry, by simp⟩
  have hoff : group Prod.fst (offEntries edges (List.range edges.n)) entry.1 = [] :=
    List.length_eq_zero_iff.mp hzero
  have hsplit : group Prod.fst (entries edges max) entry.1 =
      group Prod.fst (diagonal edges (max + 1)) entry.1 ++
        group Prod.fst (offEntries edges (List.range edges.n)) entry.1 := List.filter_append _ _
  rw [hsplit, group_diagonal, if_neg fun h => hout h.1, hoff] at hgroup
  exact absurd hgroup List.not_mem_nil

/-- One store. -/
theorem Filling.put (hin : EndsWithin edges max) {entry : Nat × Int}
    (h : Filling edges max done (entry :: todo) s) :
    ∃ s', s.put entry.1 entry.2 = .ok s' ∧ Filling edges max (done ++ [entry]) todo s' := by
  have hrow : entry.1 < max + 1 := by
    apply entries_row_lt hin
    rw [← h.back.split]
    simp
  obtain ⟨⟨hpos, hle⟩, hback⟩ := h.back.step hrow
  rw [start_entries edges le_rfl, ← h.total] at hle
  refine ⟨{ s with
    first := Function.update s.first entry.1 (s.first entry.1 - 1)
    col := Function.update s.col (s.first entry.1 - 1) entry.2 }, ?_, h.rows, h.total, hback⟩
  rw [RefComprow.put, if_neg (by omega)]

/-- The ends of the rows below the diagonal still to store. -/
theorem Filling.first_eq {k : Nat}
    (h : Filling edges max done (diagonal edges k ++ offEntries edges (List.range edges.n)) s)
    (hk : k ≤ max + 1) {row : Nat} (hrow : row < k) :
    s.first row = start (rowSize edges) (row + 1) := by
  rw [h.back.next row (by omega), start_entries edges (by omega), length_group_todo edges hrow,
    start_succ]

/-- The rows whose end is behind the end of the row before are those touched. -/
theorem start_lt_succ_iff (edges : RefEdge) (row : Nat) :
    start (rowSize edges) row < start (rowSize edges) (row + 1) ↔ 0 < touches edges row := by
  rw [start_succ, rowSize]
  split <;> omega

/-- The diagonal is stored from the last row down. -/
theorem addDiagonal_loop (hin : EndsWithin edges max) {k : Nat} (hk : k ≤ max)
    (h : Filling edges max done (diagonal edges (k + 1) ++ offEntries edges (List.range edges.n))
      s) :
    ∃ s' done', (List.range k).reverse.foldlM diagonalStep s = .ok s' ∧
      Filling edges max done' (diagonal edges 1 ++ offEntries edges (List.range edges.n)) s' := by
  induction k generalizing done s with
  | zero => exact ⟨s, done, rfl, h⟩
  | succ k ih =>
      have hlow := h.first_eq (by omega) (show k < k + 1 + 1 by omega)
      have hhigh := h.first_eq (by omega) (show k + 1 < k + 1 + 1 by omega)
      rw [List.range_succ, List.reverse_append, List.reverse_singleton, List.singleton_append,
        List.foldlM_cons, diagonalStep, hlow, hhigh]
      by_cases hpos : 0 < touches edges (k + 1)
      · rw [if_pos ((start_lt_succ_iff edges (k + 1)).mpr hpos)]
        rw [diagonal, if_pos hpos, List.singleton_append, List.cons_append] at h
        obtain ⟨s1, hput, h1⟩ := h.put hin
        obtain ⟨s2, done2, hrest, h2⟩ := ih (by omega) h1
        refine ⟨s2, done2, ?_, h2⟩
        rw [hput]
        exact hrest
      · rw [if_neg fun hlt => hpos ((start_lt_succ_iff edges (k + 1)).mp hlt)]
        rw [diagonal, if_neg hpos, List.nil_append] at h
        obtain ⟨s2, done2, hrest, h2⟩ := ih (by omega) h
        exact ⟨s2, done2, hrest, h2⟩

theorem addDiagonal_spec (hin : EndsWithin edges max)
    (h : Filling edges max [] (entries edges max) s) :
    ∃ s' done, addDiagonal s = .ok s' ∧
      Filling edges max done (offEntries edges (List.range edges.n)) s' := by
  have hmax := h.rows
  obtain ⟨s1, done1, hloop, h1⟩ := addDiagonal_loop hin le_rfl h
  have hfirst := h1.first_eq (by omega) (show 0 < 1 by omega)
  have hzero : start (rowSize edges) 0 < start (rowSize edges) (0 + 1) ↔ 0 < touches edges 0 :=
    start_lt_succ_iff edges 0
  rw [start_zero, ← hfirst] at hzero
  rw [addDiagonal, hmax, hloop]
  by_cases hpos : 0 < touches edges 0
  · rw [diagonal, if_pos hpos, diagonal, List.append_nil, List.singleton_append] at h1
    obtain ⟨s2, hput, h2⟩ := h1.put hin
    refine ⟨s2, _, ?_, h2⟩
    change (if 0 < s1.first 0 then s1.put 0 0 else .ok s1) = _
    rw [if_pos (hzero.mpr hpos)]
    exact hput
  · rw [diagonal, if_neg hpos, diagonal, List.nil_append, List.nil_append] at h1
    refine ⟨s1, _, ?_, h1⟩
    change (if 0 < s1.first 0 then s1.put 0 0 else .ok s1) = _
    rw [if_neg fun hlt => hpos (hzero.mp hlt)]

theorem addOffDiagonals_spec (hin : EndsWithin edges max)
    (h : Filling edges max done (offEntries edges (List.range edges.n)) s) :
    ∃ s', addOffDiagonals edges s = .ok s' ∧ Filling edges max (entries edges max) [] s' := by
  have hends : addOffDiagonals edges s =
      (offEntries edges (List.range edges.n)).foldlM (fun s entry => RefComprow.put s entry.1
        entry.2) s := by
    apply foldlM_offEntries
    intro e he s
    have h0 := hin e (List.mem_range.mp he) 0 (by omega)
    have h1 := hin e (List.mem_range.mp he) 1 (by omega)
    simp only [h.rows, place_ok h0, place_ok h1]
    rfl
  obtain ⟨s', hrun, h'⟩ := foldlM_exists
    (f := fun s (entry : Nat × Int) => RefComprow.put s entry.1 entry.2)
    (fun stored rest s => Filling edges max (done ++ stored) rest s)
    (fun stored entry rest s h => by
      obtain ⟨s', hput, h'⟩ := h.put hin
      rw [List.append_assoc] at h'
      exact ⟨s', hput, h'⟩)
    (by simpa using h)
  refine ⟨s', hends.trans hrun, ?_⟩
  have hsplit := h'.back.split
  rw [List.append_nil] at hsplit
  rwa [hsplit] at h'

/-- The rows after the last store. -/
theorem Filling.filled (hin : EndsWithin edges max)
    (h : Filling edges max (entries edges max) [] s) : Rows edges max s := by
  have hfirst : ∀ row, row ≤ max → s.first row = start (rowSize edges) row := by
    intro row hrow
    rw [(h.back.full (by omega)).1, start_entries edges (by omega)]
  refine ⟨h.rows, ?_, hfirst, fun row hrow => ?_⟩
  · rw [h.total, start_succ, rowSize, touches_eq_zero hin le_rfl]
    rfl
  · have hfull := (h.back.full (show row < max + 1 by omega)).2
    have hsize : s.first (row + 1) - s.first row =
        (group Prod.fst (entries edges max) row).length := by
      rw [hfirst (row + 1) (by omega), hfirst row (by omega), start_succ, entries,
        length_group_todo edges (by omega), Nat.add_sub_cancel_left]
    rw [RefComprow.row, hsize]
    exact hfull

/-- **`ref_comprow_create`** fills the rows, unless their number or the number
of entries leaves `REF_INT`. -/
theorem ofEdges_spec (hin : EndsWithin edges max) :
    (∃ s, ofEdges edges max = .ok s ∧ Rows edges max s) ∨
      ofEdges edges max = .error .undefined ∧
        (refIntMax < 1 + max ∨ refIntMax < 4 * edges.n) := by
  unfold ofEdges
  by_cases hmax : refIntMax < 1 + max
  · rw [if_pos hmax]
    exact Or.inr ⟨rfl, Or.inl hmax⟩
  rw [if_neg hmax]
  rcases countEnds_spec hin with ⟨first1, hrun1, h1⟩ | ⟨hrun1, hover⟩
  swap
  · simp only [hrun1, bind, Except.bind]
    exact Or.inr ⟨trivial, Or.inr hover⟩
  rcases countDiagonal_spec h1 fun row hrow => touches_eq_zero hin hrow with
    ⟨first2, hrun2, h2⟩ | ⟨hrun2, hover⟩
  swap
  · simp only [hrun1, hrun2, bind, Except.bind]
    exact Or.inr ⟨trivial, Or.inr hover⟩
  rcases cumulate_spec max h2 with ⟨first3, hrun3, h3⟩ | ⟨hrun3, hover⟩
  swap
  · simp only [hrun1, hrun2, hrun3, bind, Except.bind]
    exact Or.inr ⟨trivial, Or.inr hover⟩
  have hstart : Filling edges max [] (entries edges max)
      { max := max, nnz := first3 max, first := first3, col := fun _ => refEmpty } := by
    refine ⟨rfl, h3 max le_rfl, List.nil_append _, fun row hrow => ?_, fun row _ => ?_⟩
    swap
    · rfl
    rw [start_entries edges (by omega), entries, length_group_todo edges hrow, ← start_succ]
    exact h3 row (by omega)
  obtain ⟨s1, done, hrun4, h4⟩ := addDiagonal_spec hin hstart
  obtain ⟨s2, hrun5, h5⟩ := addOffDiagonals_spec hin h4
  refine Or.inl ⟨s2, ?_, h5.filled hin⟩
  simp only [hrun1, hrun2, hrun3, hrun4, bind, Except.bind]
  exact hrun5

end Fill

/-! ## What the rows hold -/

section Content

variable {edges : RefEdge} {max : Nat} {s : RefComprow}

/-- The entries of a row in a column are the edges between the two nodes, an
edge from a node to itself counted twice. -/
theorem count_offEntries (i : Nat) (j : Int) (l : List Nat)
    (hpos : ∀ e ∈ l, 0 ≤ edges.e2n e 0 ∧ 0 ≤ edges.e2n e 1) :
    ((group Prod.fst (offEntries edges l) i).map Prod.snd).count j =
      l.countP (fun e => edges.Joins e i j) * if j = i then 2 else 1 := by
  induction l with
  | nil => simp [offEntries, group]
  | cons e rest ih =>
      have hrest := ih fun e' he' => hpos e' (List.mem_cons_of_mem e he')
      obtain ⟨h0, h1⟩ := hpos e List.mem_cons_self
      have hsplit : group Prod.fst (offEntries edges (e :: rest)) i =
          group Prod.fst [((edges.e2n e 0).toNat, edges.e2n e 1),
            ((edges.e2n e 1).toNat, edges.e2n e 0)] i ++
            group Prod.fst (offEntries edges rest) i := List.filter_append _ _
      have hone : ((group Prod.fst [((edges.e2n e 0).toNat, edges.e2n e 1),
          ((edges.e2n e 1).toNat, edges.e2n e 0)] i).map Prod.snd).count j =
          (if edges.Joins e i j then 1 else 0) * if j = i then 2 else 1 := by
        have hrow0 : (edges.e2n e 0).toNat = i ↔ edges.e2n e 0 = i := by omega
        have hrow1 : (edges.e2n e 1).toNat = i ↔ edges.e2n e 1 = i := by omega
        unfold RefEdge.Joins group
        by_cases hi0 : edges.e2n e 0 = i <;> by_cases hi1 : edges.e2n e 1 = i <;>
          simp [hrow0, hrow1, hi0, hi1, List.count_cons] <;> grind
      rw [hsplit, List.map_append, List.count_append, hrest, hone, List.countP_cons, Nat.add_mul,
        Nat.add_comm]
      simp

/-- At most one edge joins two nodes. -/
theorem countP_joins (hs : edges.EdgeInv) (a b : Int) :
    (List.range edges.n).countP (fun e => edges.Joins e a b) =
      if ∃ e, e < edges.n ∧ edges.Joins e a b then 1 else 0 := by
  split
  · rename_i hex
    obtain ⟨e, he, hj⟩ := hex
    have hone : ∀ e' ∈ List.range edges.n,
        (decide (edges.Joins e' a b) = true ↔ (e' == e) = true) := by
      intro e' he'
      rw [decide_eq_true_iff, beq_iff_eq]
      constructor
      · exact fun hj' => hs.unique he (List.mem_range.mp he') hj hj'
      · exact fun heq => heq ▸ hj
    rw [List.countP_congr hone]
    exact List.count_eq_one_of_mem List.nodup_range (List.mem_range.mpr he)
  · rename_i hnone
    apply List.countP_eq_zero.mpr
    intro e he hj
    exact hnone ⟨e, List.mem_range.mp he, of_decide_eq_true hj⟩

theorem touches_pos_iff (hin : EndsWithin edges max) {i : Nat} :
    0 < touches edges i ↔ ∃ e, e < edges.n ∧ (edges.e2n e 0 = i ∨ edges.e2n e 1 = i) := by
  rw [touches, List.length_pos_iff_exists_mem]
  constructor
  · intro h
    obtain ⟨entry, hentry⟩ := h
    obtain ⟨hmem, hrow⟩ := List.mem_filter.mp hentry
    obtain ⟨e, he, hmem⟩ := List.mem_flatMap.mp hmem
    have he := List.mem_range.mp he
    have h0 := hin e he 0 (by omega)
    have h1 := hin e he 1 (by omega)
    have hrow := of_decide_eq_true hrow
    refine ⟨e, he, ?_⟩
    simp only [List.mem_cons, List.not_mem_nil, or_false] at hmem
    rcases hmem with rfl | rfl
    · exact Or.inl (by dsimp only at hrow; omega)
    · exact Or.inr (by dsimp only at hrow; omega)
  · intro h
    obtain ⟨e, he, hend⟩ := h
    rcases hend with hend | hend
    · refine ⟨(i, edges.e2n e 1), List.mem_filter.mpr ⟨?_, by simp⟩⟩
      exact List.mem_flatMap.mpr ⟨e, List.mem_range.mpr he, by simp [hend]⟩
    · refine ⟨(i, edges.e2n e 0), List.mem_filter.mpr ⟨?_, by simp⟩⟩
      exact List.mem_flatMap.mpr ⟨e, List.mem_range.mpr he, by simp [hend]⟩

/-- **The content of a row**: its own node when an edge has it, and the other
end of each of its edges. -/
theorem Rows.count (h : Rows edges max s) (hs : edges.EdgeInv) (hin : EndsWithin edges max)
    {i : Nat} (hi : i < max) (j : Int) :
    (s.row i).count j =
      (if j = i ∧ ∃ e, e < edges.n ∧ (edges.e2n e 0 = i ∨ edges.e2n e 1 = i) then 1 else 0) +
        if ∃ e, e < edges.n ∧ edges.Joins e i j then if j = i then 2 else 1 else 0 := by
  have hsplit : group Prod.fst (entries edges max) i =
      group Prod.fst (diagonal edges (max + 1)) i ++
        group Prod.fst (offEntries edges (List.range edges.n)) i := List.filter_append _ _
  have hpos : ∀ e ∈ List.range edges.n, 0 ≤ edges.e2n e 0 ∧ 0 ≤ edges.e2n e 1 := by
    intro e he
    exact ⟨(hin e (List.mem_range.mp he) 0 (by omega)).1,
      (hin e (List.mem_range.mp he) 1 (by omega)).1⟩
  rw [h.filled i hi, List.count_reverse, hsplit, List.map_append, List.count_append,
    count_offEntries i j _ hpos, countP_joins hs]
  congr 1
  · have htouch := touches_pos_iff hin (i := i)
    rw [group_diagonal]
    by_cases hend : ∃ e, e < edges.n ∧ (edges.e2n e 0 = i ∨ edges.e2n e 1 = i)
    · rw [if_pos ⟨by omega, htouch.mpr hend⟩]
      by_cases hj : j = i
      · rw [if_pos ⟨hj, hend⟩, hj]
        simp
      · rw [if_neg fun h => hj h.1]
        have hj' : ¬ (i : Int) = j := fun heq => hj heq.symm
        simp [hj']
    · rw [if_neg fun h => hend (htouch.mp h.2), if_neg fun h => hend h.2]
      rfl
  · split <;> simp

/-- **`ref_comprow_entry`** finds the columns of a row. -/
theorem entry_spec (s : RefComprow) {i j : Int} (hi : 0 ≤ i ∧ i < s.max)
    (hj : 0 ≤ j ∧ j < s.max) :
    (∃ e, s.entry i j = .ok e ∧ s.first i.toNat ≤ e ∧ e < s.first (i.toNat + 1) ∧ s.col e = j) ∨
      s.entry i j = .error .notFound ∧ j ∉ s.row i.toNat := by
  have hrange : ¬ (i < 0 ∨ s.max ≤ i ∨ j < 0 ∨ s.max ≤ j) := by omega
  simp only [entry, if_neg hrange]
  by_cases hempty : s.first (i.toNat + 1) = s.first i.toNat
  · rw [if_pos hempty]
    exact Or.inr ⟨rfl, by simp [row, hempty]⟩
  · rw [if_neg hempty]
    cases hfind : (List.range' (s.first i.toNat) (s.first (i.toNat + 1) - s.first i.toNat)).find?
        fun entry => j = s.col entry with
    | some e =>
        have hmem := List.mem_range'_1.mp (List.mem_of_find?_eq_some hfind)
        have hcol := List.find?_some hfind
        exact Or.inl ⟨e, rfl, hmem.1, by omega, (of_decide_eq_true hcol).symm⟩
    | none =>
        refine Or.inr ⟨rfl, fun hin => ?_⟩
        obtain ⟨e, he, hcol⟩ := List.mem_map.mp hin
        exact List.find?_eq_none.mp hfind e he (by simp [hcol])

end Content

end RefComprow

/-! ## The three tables of a grid -/

namespace RefGrid

/-- Two nodes are the ends of an edge of a 3D cell, a triangle or a
quadrilateral. -/
def Linked (g : RefGrid D) (a b : Int) : Prop :=
  (a, b) ∈ RefEdge.gridEdges g ∨ (b, a) ∈ RefEdge.gridEdges g

instance (g : RefGrid D) (a b : Int) : Decidable (g.Linked a b) :=
  inferInstanceAs (Decidable (_ ∨ _))

/-- The node is the end of an edge. -/
def HasEdge (g : RefGrid D) (a : Int) : Prop :=
  ∃ pair ∈ RefEdge.gridEdges g, pair.1 = a ∨ pair.2 = a

instance (g : RefGrid D) (a : Int) : Decidable (g.HasEdge a) :=
  inferInstanceAs (Decidable (∃ pair ∈ RefEdge.gridEdges g, pair.1 = a ∨ pair.2 = a))

end RefGrid

/-- The edge store of a grid: each edge once, found in both directions. -/
structure EdgeTable (g : RefGrid D) (s : RefEdge) : Prop where
  listed : ∀ e, e < s.n → g.Linked (s.e2n e 0) (s.e2n e 1)
  once : ∀ a b, g.Linked a b → ∃! e, e < s.n ∧ s.Joins e a b
  found : ∀ e, e < s.n → ∀ a b, s.Joins e a b → s.edgeWith a b = .ok e ∧ s.edgeWith b a = .ok e

/-- The face store of a grid: each node set of a triangle or a quadrilateral
once, found in any order of the nodes. -/
structure FaceTable (twod : Bool) (g : RefGrid D) (s : RefFace) : Prop where
  listed : ∀ f, f < s.n → s.f2n f ∈ RefFace.gridFaces twod g
  once : ∀ nodes ∈ RefFace.gridFaces twod g, RefFace.ThreeNodes nodes →
    ∃! f, f < s.n ∧ RefFace.SameNodes nodes (s.f2n f)
  found : ∀ f, f < s.n → RefFace.ThreeNodes (s.f2n f) → ∀ nodes,
    RefFace.SameNodes nodes (s.f2n f) → s.faceWith nodes = .ok f
  turned : ∀ f, f < s.n → RefFace.ThreeNodes (s.f2n f) → ∀ order : Nat → Nat,
    (∀ i, i < 4 → order i < 4) → (∀ i, i < 4 → ∃ j, j < 4 ∧ order j = i) →
    s.faceWith (fun i => s.f2n f (order i)) = .ok f

/-- The compressed rows of a grid: row `i` has each node next to `i` once, and
`i` itself once and twice more for an edge from `i` to `i`. -/
structure RowTable (g : RefGrid D) (s : RefComprow) : Prop where
  rows : s.max = g.node.max
  zero : s.first 0 = 0
  last : s.first s.max = s.nnz
  ascending : ∀ i j, i ≤ j → j ≤ s.max → s.first i ≤ s.first j
  count : ∀ i, i < s.max → ∀ j : Int, (s.row i).count j =
    (if j = i ∧ g.HasEdge i then 1 else 0) + if g.Linked i j then if j = i then 2 else 1 else 0
  found : ∀ i j : Int, 0 ≤ i ∧ i < s.max → 0 ≤ j ∧ j < s.max → g.Linked i j ∨ j = i ∧ g.HasEdge i →
    ∃ e, s.entry i j = .ok e ∧ s.first i.toNat ≤ e ∧ e < s.first (i.toNat + 1) ∧ s.col e = j
  absent : ∀ i j : Int, 0 ≤ i ∧ i < s.max → 0 ≤ j ∧ j < s.max →
    ¬ (g.Linked i j ∨ j = i ∧ g.HasEdge i) → s.entry i j = .error .notFound
  invalid : ∀ i j : Int, ¬ ((0 ≤ i ∧ i < s.max) ∧ 0 ≤ j ∧ j < s.max) →
    s.entry i j = .error .invalid

section Tables

variable {g : RefGrid D}

theorem RefEdge.Covers.linked_iff {s : RefEdge} (h : s.Covers (RefEdge.gridEdges g)) {a b : Int} :
    g.Linked a b ↔ ∃ e, e < s.n ∧ s.Joins e a b := h.exists_iff.symm

theorem RefEdge.Covers.hasEdge_iff {s : RefEdge} (h : s.Covers (RefEdge.gridEdges g)) {a : Int} :
    g.HasEdge a ↔ ∃ e, e < s.n ∧ (s.e2n e 0 = a ∨ s.e2n e 1 = a) := by
  constructor
  · intro hex
    obtain ⟨pair, hpair, hend⟩ := hex
    obtain ⟨e, he, hj⟩ := h.found pair hpair
    refine ⟨e, he, ?_⟩
    unfold RefEdge.Joins at hj
    omega
  · intro hex
    obtain ⟨e, he, hend⟩ := hex
    obtain ⟨pair, hpair, hj⟩ := h.joins e he
    refine ⟨pair, hpair, ?_⟩
    unfold RefEdge.Joins at hj
    omega

theorem RefEdge.Covers.edgeTable {s : RefEdge} (h : s.Covers (RefEdge.gridEdges g)) :
    EdgeTable g s := by
  refine ⟨fun e he => ?_, fun a b hlink => ?_, fun e he a b hj => ?_⟩
  · exact h.linked_iff.mpr ⟨e, he, Or.inl ⟨rfl, rfl⟩⟩
  · obtain ⟨e, he, hj⟩ := h.linked_iff.mp hlink
    exact ⟨e, ⟨he, hj⟩, fun e' he' => h.inv.unique he he'.1 hj he'.2⟩
  · exact ⟨RefEdge.edgeWith_of_joins h.inv he hj, RefEdge.edgeWith_of_joins h.inv he hj.symm⟩

theorem RefFace.Lists.faceTable {twod : Bool} {s : RefFace}
    (h : s.Lists (RefFace.gridFaces twod g)) : FaceTable twod g s := by
  refine ⟨h.listed, fun nodes hin h3 => h.once hin h3, fun f hf h3 nodes hsame => ?_,
    fun f hf h3 order hlt hsurj => ?_⟩
  · exact RefFace.faceWith_of_sameNodes h.inv hf hsame (hsame.symm.three h3)
  · have hsame := RefFace.SameNodes.comp (s.f2n f) hlt hsurj
    exact RefFace.faceWith_of_sameNodes h.inv hf hsame (hsame.symm.three h3)

/-- The edges of a grid join rows. -/
theorem RefEdge.EndsLive.within {s : RefEdge} (h : s.EndsLive g.node) :
    RefComprow.EndsWithin s g.node.max := by
  intro e he i hi
  obtain ⟨k, hk, hlive⟩ := h e he i hi
  have := hlive.1
  omega

theorem RefComprow.Rows.rowTable {edges : RefEdge} {s : RefComprow}
    (h : RefComprow.Rows edges g.node.max s) (hcov : edges.Covers (RefEdge.gridEdges g))
    (hends : edges.EndsLive g.node) : RowTable g s := by
  have hrows := h.rows
  have hcount : ∀ i, i < s.max → ∀ j : Int, (s.row i).count j =
      (if j = i ∧ g.HasEdge i then 1 else 0) +
        if g.Linked i j then if j = i then 2 else 1 else 0 := by
    intro i hi j
    rw [h.count hcov.inv hends.within (by omega) j]
    simp only [hcov.linked_iff, hcov.hasEdge_iff]
  have hmem : ∀ i, i < s.max → ∀ j : Int, j ∈ s.row i ↔ g.Linked i j ∨ j = i ∧ g.HasEdge i := by
    intro i hi j
    rw [← List.count_pos_iff, hcount i hi j]
    by_cases hlink : g.Linked i j
    · have hpos : 0 < if j = (i : Int) then 2 else 1 := by split <;> decide
      simp only [hlink, if_true, true_or, iff_true]
      exact Nat.add_pos_right _ hpos
    · simp only [hlink, if_false, false_or, Nat.add_zero]
      split
      · rename_i hself
        simp [hself]
      · rename_i hself
        simp [hself]
  have hstart : ∀ i, i ≤ s.max → s.first i = Segments.start (RefComprow.rowSize edges) i := by
    intro i hi
    exact h.starts i (by omega)
  have hcast : ∀ i : Int, 0 ≤ i → ((i.toNat : Nat) : Int) = i := fun i hi => Int.toNat_of_nonneg hi
  refine ⟨hrows, ?_, ?_, ?_, hcount, ?_, ?_, ?_⟩
  · rw [hstart 0 (Nat.zero_le _), Segments.start_zero]
  · rw [hstart s.max le_rfl, h.total, hrows]
  · intro i j hij hj
    rw [hstart i (by omega), hstart j hj]
    exact Segments.start_le hij
  · intro i j hi hj hin
    rcases s.entry_spec hi hj with hfound | ⟨_, hnot⟩
    · exact hfound
    · rw [hmem i.toNat (by omega), hcast i hi.1] at hnot
      exact absurd hin hnot
  · intro i j hi hj hout
    rcases s.entry_spec hi hj with ⟨e, _, hge, hlt, hcol⟩ | ⟨hrun, _⟩
    · have hin : j ∈ s.row i.toNat :=
        List.mem_map.mpr ⟨e, List.mem_range'_1.mpr ⟨hge, by omega⟩, hcol⟩
      rw [hmem i.toNat (by omega), hcast i hi.1] at hin
      exact absurd hin hout
    · exact hrun
  · intro i j hout
    rw [RefComprow.entry, if_pos (by omega)]

/-- The nodes of the edges and faces are far from the limit of `REF_INT`. -/
theorem nodes_range (hcells : g.CellsInv) (hlimit : g.node.max + 100 ≤ refIntMax)
    (hrefs : ∀ t c, (g.cell t).Live c → ∀ v ∈ (g.cell t).nodeList c, g.node.Live v.toNat)
    {t : CellType} {c : Nat} (hc : (g.cell t).Live c) {v : Int} (hv : v ∈ (g.cell t).nodeList c) :
    0 ≤ v ∧ v + 100 ≤ refIntMax := by
  have hpos := (hcells.inv t).nonneg c hc v hv
  have hlt := (hrefs t c hc v hv).1
  omega

/-- **The edge, face and compressed row tables** of a grid are exact, and they
are built when their lengths are within `REF_INT`. -/
theorem tables_exact (hcells : g.CellsInv)
    (hrefs : ∀ t c, (g.cell t).Live c → ∀ v ∈ (g.cell t).nodeList c, g.node.Live v.toNat) :
    (∀ mem s, RefEdge.create mem g = .ok s → EdgeTable g s) ∧
      (∀ mem twod s, RefFace.create mem twod g = .ok s → FaceTable twod g s) ∧
      (∀ mem s, RefComprow.create mem g = .ok s → RowTable g s) ∧
      (g.node.max + 100 ≤ refIntMax → 16 * g.node.n ≤ refIntMax →
        15 * (RefEdge.gridEdges g).length ≤ refIntMax →
        (∀ mem, ∃ s, RefEdge.create mem g = .ok s) ∧ ∀ mem, ∃ s, RefComprow.create mem g = .ok s) ∧
      ∀ twod, g.node.max + 100 ≤ refIntMax →
        11 * (RefFace.gridFaces twod g).length ≤ refIntMax →
        ∀ mem, ∃ s, RefFace.create mem twod g = .ok s := by
  refine ⟨fun mem s hrun => ?_, fun mem twod s hrun => ?_, fun mem s hrun => ?_,
    fun hlimit hnodes hedges => ?_, fun twod hlimit hfaces mem => ?_⟩
  · exact (RefEdge.create_covers hrun).edgeTable
  · exact (RefFace.create_lists (fun nodes hin i hi =>
      RefFace.gridFaces_nonneg hcells hin hi) hrun).faceTable
  · rw [RefComprow.create, bind_eq_ok] at hrun
    obtain ⟨edges, hedges, hrun⟩ := hrun
    have hcov := RefEdge.create_covers hedges
    have hends := hcov.endsLive hcells hrefs
    rcases RefComprow.ofEdges_spec hends.within with ⟨s', hrun', hrows⟩ | ⟨herror, _⟩
    · rw [hrun, Except.ok.injEq] at hrun'
      exact (hrun' ▸ hrows).rowTable hcov hends
    · rw [hrun] at herror
      cases herror
  · have hpairs : ∀ pair ∈ RefEdge.gridEdges g, (0 ≤ pair.1 ∧ pair.1 + 100 ≤ refIntMax) ∧
        0 ≤ pair.2 ∧ pair.2 + 100 ≤ refIntMax := by
      intro pair hpair
      obtain ⟨t, _, c, hc, e, he, h1, h2⟩ := exists_cell_of_gridEdges hcells hpair
      obtain ⟨hlt1, hlt2, _⟩ := t.e2n_lt e he
      have hin : ∀ i, i < t.nodePer → (g.cell t).c2n c i ∈ (g.cell t).nodeList c := by
        intro i hi
        refine RefCell.c2n_mem_nodeList _ c ?_
        rw [RefCell.nodePer, hcells.type]
        exact hi
      exact ⟨h1 ▸ nodes_range hcells hlimit hrefs hc (hin e.1 hlt1),
        h2 ▸ nodes_range hcells hlimit hrefs hc (hin e.2 hlt2)⟩
    refine ⟨fun mem => ?_, fun mem => ?_⟩
    · obtain ⟨s, hrun, _⟩ := RefEdge.create_ok mem hnodes hedges hpairs
      exact ⟨s, hrun⟩
    · obtain ⟨edges, hrun, hle⟩ := RefEdge.create_ok mem hnodes hedges hpairs
      have hends := (RefEdge.create_covers hrun).endsLive hcells hrefs
      rcases RefComprow.ofEdges_spec hends.within with ⟨s, hrun', _⟩ | ⟨_, hover⟩
      · refine ⟨s, ?_⟩
        rw [RefComprow.create, bind_eq_ok]
        exact ⟨edges, hrun, hrun'⟩
      · omega
  · apply RefFace.create_ok mem hfaces
    intro nodes hin i hi
    obtain ⟨t, c, hc, hv⟩ := RefFace.exists_cell_of_gridFaces hin hi
    exact nodes_range hcells hlimit hrefs hc hv

end Tables

/-- A tetrahedron with one of its triangles. -/
def tetAndTriRows : CellType → List (List Int)
  | .tet => [[0, 1, 2, 3]]
  | .tri => [[0, 2, 1, 5]]
  | _ => []

/-- That tetrahedron on four nodes. -/
def tetAndTri : RefGrid Int := RefGrid.ofRows fourNodes noGeom tetAndTriRows

/-- A face store without any. -/
def noFaces : RefFace := { n := 0, max := 0, f2n := fun _ _ => 0, adj := noGeom.adj }

theorem tables_exact_tetrahedron :
    (∃ s, RefEdge.create noEdges tetAndTri = .ok s ∧ EdgeTable tetAndTri s) ∧
      (∃ s, RefFace.create noFaces false tetAndTri = .ok s ∧ FaceTable false tetAndTri s) ∧
      ∃ s, RefComprow.create noEdges tetAndTri = .ok s ∧ RowTable tetAndTri s := by
  have hfit : ∀ t, RefCell.RowsFit t (tetAndTriRows t) := by
    intro t
    cases t <;> decide
  have hnodes : ∀ t : CellType, ∀ row ∈ tetAndTriRows t,
      ∀ v ∈ row.take t.nodePer, fourNodes.Live v.toNat := by
    intro t
    cases t <;> decide
  obtain ⟨hedge, hface, hrow, hsize, hfaces⟩ := tables_exact (g := tetAndTri)
    (RefGrid.ofRows_inv hfit) fun t _ hc =>
      RefGrid.nodeList_ofRows (hfit t) (fun l => ∀ v ∈ l, fourNodes.Live v.toNat) (hnodes t) hc
  obtain ⟨hedges, hrows⟩ := hsize (by decide) (by decide) (by decide +kernel)
  obtain ⟨s, hs⟩ := hedges noEdges
  obtain ⟨s', hs'⟩ := hfaces false (by decide) (by decide +kernel) noFaces
  obtain ⟨s'', hs''⟩ := hrows noEdges
  exact ⟨⟨s, hs, hedge _ s hs⟩, ⟨s', hs', hface _ _ s' hs'⟩, s'', hs'', hrow _ s'' hs''⟩

/-- The triangle has an edge from node 0 to itself, which puts node 0 into its
own row twice more. -/
theorem comprow_self_edge :
    (trisOnFour [[0, 0, 1, 5]]).CellsInv ∧ fourNodes.Live 0 ∧ fourNodes.Live 1 ∧
      ∃ s, RefComprow.create noEdges (trisOnFour [[0, 0, 1, 5]]) = .ok s ∧
        (s.row 0).count 0 = 3 := by
  have hfit : ∀ t, RefCell.RowsFit t (if t = .tri then [[0, 0, 1, 5]] else []) := by
    intro t
    cases t <;> decide
  refine ⟨RefGrid.ofRows_inv hfit, by decide, by decide, ?_⟩
  have hcount : (RefComprow.create noEdges (trisOnFour [[0, 0, 1, 5]])).toOption.map
      (fun s => (s.row 0).count 0) = some 3 := by decide +kernel
  cases hrun : RefComprow.create noEdges (trisOnFour [[0, 0, 1, 5]]) with
  | error status =>
      rw [hrun] at hcount
      cases hcount
  | ok s =>
      rw [hrun] at hcount
      exact ⟨s, rfl, Option.some.inj hcount⟩

end RefineMesh
