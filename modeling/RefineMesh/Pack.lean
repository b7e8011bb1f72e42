import Mathlib.Tactic
import Mathlib.Data.List.GetD
import RefineMesh.NodeRuns
import RefineMesh.CellRuns

/-!
# Packing

`ref_node_compact` and `ref_node_stable_compact` number the valid slots;
`ref_node_pack` and `ref_cell_pack` move the nodes and the cells to the new
numbers.  Both numberings come from one loop, run over the owned and then the
ghost slots or over all of them in slot order, so they are described by the
list of slots in their new order.
-/

namespace RefineMesh

open SlotList

namespace RefNode

variable {D : Type}

/-- `o2n[node] = nnode; nnode++;` over a list of slots. -/
def numberNodes (nodes : List Nat) (acc : Nat × (Nat → Int)) : Nat × (Nat → Int) :=
  nodes.foldl (fun acc node => (acc.1 + 1, Function.update acc.2 node (acc.1 : Int))) acc

/-- `n2o[o2n[node]] = node;` over the valid slots. -/
def invertNumbers (s : RefNode D) (o2n : Nat → Int) (n2o : Nat → Nat) : Nat → Nat :=
  s.validNodes.foldl (fun n2o node => Function.update n2o (o2n node).toNat node) n2o

/-- `ref_node_stable_compact`; `mem` is the memory of `n2o`. -/
def stableCompact (s : RefNode D) (mem : Nat → Nat) :
    Except Status ((Nat → Int) × (Nat → Nat)) :=
  let numbered := numberNodes s.validNodes (0, fun _ => refEmpty)
  if numbered.1 ≠ s.n then .error .failure
  else .ok (numbered.2, s.invertNumbers numbered.2 mem)

/-- `ref_node_compact`: the owned slots first. -/
def compact (s : RefNode D) (mem : Nat → Nat) : Except Status ((Nat → Int) × (Nat → Nat)) :=
  let owned := numberNodes (s.validNodes.filter (fun k => s.Owned k)) (0, fun _ => refEmpty)
  let numbered := numberNodes (s.validNodes.filter (fun k => ¬ s.Owned k)) owned
  if numbered.1 ≠ s.n then .error .failure
  else .ok (numbered.2, s.invertNumbers numbered.2 mem)

/-- `ref_node_deep_copy`: every array is copied, so the copy is the store.  The
lengths of the two tables are computed in `REF_INT`. -/
def deepCopy (s : RefNode D) : Except Status (RefNode D) :=
  if refIntMax < refNodeRealPer * s.max then .error .undefined
  else if refIntMax < s.naux * s.max then .error .undefined
  else .ok s

/-- `ref_node_pack`. -/
def pack (s : RefNode D) (o2n : Nat → Int) (n2o : Nat → Nat) : Except Status (RefNode D) := do
  let copy ← s.deepCopy
  let global := fun node => if node < s.n then copy.global (n2o node) else s.global node
  .ok { s with
    global := if s.n < s.max then linkFresh index2next refEmpty s.n s.max global else global
    blank := if s.n < s.max then index2next s.n else refEmpty
    sortedLocal := fun node =>
      if node < s.n then (o2n (copy.sortedLocal node)).toNat else s.sortedLocal node
    part := fun node => if node < s.n then copy.part (n2o node) else s.part node
    age := fun node => if node < s.n then copy.age (n2o node) else s.age node
    real := fun node =>
      if node < s.n then
        fun i => if i < refNodeRealPer then copy.real (n2o node) i else s.real node i
      else s.real node
    aux := fun node =>
      if node < s.n then fun i => if i < s.naux then copy.aux (n2o node) i else s.aux node i
      else s.aux node }

/-! ## Numberings -/

/-- `o2n` and `n2o` are inverse bijections between the valid slots and the
first `n` numbers. -/
structure Numbering (s : RefNode D) (o2n : Nat → Int) (n2o : Nat → Nat) : Prop where
  range : ∀ k, s.Live k → 0 ≤ o2n k ∧ o2n k < s.n
  invalid : ∀ k, ¬ s.Live k → o2n k = refEmpty
  live : ∀ i, i < s.n → s.Live (n2o i)
  left : ∀ k, s.Live k → n2o (o2n k).toNat = k
  right : ∀ i, i < s.n → o2n (n2o i) = i

theorem numberNodes_spec :
    ∀ (nodes : List Nat) (acc : Nat × (Nat → Int)), nodes.Nodup →
      (numberNodes nodes acc).1 = acc.1 + nodes.length ∧
        ∀ k, (numberNodes nodes acc).2 k =
          if k ∈ nodes then ((acc.1 + nodes.idxOf k : Nat) : Int) else acc.2 k := by
  intro nodes
  induction nodes with
  | nil =>
      intro acc _
      exact ⟨rfl, fun k => by simp [numberNodes]⟩
  | cons node rest ih =>
      intro acc hnodup
      have hnd := List.nodup_cons.mp hnodup
      obtain ⟨hcount, hval⟩ := ih (acc.1 + 1, Function.update acc.2 node (acc.1 : Int)) hnd.2
      refine ⟨?_, fun k => ?_⟩
      · change (numberNodes rest _).1 = _
        rw [hcount, List.length_cons]
        omega
      · change (numberNodes rest _).2 k = _
        rw [hval k]
        by_cases hk : k = node
        · subst hk
          simp [hnd.1]
        · by_cases hmem : k ∈ rest
          · have hidx : (node :: rest).idxOf k = rest.idxOf k + 1 :=
              List.idxOf_cons_ne _ fun e => hk e.symm
            rw [if_pos hmem, if_pos (List.mem_cons_of_mem _ hmem), hidx]
            dsimp only
            congr 1
            omega
          · rw [if_neg hmem, if_neg (by simp [hk, hmem])]
            exact Function.update_of_ne hk _ _

/-- Writing through an injective map of the valid slots. -/
theorem invertNumbers_spec (s : RefNode D) (o2n : Nat → Int) (mem : Nat → Nat)
    (hinj : ∀ j k, s.Live j → s.Live k → (o2n j).toNat = (o2n k).toNat → j = k) {k : Nat}
    (hk : s.Live k) : s.invertNumbers o2n mem (o2n k).toNat = k := by
  have hrule := ArrayLoop.foldl_inv
    (P := fun done rest (n2o : Nat → Nat) => (∀ j ∈ done ++ rest, s.Live j) ∧
      ∀ j ∈ done, n2o (o2n j).toNat = j)
    (f := fun n2o node => Function.update n2o (o2n node).toNat node)
    (l := s.validNodes) (b := mem)
    (fun done node rest n2o hP => ?_) ⟨fun j hj => mem_validNodes.mp (by simpa using hj), by simp⟩
  · exact hrule.2 k (mem_validNodes.mpr hk)
  · obtain ⟨hlive, hdone⟩ := hP
    refine ⟨by simpa using hlive, fun j hj => ?_⟩
    by_cases hjn : j = node
    · subst hjn
      exact Function.update_self _ _ _
    · have hjd : j ∈ done := by simpa [hjn] using hj
      have hne : (o2n j).toNat ≠ (o2n node).toNat := fun e =>
        hjn (hinj j node (hlive j (by simp [hjd])) (hlive node (by simp)) e)
      rw [Function.update_of_ne hne]
      exact hdone j hjd

/-- A list of the valid slots in their new order gives a numbering. -/
theorem numbering_of_order {s : RefNode D} (h : s.SlotInv) {order : List Nat}
    (hnodup : order.Nodup) (hmem : ∀ k, k ∈ order ↔ s.Live k) {o2n : Nat → Int}
    (ho2n : ∀ k, o2n k = if k ∈ order then ((order.idxOf k : Nat) : Int) else refEmpty)
    (mem : Nat → Nat) : Numbering s o2n (s.invertNumbers o2n mem) := by
  have hlen : order.length = s.n := by
    rw [← h.length_validNodes]
    apply List.Perm.length_eq
    rw [List.perm_ext_iff_of_nodup hnodup (nodup_validNodes s)]
    intro k
    rw [hmem k, mem_validNodes]
  have hval : ∀ k, s.Live k → o2n k = (order.idxOf k : Nat) := by
    intro k hk
    rw [ho2n k, if_pos ((hmem k).mpr hk)]
  have hidx : ∀ k, s.Live k → order.idxOf k < s.n := by
    intro k hk
    rw [← hlen]
    exact List.idxOf_lt_length_of_mem ((hmem k).mpr hk)
  have hinj : ∀ j k, s.Live j → s.Live k → (o2n j).toNat = (o2n k).toNat → j = k := by
    intro j k hj hk hjk
    rw [hval j hj, hval k hk, Int.toNat_natCast, Int.toNat_natCast] at hjk
    exact (List.idxOf_inj ((hmem j).mpr hj)).mp hjk
  have hleft : ∀ k, s.Live k → s.invertNumbers o2n mem (o2n k).toNat = k :=
    fun k hk => invertNumbers_spec s o2n mem hinj hk
  -- every number below `n` is the number of the slot at that place of the order
  have hsurj : ∀ i, i < s.n → ∃ k, s.Live k ∧ o2n k = i := by
    intro i hi
    have hi' : i < order.length := by omega
    have hk : s.Live order[i] := (hmem _).mp (List.getElem_mem hi')
    exact ⟨order[i], hk, by rw [hval _ hk, hnodup.idxOf_getElem i hi']⟩
  refine ⟨fun k hk => ?_, fun k hk => ?_, fun i hi => ?_, hleft, fun i hi => ?_⟩
  · have := hidx k hk
    rw [hval k hk]
    omega
  · rw [ho2n k, if_neg fun hin => hk ((hmem k).mp hin)]
  · obtain ⟨k, hk, hki⟩ := hsurj i hi
    have := hleft k hk
    rw [hki, Int.toNat_natCast] at this
    rw [this]
    exact hk
  · obtain ⟨k, hk, hki⟩ := hsurj i hi
    have := hleft k hk
    rw [hki, Int.toNat_natCast] at this
    rw [this, hki]

/-- **`ref_node_stable_compact`** numbers the valid slots in slot order. -/
theorem stableCompact_spec {s : RefNode D} (h : s.SlotInv) (mem : Nat → Nat) :
    ∃ o2n n2o, s.stableCompact mem = .ok (o2n, n2o) ∧ Numbering s o2n n2o ∧
      ∀ i j, s.Live i → s.Live j → i < j → o2n i < o2n j := by
  obtain ⟨hcount, hval⟩ := numberNodes_spec s.validNodes (0, fun _ => refEmpty)
    (nodup_validNodes s)
  rw [h.length_validNodes] at hcount
  simp only [Nat.zero_add] at hcount hval
  refine ⟨_, _, by simp [stableCompact, hcount], numbering_of_order h (nodup_validNodes s)
    (fun k => mem_validNodes) hval mem, fun i j hi hj hij => ?_⟩
  have hi' := mem_validNodes.mpr hi
  have hj' := mem_validNodes.mpr hj
  rw [hval i, hval j, if_pos hi', if_pos hj']
  have hsorted : s.validNodes.Pairwise (· < ·) := List.Pairwise.filter _ List.pairwise_lt_range
  by_contra hle
  have hle' : s.validNodes.idxOf j ≤ s.validNodes.idxOf i := by omega
  rcases Nat.lt_or_eq_of_le hle' with hlt | heq
  · have hgt := List.pairwise_iff_getElem.mp hsorted _ _ (List.idxOf_lt_length_of_mem hj')
      (List.idxOf_lt_length_of_mem hi') hlt
    rw [List.getElem_idxOf, List.getElem_idxOf] at hgt
    omega
  · have := (List.idxOf_inj hj').mp heq
    omega

/-- **`ref_node_compact`** numbers the owned slots before the ghosts. -/
theorem compact_spec {s : RefNode D} (h : s.SlotInv) (mem : Nat → Nat) :
    ∃ o2n n2o, s.compact mem = .ok (o2n, n2o) ∧ Numbering s o2n n2o ∧
      ∀ i j, s.Live i → s.Live j → s.Owned i → ¬ s.Owned j → o2n i < o2n j := by
  set owned := s.validNodes.filter (fun k => s.Owned k) with howned
  set ghosts := s.validNodes.filter (fun k => ¬ s.Owned k) with hghosts
  have hmemo : ∀ k, k ∈ owned ↔ s.Live k ∧ s.Owned k := by
    intro k
    simp [howned, mem_validNodes]
  have hmemg : ∀ k, k ∈ ghosts ↔ s.Live k ∧ ¬ s.Owned k := by
    intro k
    simp [hghosts, mem_validNodes]
  have hndo : owned.Nodup := (nodup_validNodes s).filter _
  have hndg : ghosts.Nodup := (nodup_validNodes s).filter _
  have hdisj : owned.Disjoint ghosts := by
    intro k hk hk'
    exact ((hmemg k).mp hk').2 ((hmemo k).mp hk).2
  have hnodup : (owned ++ ghosts).Nodup := hndo.append hndg hdisj
  have hmem : ∀ k, k ∈ owned ++ ghosts ↔ s.Live k := by
    intro k
    rw [List.mem_append, hmemo k, hmemg k]
    tauto
  obtain ⟨hcount1, hval1⟩ := numberNodes_spec owned (0, fun _ => refEmpty) hndo
  obtain ⟨hcount2, hval2⟩ := numberNodes_spec ghosts
    (numberNodes owned (0, fun _ => refEmpty)) hndg
  have hlen : (owned ++ ghosts).length = s.n := by
    rw [← h.length_validNodes]
    apply List.Perm.length_eq
    rw [List.perm_ext_iff_of_nodup hnodup (nodup_validNodes s)]
    intro k
    rw [hmem k, mem_validNodes]
  have hcount : (numberNodes ghosts (numberNodes owned (0, fun _ => refEmpty))).1 = s.n := by
    rw [hcount2, hcount1, ← hlen, List.length_append]
    omega
  have hval : ∀ k, (numberNodes ghosts (numberNodes owned (0, fun _ => refEmpty))).2 k =
      if k ∈ owned ++ ghosts then (((owned ++ ghosts).idxOf k : Nat) : Int) else refEmpty := by
    intro k
    rw [hval2 k, hcount1, hval1 k]
    by_cases hg : k ∈ ghosts
    · have hno : k ∉ owned := fun ho => hdisj ho hg
      rw [if_pos hg, if_pos (List.mem_append_right _ hg), List.idxOf_append_of_notMem hno]
      simp
    · by_cases ho : k ∈ owned
      · rw [if_neg hg, if_pos ho, if_pos (List.mem_append_left _ ho),
          List.idxOf_append_of_mem ho]
        simp
      · rw [if_neg hg, if_neg ho, if_neg (by simp [hg, ho])]
  have hrun : s.compact mem =
      .ok ((numberNodes ghosts (numberNodes owned (0, fun _ => refEmpty))).2, _) :=
    if_neg (not_not.mpr hcount)
  refine ⟨_, _, hrun, numbering_of_order h hnodup hmem hval mem, fun i j hi hj hoi hoj => ?_⟩
  have hi' : i ∈ owned := (hmemo i).mpr ⟨hi, hoi⟩
  have hj' : j ∈ ghosts := (hmemg j).mpr ⟨hj, hoj⟩
  have hjo : j ∉ owned := fun ho => hoj ((hmemo j).mp ho).2
  rw [hval i, hval j, if_pos ((hmem i).mpr hi), if_pos ((hmem j).mpr hj),
    List.idxOf_append_of_mem hi', List.idxOf_append_of_notMem hjo]
  have := List.idxOf_lt_length_of_mem hi'
  omega

/-! ## Moving the nodes -/

/-- The new slot of every node holds what its old slot held. -/
structure Moved (s s' : RefNode D) (o2n : Nat → Int) : Prop where
  n : s'.n = s.n
  max : s'.max = s.max
  naux : s'.naux = s.naux
  live : ∀ i, s'.Live i ↔ i < s.n
  global : ∀ k, s.Live k → s'.global (o2n k).toNat = s.global k
  part : ∀ k, s.Live k → s'.part (o2n k).toNat = s.part k
  age : ∀ k, s.Live k → s'.age (o2n k).toNat = s.age k
  real : ∀ k, s.Live k → ∀ i, i < refNodeRealPer → s'.real (o2n k).toNat i = s.real k i
  aux : ∀ k, s.Live k → ∀ i, i < s.naux → s'.aux (o2n k).toNat i = s.aux k i
  allocator : SameAllocator s s'

/-- **`ref_node_pack`** moves every node to its number and keeps the invariant
of the store. -/
theorem pack_spec {s : RefNode D} {o2n : Nat → Int} {n2o : Nat → Nat} (h : s.Inv)
    (hnum : Numbering s o2n n2o) (hreal : refNodeRealPer * s.max ≤ refIntMax)
    (haux : s.naux * s.max ≤ refIntMax) :
    ∃ s', s.pack o2n n2o = .ok s' ∧ s'.Inv ∧ Moved s s' o2n := by
  have hcopy : s.deepCopy = .ok s := by
    rw [deepCopy, if_neg (not_lt.mpr hreal), if_neg (not_lt.mpr haux)]
  obtain ⟨s', hrun⟩ : ∃ s', s.pack o2n n2o = .ok s' := ⟨_, bind_eq_ok.mpr ⟨s, hcopy, rfl⟩⟩
  refine ⟨s', hrun, ?_⟩
  simp only [pack, bind_eq_ok, hcopy, Except.ok.injEq, exists_eq_left'] at hrun
  have hnmax : s.n ≤ s.max := by
    rw [← h.count, liveCount]
    simpa using Finset.card_filter_le (Finset.range s.max) s.Live
  have hlow : ∀ i, i < s.n → s'.global i = s.global (n2o i) := by
    intro i hi
    rw [← hrun]
    dsimp only
    split
    · rename_i hlt
      rw [linkFresh_old hlt hi, if_pos hi]
    · exact if_pos hi
  have hhigh : ∀ i, s.n ≤ i → i < s.max → s'.global i < 0 := by
    intro i hi hi'
    rw [← hrun]
    dsimp only
    rw [if_pos (by omega)]
    exact linkFresh_neg hi hi'
  have hmax : s'.max = s.max := by rw [← hrun]
  have hn : s'.n = s.n := by rw [← hrun]
  have hsg : s'.sortedGlobal = s.sortedGlobal := by rw [← hrun]
  have hsl : ∀ i, i < s.n → s'.sortedLocal i = (o2n (s.sortedLocal i)).toNat := by
    intro i hi
    rw [← hrun]
    exact if_pos hi
  have hlive : ∀ i, s'.Live i ↔ i < s.n := by
    intro i
    unfold Live
    rw [hmax]
    by_cases hi : i < s.n
    · rw [hlow i hi]
      simp only [hi, iff_true]
      exact ⟨by omega, (hnum.live i hi).2⟩
    · simp only [hi, iff_false, not_and, not_le]
      exact fun hi' => hhigh i (by omega) hi'
  -- the number of a valid slot is a new slot, and the old slot is read there
  have hplace : ∀ k, s.Live k → (o2n k).toNat < s.n ∧ n2o (o2n k).toNat = k := by
    intro k hk
    have := hnum.range k hk
    exact ⟨by omega, hnum.left k hk⟩
  have hglobal : ∀ k, s.Live k → s'.global (o2n k).toNat = s.global k := by
    intro k hk
    rw [hlow _ (hplace k hk).1, (hplace k hk).2]
  refine ⟨⟨⟨?_, ?_, ?_, by rw [hmax]; exact h.fits⟩, ?_, ?_, ?_⟩, ⟨hn, hmax, by rw [← hrun], hlive,
    hglobal, ?_, ?_, ?_, ?_, ?_⟩⟩
  · by_cases hfull : s.n < s.max
    · have hb : s'.blank = index2next s.n := by
        rw [← hrun]
        exact if_pos hfull
      rw [hb]
      refine (freeList_linkFresh index2next refEmpty
        (fun node => if node < s.n then s.global (n2o node) else s.global node) hfull).congr
        (fun k => ?_) (fun k _ => by rw [← hrun]; simp only [if_pos hfull])
      have hk := hlive k
      unfold Live at hk
      rw [hmax] at hk ⊢
      constructor
      · intro hdead
        exact ⟨by by_contra hlt; exact hdead.2 (hk.mpr (by omega)).2, hdead.1⟩
      · intro hdead
        exact ⟨hdead.2, fun hpos => absurd (hk.mp ⟨hdead.2, hpos⟩) (by omega)⟩
    · have hb : s'.blank = refEmpty := by
        rw [← hrun]
        exact if_neg hfull
      refine ⟨[], hb, List.nodup_nil, fun k => ?_⟩
      simp only [List.not_mem_nil, false_iff, not_and, not_not]
      intro hk
      exact ((hlive k).mpr (by omega)).2
  · rw [hn, hmax]
    have hset : (Finset.range s.max).filter s'.Live = Finset.range s.n := by
      ext k
      simp only [Finset.mem_filter, Finset.mem_range, hlive k]
      omega
    rw [liveCount, hset, Finset.card_range]
  · intro i j hi hj hij
    have hi' := (hlive i).mp hi
    have hj' := (hlive j).mp hj
    rw [hlow i hi', hlow j hj'] at hij
    have heq := h.distinct _ _ (hnum.live i hi') (hnum.live j hj') hij
    have hcast : (i : Int) = j := by rw [← hnum.right i hi', ← hnum.right j hj', heq]
    exact_mod_cast hcast
  · rw [hn, hsg]
    exact h.ascending
  · intro i hi
    rw [hn] at hi
    have hal := h.aligned i hi
    rw [hsl i hi, hsg, hglobal _ hal.1]
    exact ⟨(hlive _).mpr (hplace _ hal.1).1, hal.2⟩
  · intro k hk
    have hk' := (hlive k).mp hk
    obtain ⟨i, hi, hik⟩ := h.covers (n2o k) (hnum.live k hk')
    refine ⟨i, by rw [hn]; exact hi, ?_⟩
    rw [hsl i hi, hik, hnum.right k hk', Int.toNat_natCast]
  · intro k hk
    rw [← hrun]
    dsimp only
    rw [if_pos (hplace k hk).1, (hplace k hk).2]
  · intro k hk
    rw [← hrun]
    dsimp only
    rw [if_pos (hplace k hk).1, (hplace k hk).2]
  · intro k hk i hi
    rw [← hrun]
    dsimp only
    rw [if_pos (hplace k hk).1, if_pos hi, (hplace k hk).2]
  · intro k hk i hi
    rw [← hrun]
    dsimp only
    rw [if_pos (hplace k hk).1, if_pos hi, (hplace k hk).2]
  · rw [← hrun]
    exact ⟨rfl, rfl, rfl, rfl, rfl⟩

end RefNode

namespace RefCell

/-- The row that `ref_cell_pack` writes for a cell: the nodes through `o2n`,
the id as it is. -/
def packedRow (t : CellType) (o2n : Nat → Int) (row old : Nat → Int) : Nat → Int :=
  fun node =>
    if node < t.nodePer then o2n (row node).toNat
    else if t.lastNodeIsAnId ∧ node = t.nodePer then row node
    else old node

/-- One pass of the loop that moves the valid cells to the front. -/
def packStep (t : CellType) (o2n : Nat → Int) (acc : Nat × (Nat → Nat → Int)) (cell : Nat) :
    Nat × (Nat → Nat → Int) :=
  if acc.2 cell 0 = refEmpty then acc
  else (acc.1 + 1, Function.update acc.2 acc.1 (packedRow t o2n (acc.2 cell) (acc.2 acc.1)))

/-- The smallest node of a row. -/
def smallestNode (nodePer : Nat) (row : Nat → Int) : Int :=
  (List.range' 1 (nodePer - 1)).foldl (fun key node => if row node < key then row node else key)
    (row 0)

/-- The rows behind the packed cells become the blank list, when there are
any. -/
def blankRest (s : RefCell) (c2n : Nat → Nat → Int) : Nat → Nat → Int :=
  if s.n < s.max then linkRows s.n s.max c2n else c2n

/-- The cells in the order of their smallest nodes; `keyMem` is the memory of
the sort key. -/
def sortRows (s : RefCell) (c2n : Nat → Nat → Int) (keyMem : Nat → Int) : Nat → Nat → Int :=
  let key := fun cell =>
    if c2n cell 0 ≠ refEmpty then smallestNode s.nodePer (c2n cell) else keyMem cell
  let order := sortHeap s.n key (fun _ => 0)
  fun cell =>
    if cell < s.n then
      fun node => if node < s.sizePer then c2n (order cell) node else c2n cell node
    else c2n cell

/-- `ref_cell_pack`; `adjMem` is the memory of the fresh adjacency. -/
def pack (s : RefCell) (o2n : Nat → Int) (keyMem : Nat → Int) (adjMem : RefAdj) :
    Except Status RefCell :=
  let packed := (List.range s.max).foldl (packStep s.cellType o2n) (0, s.c2n)
  if packed.1 ≠ s.n then .error .failure
  else do
    let c2n := s.sortRows (s.blankRest packed.2) keyMem
    let adj ← (List.range s.n).foldlM
      (fun adj cell =>
        (List.range s.nodePer).foldlM (fun adj node => adj.add (c2n cell node) cell) adj)
      (RefAdj.create adjMem)
    .ok { s with
      c2n := c2n
      blank := if s.n < s.max then (s.n : Int) else refEmpty
      adj := adj }

/-- A cell as its nodes and, for the types that have one, its id. -/
def cellRow (s : RefCell) (cell : Nat) : List Int := (List.range s.sizePer).map (s.c2n cell)

/-- A cell with its nodes mapped through `o2n` and its id unchanged. -/
def renumbered (s : RefCell) (o2n : Nat → Int) (cell : Nat) : List Int :=
  (s.nodeList cell).map (fun v => o2n v.toNat) ++
    if s.cellType.lastNodeIsAnId then [s.c2n cell s.nodePer] else []

theorem map_packedRow (s : RefCell) (o2n : Nat → Int) (cell : Nat) (old : Nat → Int) :
    (List.range s.sizePer).map (packedRow s.cellType o2n (s.c2n cell) old) =
      s.renumbered o2n cell := by
  have hnodes : (List.range s.cellType.nodePer).map (packedRow s.cellType o2n (s.c2n cell) old) =
      (s.nodeList cell).map (fun v => o2n v.toNat) := by
    rw [nodeList, List.map_map]
    apply List.map_congr_left
    intro i hi
    simp only [packedRow, List.mem_range.mp hi, if_true, Function.comp_apply]
  unfold renumbered sizePer CellType.sizePer
  by_cases hid : s.cellType.lastNodeIsAnId = true
  · rw [if_pos hid, if_pos hid, List.range_succ, List.map_append, hnodes, List.map_singleton]
    simp [packedRow, hid, nodePer]
  · rw [if_neg hid, if_neg hid, Nat.add_zero, hnodes, List.append_nil]

theorem mem_validCells {s : RefCell} {c : Nat} : c ∈ s.validCells ↔ s.Live c := by
  simp only [validCells, List.mem_filter, List.mem_range, decide_eq_true_eq]
  exact ⟨fun hc => hc.2, fun hc => ⟨hc.1, hc⟩⟩

theorem CellInv.length_validCells {s : RefCell} (h : s.CellInv) : s.validCells.length = s.n := by
  rw [← h.count, liveCount, validCells, ← List.toFinset_card_of_nodup]
  · congr 1
    ext c
    simp
  · exact List.nodup_range.filter _

/-- The state of the compaction after the rows `done`: the cells among them
lead the table, packed, and the rows behind are as they were. -/
structure PackedTo (s : RefCell) (o2n : Nat → Int) (done : List Nat)
    (acc : Nat × (Nat → Nat → Int)) : Prop where
  count : acc.1 = (done.filter (fun c => s.Live c)).length
  front : ∀ i, i < acc.1 → acc.2 i =
    packedRow s.cellType o2n (s.c2n ((done.filter (fun c => s.Live c)).getD i 0)) (s.c2n i)
  behind : ∀ i, acc.1 ≤ i → acc.2 i = s.c2n i

theorem PackedTo.step {s : RefCell} {o2n : Nat → Int} {done : List Nat}
    {acc : Nat × (Nat → Nat → Int)} (h : PackedTo s o2n done acc) (hmax : done.length < s.max) :
    PackedTo s o2n (done ++ [done.length]) (packStep s.cellType o2n acc done.length) := by
  have hle : acc.1 ≤ done.length := by
    rw [h.count]
    exact List.length_filter_le _ _
  have hrow : acc.2 done.length = s.c2n done.length := h.behind _ hle
  by_cases hempty : s.c2n done.length 0 = refEmpty
  · have hdead : ¬ s.Live done.length := fun hl => hl.2 hempty
    have hfilter : (done ++ [done.length]).filter (fun c => s.Live c) =
        done.filter (fun c => s.Live c) := by simp [List.filter_append, hdead]
    rw [packStep, hrow, if_pos hempty]
    refine ⟨by rw [hfilter]; exact h.count, fun i hi => ?_, h.behind⟩
    rw [hfilter]
    exact h.front i hi
  · have hlive : s.Live done.length := ⟨hmax, hempty⟩
    have hfilter : (done ++ [done.length]).filter (fun c => s.Live c) =
        done.filter (fun c => s.Live c) ++ [done.length] := by simp [List.filter_append, hlive]
    rw [packStep, hrow, if_neg hempty]
    refine ⟨by rw [hfilter, List.length_append, ← h.count]; rfl, fun i hi => ?_, fun i hi => ?_⟩
    · rw [hfilter]
      dsimp only at hi ⊢
      by_cases hlast : i = acc.1
      · subst hlast
        rw [Function.update_self, h.behind acc.1 le_rfl, List.getD_append_right _ _ _ _ h.count.ge,
          h.count, Nat.sub_self]
        rfl
      · rw [Function.update_of_ne hlast, h.front i (by omega),
          List.getD_append _ _ _ _ (by rw [← h.count]; omega)]
    · dsimp only at hi ⊢
      rw [Function.update_of_ne (by omega)]
      exact h.behind i (by omega)

theorem packed_spec (s : RefCell) (o2n : Nat → Int) :
    PackedTo s o2n (List.range s.max)
      ((List.range s.max).foldl (packStep s.cellType o2n) (0, s.c2n)) := by
  have hrule := ArrayLoop.foldl_inv
    (P := fun done rest acc => done ++ rest = List.range s.max ∧ PackedTo s o2n done acc)
    (f := packStep s.cellType o2n) (l := List.range s.max) (b := (0, s.c2n))
    (fun done i rest acc hP => ?_) ⟨List.nil_append _, rfl, fun i hi => ?_, fun _ _ => rfl⟩
  · exact hrule.2
  · obtain ⟨hsplit, hP⟩ := hP
    have hi := ArrayLoop.range_split hsplit
    refine ⟨by simpa using hsplit, ?_⟩
    rw [hi.1]
    exact hP.step hi.2
  · simp at hi

/-- Registering one cell with nodes in range succeeds. -/
theorem addAll_ok {c : Nat} :
    ∀ {l : List Int} {adj : RefAdj} {used : Nat}, adj.Stocked used →
      used + l.length ≤ refIntMax → (∀ v ∈ l, 0 ≤ v ∧ v + 100 ≤ refIntMax) →
      ∃ adj', l.foldlM (fun adj v => adj.add v c) adj = .ok adj' ∧
        adj'.Stocked (used + l.length) := by
  intro l
  induction l with
  | nil =>
      intro adj used h _ _
      exact ⟨adj, rfl, h⟩
  | cons v rest ih =>
      intro adj used h hfit hrange
      rw [List.length_cons] at hfit
      have hv := hrange v List.mem_cons_self
      obtain ⟨adj1, hadd, h1⟩ := h.add (by omega) (c : Int) hv.1 hv.2
      obtain ⟨adj2, hrest, h2⟩ := ih h1 (by omega) fun w hw => hrange w (List.mem_cons_of_mem _ hw)
      refine ⟨adj2, ?_, ?_⟩
      · rw [List.foldlM_cons, bind_eq_ok]
        exact ⟨adj1, hadd, hrest⟩
      · rw [List.length_cons, show used + (rest.length + 1) = used + 1 + rest.length by omega]
        exact h2

/-- The last loop of `ref_cell_pack` registers every row with its nodes. -/
theorem registerRows (mem : RefAdj) (rows : Nat → Nat → Int) (m : Nat) :
    ∀ n, n * m ≤ refIntMax →
      (∀ c, c < n → ∀ i, i < m → 0 ≤ rows c i ∧ rows c i + 100 ≤ refIntMax) →
      ∃ adj, (List.range n).foldlM (fun adj cell =>
          (List.range m).foldlM (fun adj node => adj.add (rows cell node) (cell : Int)) adj)
          (RefAdj.create mem) = .ok adj ∧ adj.Stocked (n * m) ∧
        Registers adj (fun c v => if c < n then ((List.range m).map (rows c)).count v else 0) := by
  intro n
  induction n with
  | zero =>
      intro _ _
      have hcreate := RefAdj.create_inv mem
      have hrefs : ∀ v, (RefAdj.create mem).refs v = [] := by
        intro v
        rw [RefAdj.refs, hcreate.2 v]
        rfl
      refine ⟨_, rfl, by rw [Nat.zero_mul]; exact RefAdj.create_stocked mem, hcreate.1,
        fun v c => ?_, fun v r hr => ?_⟩
      · rw [hrefs v]
        simp
      · rw [hrefs v] at hr
        cases hr
  | succ n ih =>
      intro hfit hrange
      rw [Nat.succ_mul] at hfit
      obtain ⟨adj1, hrun1, hstock1, hreg1⟩ := ih (by omega) fun c hc => hrange c (by omega)
      obtain ⟨adj2, hrun2, hstock2⟩ := addAll_ok (c := n) (l := (List.range m).map (rows n)) hstock1
        (by simpa using hfit) (by simpa using hrange n (by omega))
      obtain ⟨_, hreg2⟩ := hreg1.addAll hrun2
      rw [List.foldlM_map] at hrun2
      refine ⟨adj2, ?_, ?_, hreg2.congr fun c v => ?_⟩
      · rw [List.range_succ, List.foldlM_append, bind_eq_ok]
        refine ⟨adj1, hrun1, ?_⟩
        rw [List.foldlM_cons, bind_eq_ok]
        exact ⟨adj2, hrun2, rfl⟩
      · rw [Nat.succ_mul]
        simpa using hstock2
      · by_cases hc : c = n
        · subst hc
          simp
        · by_cases hlt : c < n
          · simp [hc, hlt, show c < n + 1 by omega]
          · simp [hc, hlt, show ¬ c < n + 1 by omega]

/-- A table whose first `n` rows are cells, registered with their nodes, and
whose other rows are linked in order satisfies the invariant. -/
theorem packed_inv (s' : RefCell) (hnmax : s'.n ≤ s'.max) (hfits : s'.sizePer * s'.max ≤ refIntMax)
    (hreg : Registers s'.adj (fun c v => if c < s'.n then (s'.nodeList c).count v else 0))
    (hnonneg : ∀ c, c < s'.n → ∀ v ∈ s'.nodeList c, 0 ≤ v)
    (hempty : ∀ c, s'.n ≤ c → c < s'.max → s'.c2n c 0 = refEmpty)
    (hblank : FreeList plainLink refEmpty (fun c => s'.c2n c 1) s'.blank
      (fun c => s'.n ≤ c ∧ c < s'.max)) :
    s'.CellInv ∧ s'.validCells = List.range s'.n := by
  have hlive : ∀ c, s'.Live c ↔ c < s'.n := by
    intro c
    constructor
    · intro hc
      by_contra hge
      exact hc.2 (hempty c (by omega) hc.1)
    · intro hc
      have h0 := hnonneg c hc _ (s'.c2n_mem_nodeList c s'.nodePer_pos)
      refine ⟨by omega, fun he => ?_⟩
      rw [he] at h0
      simp [refEmpty] at h0
  refine ⟨⟨hreg.congr fun c v => ?_, fun c hc => hnonneg c ((hlive c).mp hc), ?_, ?_, hfits⟩, ?_⟩
  · unfold occupancy
    by_cases hc : c < s'.n
    · rw [if_pos hc, if_pos ((hlive c).mpr hc)]
    · rw [if_neg hc, if_neg fun hl => hc ((hlive c).mp hl)]
  · refine hblank.congr (fun c => ?_) (fun _ _ => rfl)
    rw [hlive c]
    omega
  · have hset : (Finset.range s'.max).filter s'.Live = Finset.range s'.n := by
      ext c
      simp only [Finset.mem_filter, Finset.mem_range, hlive c]
      omega
    rw [liveCount, hset, Finset.card_range]
  · have hfilter : s'.validCells = (List.range s'.max).filter (fun c => decide (c < s'.n)) := by
      apply List.filter_congr
      intro c _
      rw [decide_eq_decide]
      exact hlive c
    rw [hfilter]
    obtain ⟨extra, hextra⟩ := Nat.exists_eq_add_of_le hnmax
    have hkeep : (List.range s'.n).filter (fun c => decide (c < s'.n)) = List.range s'.n := by
      rw [List.filter_eq_self]
      intro c hc
      simpa using hc
    have hdrop : ((List.range extra).map (s'.n + ·)).filter (fun c => decide (c < s'.n)) = [] := by
      rw [List.filter_eq_nil_iff]
      intro c hc
      obtain ⟨k, _, rfl⟩ := List.mem_map.mp hc
      simp
    rw [hextra, List.range_add, List.filter_append, hkeep, hdrop, List.append_nil]

/-- The rows of the sorted table are the rows of the packed one in another
order. -/
theorem sortRows_spec (s : RefCell) (c2n : Nat → Nat → Int) (keyMem : Nat → Int) :
    ∃ order : Nat → Nat, (∀ i, i < s.n → order i < s.n) ∧
      ((List.range s.n).map order).Perm (List.range s.n) ∧
      (∀ i, i < s.n → ∀ node, node < s.sizePer →
        s.sortRows c2n keyMem i node = c2n (order i) node) ∧
      ∀ i, s.n ≤ i → s.sortRows c2n keyMem i = c2n i := by
  set key : Nat → Int := fun cell =>
    if c2n cell 0 ≠ refEmpty then smallestNode s.nodePer (c2n cell) else keyMem cell with hkey
  obtain ⟨hlt, hinj, hsurj, _⟩ := sortHeap_bijOn s.n key (fun _ => 0)
  refine ⟨sortHeap s.n key (fun _ => 0), hlt, ?_, fun i hi node hnode => ?_, fun i hi => ?_⟩
  · rw [List.perm_ext_iff_of_nodup _ List.nodup_range]
    · intro k
      rw [List.mem_map, List.mem_range]
      constructor
      · intro hk
        obtain ⟨i, hi, rfl⟩ := hk
        exact hlt i (List.mem_range.mp hi)
      · intro hk
        obtain ⟨i, hi, hik⟩ := hsurj k hk
        exact ⟨i, List.mem_range.mpr hi, hik⟩
    · apply List.Nodup.map_on _ List.nodup_range
      intro i hi j hj
      exact hinj i j (List.mem_range.mp hi) (List.mem_range.mp hj)
  · simp only [sortRows, hi, hnode, if_true, hkey]
  · simp only [sortRows, not_lt.mpr hi, if_false]

/-- **`ref_cell_pack`** keeps the invariant and the multiset of cells, with the
nodes renumbered. -/
theorem pack_spec {s : RefCell} (h : s.CellInv) {o2n : Nat → Int} (keyMem : Nat → Int)
    (adjMem : RefAdj)
    (hrange : ∀ c, s.Live c → ∀ v ∈ s.nodeList c,
      0 ≤ o2n v.toNat ∧ o2n v.toNat + 100 ≤ refIntMax) :
    ∃ s', s.pack o2n keyMem adjMem = .ok s' ∧ s'.CellInv ∧ s'.cellType = s.cellType ∧
      s'.n = s.n ∧ s'.max = s.max ∧
      (s'.validCells.map s'.cellRow).Perm (s.validCells.map (s.renumbered o2n)) := by
  have hlen := h.length_validCells
  have hpacked : PackedTo s o2n (List.range s.max) _ := packed_spec s o2n
  set packed := (List.range s.max).foldl (packStep s.cellType o2n) (0, s.c2n) with hpk
  have hcount : packed.1 = s.n := hpacked.count.trans hlen
  have hnmax : s.n ≤ s.max := by
    rw [← h.count, liveCount]
    simpa using Finset.card_filter_le (Finset.range s.max) s.Live
  have hsize : s.nodePer ≤ s.sizePer := s.cellType.nodePer_le_sizePer
  obtain ⟨order, hlt, hperm, hfront, hback⟩ := sortRows_spec s (s.blankRest packed.2) keyMem
  set rows := s.sortRows (s.blankRest packed.2) keyMem with hrows
  -- row `i` is the packed row of cell `source i`
  set source : Nat → Nat := fun i => s.validCells.getD (order i) 0 with hsource
  have hlive : ∀ i, i < s.n → s.Live (source i) := by
    intro i hi
    have hi' : order i < s.validCells.length := by rw [hlen]; exact hlt i hi
    apply mem_validCells.mp
    simp only [hsource, List.getD_eq_getElem?_getD, List.getElem?_eq_getElem hi', Option.getD_some]
    exact List.getElem_mem hi'
  have hrow : ∀ i, i < s.n → ∀ node, node < s.sizePer →
      rows i node = packedRow s.cellType o2n (s.c2n (source i)) (s.c2n (order i)) node := by
    intro i hi node hnode
    rw [hfront i hi node hnode, blankRest]
    have hrest := hpacked.front (order i) (by rw [hcount]; exact hlt i hi)
    split
    · rename_i hroom
      rw [linkRows_old packed.2 hroom (hlt i hi), hrest]
      rfl
    · rw [hrest]
      rfl
  have hentry : ∀ i, i < s.n → ∀ node, node < s.nodePer →
      0 ≤ rows i node ∧ rows i node + 100 ≤ refIntMax := by
    intro i hi node hnode
    rw [hrow i hi node (lt_of_lt_of_le hnode hsize), packedRow, if_pos (show node < s.cellType.nodePer
      from hnode)]
    exact hrange _ (hlive i hi) _ (s.c2n_mem_nodeList _ hnode)
  have hitems : s.n * s.nodePer ≤ refIntMax := by
    calc s.n * s.nodePer ≤ s.max * s.sizePer := Nat.mul_le_mul hnmax hsize
      _ = s.sizePer * s.max := Nat.mul_comm _ _
      _ ≤ refIntMax := h.fits
  obtain ⟨adj, hadj, _, hreg⟩ := registerRows adjMem rows s.nodePer s.n hitems hentry
  set s' : RefCell := { s with
    c2n := rows
    blank := if s.n < s.max then (s.n : Int) else refEmpty
    adj := adj } with hs'
  have hrun : s.pack o2n keyMem adjMem = .ok s' := by
    rw [pack, ← hpk, if_neg (not_not.mpr hcount), bind_eq_ok]
    exact ⟨adj, hadj, rfl⟩
  have hrest : ∀ c, s.n ≤ c → c < s.max → rows c = linkRows s.n s.max packed.2 c := by
    intro c hc hc'
    rw [hback c hc, blankRest, if_pos (by omega)]
  obtain ⟨hinv, hvalid⟩ := packed_inv s' hnmax h.fits hreg
    (fun c hc v hv => by
      obtain ⟨i, hi, rfl⟩ := mem_nodeList.mp hv
      exact (hentry c hc i hi).1)
    (fun c hc hc' => by
      have hin : s.n ≤ c ∧ c < s.max := ⟨hc, hc'⟩
      change rows c 0 = refEmpty
      rw [hrest c hc hc', linkRows, if_pos rfl, if_pos hin])
    (by
      by_cases hroom : s.n < s.max
      · have hb : s'.blank = plainLink s.n := if_pos hroom
        rw [hb]
        refine (freeList_linkFresh plainLink refEmpty (fun k => packed.2 k 1) hroom).congr
          (fun c => Iff.rfl) (fun c hc => ?_)
        change rows c 1 = _
        rw [hrest c hc.1 hc.2]
        rfl
      · have hb : s'.blank = refEmpty := if_neg hroom
        refine ⟨[], hb, List.nodup_nil, fun c => ?_⟩
        simp only [List.not_mem_nil, false_iff, not_and, not_lt]
        intro hc
        change s.max ≤ c
        change s.n ≤ c at hc
        omega)
  refine ⟨s', hrun, hinv, rfl, rfl, rfl, ?_⟩
  have hcells : s'.validCells.map s'.cellRow =
      ((List.range s.n).map order).map fun k => s.renumbered o2n (s.validCells.getD k 0) := by
    rw [hvalid, List.map_map]
    apply List.map_congr_left
    intro i hi
    have hi' : i < s.n := List.mem_range.mp hi
    rw [Function.comp_apply, ← map_packedRow s o2n (source i) (s.c2n (order i))]
    apply List.map_congr_left
    intro node hnode
    exact hrow i hi' node (List.mem_range.mp hnode)
  have hsame : s.validCells =
      (List.range s.n).map fun k => s.validCells.getD k 0 := by
    apply List.ext_getElem
    · simp [hlen]
    · intro k hk _
      simp [List.getD_eq_getElem?_getD, List.getElem?_eq_getElem hk]
  have hrenumbered : s.validCells.map (s.renumbered o2n) =
      (List.range s.n).map fun k => s.renumbered o2n (s.validCells.getD k 0) := by
    nth_rewrite 1 [hsame]
    rw [List.map_map]
    rfl
  rw [hcells, hrenumbered]
  exact hperm.map _

end RefCell

/-! ## The packed mesh -/

open RefNode

variable {D : Type}

/-- The mesh after `ref_node_pack` and `ref_cell_pack`: both stores satisfy
their invariants, the data of every node is in its new slot and the cells are
the old ones with their nodes renumbered. -/
def PacksTo (s : RefNode D) (cells : RefCell) (o2n : Nat → Int) (n2o : Nat → Nat)
    (keyMem : Nat → Int) (adjMem : RefAdj) : Prop :=
  ∃ s' cells', s.pack o2n n2o = .ok s' ∧ cells.pack o2n keyMem adjMem = .ok cells' ∧
    s'.Inv ∧ cells'.CellInv ∧ Moved s s' o2n ∧
    (cells'.validCells.map cells'.cellRow).Perm (cells.validCells.map (cells.renumbered o2n))

theorem RefNode.Numbering.packsTo {s : RefNode D} {cells : RefCell} {o2n : Nat → Int}
    {n2o : Nat → Nat} (hnum : Numbering s o2n n2o) (h : s.Inv) (hcells : cells.CellInv)
    (hrefs : ∀ c, cells.Live c → ∀ v ∈ cells.nodeList c, s.Live v.toNat)
    (hreal : refNodeRealPer * s.max ≤ refIntMax) (haux : s.naux * s.max ≤ refIntMax)
    (keyMem : Nat → Int) (adjMem : RefAdj) : PacksTo s cells o2n n2o keyMem adjMem := by
  obtain ⟨s', hrun, hinv, hmoved⟩ := RefNode.pack_spec h hnum hreal haux
  have hnmax : s.n ≤ s.max := by
    rw [← h.count, liveCount]
    simpa using Finset.card_filter_le (Finset.range s.max) s.Live
  have hrange : ∀ c, cells.Live c → ∀ v ∈ cells.nodeList c,
      0 ≤ o2n v.toNat ∧ o2n v.toNat + 100 ≤ refIntMax := by
    intro c hc v hv
    have hnumber := hnum.range v.toNat (hrefs c hc v hv)
    refine ⟨hnumber.1, ?_⟩
    simp only [refNodeRealPer, refIntMax] at hreal ⊢
    omega
  obtain ⟨cells', hrun', hinv', _, _, _, hperm⟩ := RefCell.pack_spec hcells keyMem adjMem hrange
  exact ⟨s', cells', hrun, hrun', hinv, hinv', hmoved, hperm⟩

/-- **Packing gives an isomorphic mesh.**  Both compactions return inverse
bijections between the valid slots and the first `n` numbers, `compact` with
the owned slots first and `stableCompact` in slot order, and packing along
either moves the mesh. -/
theorem pack_isomorphic (s : RefNode D) (cells : RefCell) (h : s.Inv) (hcells : cells.CellInv)
    (hrefs : ∀ c, cells.Live c → ∀ v ∈ cells.nodeList c, s.Live v.toNat)
    (hreal : refNodeRealPer * s.max ≤ refIntMax) (haux : s.naux * s.max ≤ refIntMax)
    (mem : Nat → Nat) (keyMem : Nat → Int) (adjMem : RefAdj) :
    (∃ o2n n2o, s.compact mem = .ok (o2n, n2o) ∧ Numbering s o2n n2o ∧
        (∀ i j, s.Live i → s.Live j → s.Owned i → ¬ s.Owned j → o2n i < o2n j) ∧
        PacksTo s cells o2n n2o keyMem adjMem) ∧
      ∃ o2n n2o, s.stableCompact mem = .ok (o2n, n2o) ∧ Numbering s o2n n2o ∧
        (∀ i j, s.Live i → s.Live j → i < j → o2n i < o2n j) ∧
        PacksTo s cells o2n n2o keyMem adjMem := by
  constructor
  · obtain ⟨o2n, n2o, hrun, hnum, hfirst⟩ := compact_spec h.toSlotInv mem
    exact ⟨o2n, n2o, hrun, hnum, hfirst,
      hnum.packsTo h hcells hrefs hreal haux keyMem adjMem⟩
  · obtain ⟨o2n, n2o, hrun, hnum, hstable⟩ := stableCompact_spec h.toSlotInv mem
    exact ⟨o2n, n2o, hrun, hnum, hstable,
      hnum.packsTo h hcells hrefs hreal haux keyMem adjMem⟩

/-- A run that adds four nodes. -/
def fourNodes : RefNode Int := (afterCalls [.add 0, .add 1, .add 2, .add 3]).store

theorem fourNodes_inv : fourNodes.Inv := by
  have hrun : Ledger.Reaches (fun _ _ => True) ⟨create zeroMemory 0, []⟩
      (afterCalls [.add 0, .add 1, .add 2, .add 3]) := by
    refine Ledger.Reaches.call (l := afterCalls [.add 0, .add 1, .add 2]) (c := .add 3) ?_ trivial rfl
    refine Ledger.Reaches.call (l := afterCalls [.add 0, .add 1]) (c := .add 2) ?_ trivial rfl
    refine Ledger.Reaches.call (l := afterCalls [.add 0]) (c := .add 1) ?_ trivial rfl
    exact Ledger.Reaches.call (c := .add 0) Ledger.Reaches.start trivial rfl
  exact Ledger.reaches_inv hrun

theorem pack_isomorphic_oneTet :
    ∃ o2n n2o, fourNodes.compact (fun _ => 0) = .ok (o2n, n2o) ∧
      PacksTo fourNodes RefCell.oneTet o2n n2o (fun _ => 0) RefCell.zeroMemory.adj := by
  have hcreate := RefCell.create_inv RefCell.zeroMemory .tet
  have hadd : (RefCell.create RefCell.zeroMemory .tet).add (fun i => i) =
    .ok (RefCell.oneTet, 0) := rfl
  obtain ⟨hinv, _, hlive, _⟩ := RefCell.add_spec hcreate hadd
  have hrefs : ∀ c, RefCell.oneTet.Live c → ∀ v ∈ RefCell.oneTet.nodeList c,
      fourNodes.Live v.toNat := by
    intro c hc
    rcases (hlive c).mp hc with hold | rfl
    · exact absurd hold (RefCell.create_dead _ _ c)
    · decide
  obtain ⟨⟨o2n, n2o, hrun, _, _, hpacks⟩, _⟩ := pack_isomorphic fourNodes RefCell.oneTet
    fourNodes_inv hinv hrefs (by decide) (by decide) (fun _ => 0) (fun _ => 0) RefCell.zeroMemory.adj
  exact ⟨o2n, n2o, hrun, hpacks⟩

/-- In a store whose slot 0 is a ghost, `stableCompact` numbers the ghost
before the owned nodes. -/
theorem stableCompact_ghost_first :
    ¬ ∀ (s : RefNode Int) (mem : Nat → Nat) (o2n : Nat → Int) (n2o : Nat → Nat), s.Inv →
      s.stableCompact mem = .ok (o2n, n2o) →
      ∀ i j, s.Live i → s.Live j → s.Owned i → ¬ s.Owned j → o2n i < o2n j := by
  intro h
  have hinv : RefNode.Inv { fourNodes with part := fun k => if k = 0 then 1 else 0 } :=
    ⟨fourNodes_inv.toSlotInv.congr rfl rfl rfl rfl, fourNodes_inv.ascending,
      fourNodes_inv.aligned, fourNodes_inv.covers⟩
  have hlt := h _ (fun _ => 0) _ _ hinv rfl 1 0 (by decide) (by decide) (by decide) (by decide)
  exact absurd hlt (by decide)

end RefineMesh
