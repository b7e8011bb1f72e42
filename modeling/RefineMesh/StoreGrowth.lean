import Mathlib.Tactic
import RefineMesh.CellRows
import RefineMesh.GeomStore
import RefineMesh.Node

/-!
# The growth of the stores in machine integers

When a store is full it grows by a factor of its own, up to a limit of its own.
Here every `int` expression of a growth is evaluated with its overflow: the new
maximum, the length of the allocation, the links of the new slots, and the place
of each field of each slot.  `(REF_INT)(1.5 * (REF_DBL)orig)` is exact in a
double, and so is `0.5`.
-/

namespace RefineMesh

variable {D : Type}

/-! ## Places of fields -/

/-- `(field) + per * (slot)`. -/
def fieldPlace (per slot field : Nat) : Except Status Nat := do
  intExpr (field + (← intExpr (per * slot)))

/-- Every field of every slot below `max` has its place. -/
def PlacesFit (per max : Nat) : Prop :=
  ∀ slot, slot < max → ∀ field, field < per → fieldPlace per slot field = .ok (field + per * slot)

theorem intExpr_eq_ok {x y : Nat} : intExpr x = .ok y ↔ y = x ∧ x ≤ refIntMax := by
  rw [intExpr]
  split
  · rename_i h
    simp [h, eq_comm]
  · rename_i h
    simp [h]

theorem fieldPlace_eq_ok {per slot field k : Nat} :
    fieldPlace per slot field = .ok k ↔ k = field + per * slot ∧ field + per * slot ≤ refIntMax := by
  rw [fieldPlace, bind_eq_ok]
  simp only [intExpr_eq_ok]
  constructor
  · intro h
    obtain ⟨offset, ⟨rfl, -⟩, rfl, hfit⟩ := h
    exact ⟨rfl, hfit⟩
  · intro h
    obtain ⟨rfl, hfit⟩ := h
    exact ⟨_, ⟨rfl, by omega⟩, rfl, hfit⟩

/-- The last field of the last slot decides. -/
theorem placesFit_iff {per max : Nat} :
    PlacesFit per max ↔ per * max ≤ refIntMax + 1 := by
  constructor
  · intro h
    rcases Nat.eq_zero_or_pos per with rfl | hper
    · rw [Nat.zero_mul]
      exact Nat.zero_le _
    cases max with
    | zero => simp
    | succ last =>
        have hlast := (fieldPlace_eq_ok.mp (h last (Nat.lt_succ_self last) (per - 1) (by omega))).2
        rw [Nat.mul_succ]
        omega
  · intro h slot hslot field hfield
    have hle : per * slot + per ≤ per * max := by
      rw [← Nat.mul_succ]
      exact Nat.mul_le_mul_left per hslot
    exact fieldPlace_eq_ok.mpr ⟨rfl, by omega⟩

/-! ## The links of the new slots -/

theorem forM_eq_ok {ε β : Type} {f : β → Except ε Unit} {l : List β} :
    forM l f = .ok () ↔ ∀ b ∈ l, f b = .ok () := by
  induction l with
  | nil => simp [pure, Except.pure]
  | cons b rest ih =>
      rw [List.forM_cons, bind_eq_ok]
      simp only [List.mem_cons, forall_eq_or_imp, ih]
      constructor
      · intro h
        obtain ⟨_, hb, hrest⟩ := h
        exact ⟨hb, hrest⟩
      · intro h
        exact ⟨(), h⟩

/-- `index2next(index)`. -/
def index2nextMachine (index : Nat) : Except Status Int :=
  if index + 1 ≤ refIntMax then .ok (index2next index) else .error .undefined

/-- The loop of `ref_node_add_core` over the new nodes, with the blank list. -/
def linkNodes (orig max : Nat) : Except Status Unit := do
  forM (List.range' orig (max - orig)) fun extra => do
    let _ ← index2nextMachine (← intExpr (extra + 1))
    .ok ()
  let _ ← index2nextMachine orig
  .ok ()

/-- The loops of `ref_cell_add` and `ref_geom_grow` over the new records: the
first two fields are written, the second with the next slot. -/
def linkRecords (per orig max : Nat) : Except Status Unit := do
  forM (List.range' orig (max - orig)) fun slot => do
    let _ ← fieldPlace per slot 0
    let _ ← fieldPlace per slot 1
    let _ ← intExpr (slot + 1)
    .ok ()
  let _ ← fieldPlace per (max - 1) 1
  .ok ()

/-- The loop of `ref_adj_add` over the new items. -/
def linkItems (orig max : Nat) : Except Status Unit :=
  forM (List.range' orig (max - orig)) fun i => do
    let _ ← intExpr (i + 1)
    .ok ()

theorem linkNodes_eq_ok {orig max : Nat} (hlt : orig < max) :
    linkNodes orig max = .ok () ↔ max + 1 ≤ refIntMax := by
  have hone : ∀ extra, (do
      let _ ← index2nextMachine (← intExpr (extra + 1))
      .ok () : Except Status Unit) = .ok () ↔ extra + 2 ≤ refIntMax := by
    intro extra
    simp only [intExpr, index2nextMachine, bind, Except.bind]
    by_cases hnext : extra + 1 ≤ refIntMax
    · by_cases hfit : extra + 1 + 1 ≤ refIntMax
      · simp [hnext, hfit]
      · simp [hnext, hfit]
    · have hover : ¬ extra + 2 ≤ refIntMax := by omega
      simp [hnext, hover]
  rw [linkNodes, bind_eq_ok]
  constructor
  · intro h
    obtain ⟨_, hall, -⟩ := h
    have hin : max - 1 ∈ List.range' orig (max - orig) := by
      rw [List.mem_range'_1]
      omega
    have hlast := (hone _).mp (forM_eq_ok.mp hall (max - 1) hin)
    omega
  · intro h
    refine ⟨(), forM_eq_ok.mpr ?_, ?_⟩
    · intro extra hextra
      rw [List.mem_range'_1] at hextra
      exact (hone extra).mpr (by omega)
    · rw [index2nextMachine, if_pos (by omega)]
      rfl

theorem linkRecords_ok {per orig max : Nat} (hper : 2 ≤ per) (hlt : orig < max)
    (hfit : per * max ≤ refIntMax) : linkRecords per orig max = .ok () := by
  have hplaces : PlacesFit per max := placesFit_iff.mpr (by omega)
  rw [linkRecords, bind_eq_ok]
  refine ⟨(), forM_eq_ok.mpr ?_, ?_⟩
  · intro slot hslot
    rw [List.mem_range'_1] at hslot
    have hle : max ≤ per * max := Nat.le_mul_of_pos_left max (by omega)
    rw [hplaces slot (by omega) 0 (by omega), hplaces slot (by omega) 1 (by omega),
      intExpr_ok (by omega)]
    rfl
  · rw [hplaces (max - 1) (by omega) 1 (by omega)]
    rfl

theorem linkItems_ok {orig max : Nat} (hfit : max ≤ refIntMax) : linkItems orig max = .ok () := by
  apply forM_eq_ok.mpr
  intro i hi
  rw [List.mem_range'_1] at hi
  rw [intExpr_ok (by omega)]
  rfl

/-! ## The growths -/

/-- The new maximum of `ref_node_add_core`. -/
def nodeGrowth (orig : Nat) : Except Status Nat := do
  let chunk := Nat.max 5000 (← intExpr (3 * orig / 2))
  let max ← intExpr (orig + chunk)
  linkNodes orig max
  .ok max

/-- The growth that `ref_cell_add` and `ref_geom_grow` share: a least chunk, a
limit, and records of `per` entries. -/
def recordGrowth (least maxLimit per orig : Nat) : Except Status Nat :=
  if orig = maxLimit then .error .failure
  else do
    let chunk := Nat.max least (← intExpr (3 * orig / 2))
    if maxLimit ≤ orig then .error .failure
    else do
      let chunk := Nat.min chunk (maxLimit - orig)
      let max ← intExpr (orig + chunk)
      let _ ← intExpr (per * max)
      linkRecords per orig max
      .ok max

/-- The new maximum of `ref_cell_add`. -/
def cellGrowth (t : CellType) (orig : Nat) : Except Status Nat :=
  recordGrowth 5000 (refIntMax / 4) t.sizePer orig

/-- The new length of `first` in `ref_adj_add`. -/
def adjNodeGrowth (orig node : Nat) : Except Status Nat := do
  let chunk ← intExpr (100 + (node - orig))
  let chunk := Nat.max chunk (orig / 2)
  let chunk := Nat.min chunk (refIntMax - orig)
  intExpr (orig + chunk)

/-- The new number of items in `ref_adj_add`. -/
def adjItemGrowth (orig : Nat) : Except Status Nat :=
  if orig = refIntMax then .error .failure
  else do
    let chunk := Nat.max 100 (orig / 2)
    let chunk := Nat.min chunk (refIntMax - orig)
    let max ← intExpr (orig + chunk)
    linkItems orig max
    .ok max

/-- The new maximum of `ref_geom_grow`, with the length of `param`. -/
def geomGrowth (orig : Nat) : Except Status Nat := do
  let max ← recordGrowth 1000 (refIntMax / 3) 6 orig
  let _ ← intExpr (2 * max)
  .ok max

/-- A growth that stays in `REF_INT`, over records of `per` entries. -/
def Grows (per orig : Nat) (growth : Except Status Nat) : Prop :=
  ∃ max, growth = .ok max ∧ orig < max ∧ PlacesFit per max

/-- The growth of the nodes, whose `real` has 15 and `aux` has `naux` entries for
each of them. -/
def NodesGrow (naux orig : Nat) : Prop :=
  ∃ max, nodeGrowth orig = .ok max ∧ orig < max ∧ PlacesFit 15 max ∧ PlacesFit naux max

/-- **`ref_node_add_core` has no limit**, so that its growth leaves `REF_INT`
from a size on. -/
theorem nodesGrow_iff {naux orig : Nat} : NodesGrow naux orig ↔
    orig ≤ 57266230 ∧ naux * Nat.max (orig + 5000) (5 * orig / 2) ≤ refIntMax + 1 := by
  have hsize : orig + Nat.max 5000 (3 * orig / 2) = Nat.max (orig + 5000) (5 * orig / 2) := by
    have hhalf : 5 * orig / 2 = orig + 3 * orig / 2 := by omega
    rw [hhalf]
    exact (Nat.add_max_add_left orig _ _).symm
  have hmax : Nat.max (orig + 5000) (5 * orig / 2) =
      if 5 * orig / 2 ≤ orig + 5000 then orig + 5000 else 5 * orig / 2 := by
    split
    · exact Nat.max_eq_left ‹_›
    · exact Nat.max_eq_right (by omega)
  constructor
  · intro h
    obtain ⟨max, hrun, hlt, hreal, haux⟩ := h
    rw [placesFit_iff] at hreal haux
    obtain ⟨x, hx, hrun⟩ := bind_eq_ok.mp hrun
    obtain ⟨m, hm, hrun⟩ := bind_eq_ok.mp hrun
    obtain ⟨_, -, hrun⟩ := bind_eq_ok.mp hrun
    obtain ⟨rfl, -⟩ := intExpr_eq_ok.mp hx
    obtain ⟨rfl, -⟩ := intExpr_eq_ok.mp hm
    obtain rfl := Except.ok.inj hrun
    rw [hsize] at hreal haux
    refine ⟨?_, haux⟩
    rw [hmax] at hreal
    unfold refIntMax at hreal
    split at hreal <;> omega
  · intro h
    obtain ⟨hle, haux⟩ := h
    set max := Nat.max (orig + 5000) (5 * orig / 2) with hdef
    have hfits : 15 * max ≤ refIntMax + 1 ∧ orig < max := by
      rw [hmax]
      unfold refIntMax
      split <;> omega
    refine ⟨max, ?_, hfits.2, placesFit_iff.mpr hfits.1, placesFit_iff.mpr haux⟩
    have hlinks : linkNodes orig max = .ok () :=
      (linkNodes_eq_ok hfits.2).mpr (by unfold refIntMax at *; omega)
    rw [nodeGrowth, intExpr_ok (by unfold refIntMax; omega)]
    simp only [bind, Except.bind]
    rw [hsize, intExpr_ok (by omega)]
    simp only [hlinks]

/-- A limited growth stays in `REF_INT` when its allocation does. -/
theorem recordGrowth_grows {least maxLimit per orig : Nat} (hper : 2 ≤ per) (hleast : 0 < least)
    (horig : orig < maxLimit) (hlimit : maxLimit ≤ refIntMax / 3) :
    Grows per orig (recordGrowth least maxLimit per orig) ↔
      per * Nat.min (orig + Nat.max least (3 * orig / 2)) maxLimit ≤ refIntMax := by
  have hmin : orig + Nat.min (Nat.max least (3 * orig / 2)) (maxLimit - orig) =
      Nat.min (orig + Nat.max least (3 * orig / 2)) maxLimit := by
    have hadd : orig + (maxLimit - orig) = maxLimit := by omega
    conv_rhs => rw [← hadd]
    exact (Nat.add_min_add_left orig _ _).symm
  have hrun : recordGrowth least maxLimit per orig = (do
      let max ← intExpr (Nat.min (orig + Nat.max least (3 * orig / 2)) maxLimit)
      let _ ← intExpr (per * max)
      linkRecords per orig max
      .ok max) := by
    rw [recordGrowth, if_neg (by omega), intExpr_ok (by omega)]
    simp only [bind, Except.bind]
    rw [if_neg (by omega), hmin]
  set max := Nat.min (orig + Nat.max least (3 * orig / 2)) maxLimit with hmax
  have hlt : orig < max := by
    have hpos : 0 < Nat.max least (3 * orig / 2) := hleast.trans_le (Nat.le_max_left _ _)
    exact Nat.lt_min.mpr ⟨by omega, horig⟩
  have hfit : max ≤ refIntMax := by
    have hle : max ≤ maxLimit := Nat.min_le_right _ _
    omega
  rw [hrun]
  constructor
  · intro h
    obtain ⟨m, hrun, -, -⟩ := h
    obtain ⟨m, hm, hrun⟩ := bind_eq_ok.mp hrun
    obtain ⟨rfl, -⟩ := intExpr_eq_ok.mp hm
    obtain ⟨_, hlength, -⟩ := bind_eq_ok.mp hrun
    exact (intExpr_eq_ok.mp hlength).2
  · intro hlength
    refine ⟨max, ?_, hlt, placesFit_iff.mpr (by omega)⟩
    rw [intExpr_ok hfit]
    simp only [bind, Except.bind]
    rw [intExpr_ok hlength]
    simp only [linkRecords_ok hper hlt hlength]

/-- Below the cap the new maximum is two and a half times the old one. -/
theorem growth_le_iff {least limit orig d : Nat} (hleast : least ≤ 5000) (hd : 10000 ≤ d)
    (hcap : d < limit) :
    Nat.min (orig + Nat.max least (3 * orig / 2)) limit ≤ d ↔ 5 * orig / 2 ≤ d := by
  have hmax : Nat.max least (3 * orig / 2) = if 3 * orig / 2 ≤ least then least else 3 * orig / 2 := by
    split
    · exact Nat.max_eq_left ‹_›
    · exact Nat.max_eq_right (by omega)
  rw [hmax]
  constructor
  · intro h
    rcases min_le_iff.mp h with hle | hle
    · split at hle <;> omega
    · omega
  · intro h
    apply min_le_iff.mpr
    left
    split <;> omega

theorem cellGrowth_grows {t : CellType} {orig : Nat} (horig : orig < refIntMax / 4) :
    Grows t.sizePer orig (cellGrowth t orig) ↔
      t.sizePer ≤ 4 ∨ 5 * orig / 2 ≤ refIntMax / t.sizePer := by
  have hper : 2 ≤ t.sizePer := t.two_le_nodePer.trans t.nodePer_le_sizePer
  have hmost : t.sizePer ≤ 27 := RefCell.sizePer_le t
  rw [cellGrowth, recordGrowth_grows hper (by decide) horig (by decide), Nat.mul_comm,
    ← Nat.le_div_iff_mul_le (by omega)]
  by_cases hfour : t.sizePer ≤ 4
  · have hquarter : refIntMax / 4 ≤ refIntMax / t.sizePer := Nat.div_le_div_left hfour (by omega)
    simp only [hfour, true_or, iff_true]
    exact (Nat.min_le_right _ _).trans hquarter
  · have hfifth : refIntMax / t.sizePer ≤ refIntMax / 5 := Nat.div_le_div_left (by omega) (by decide)
    have hleast : refIntMax / 27 ≤ refIntMax / t.sizePer := Nat.div_le_div_left hmost (by omega)
    simp only [hfour, false_or]
    apply growth_le_iff (by decide)
    · exact (by decide : 10000 ≤ refIntMax / 27).trans hleast
    · exact hfifth.trans_lt (by decide)

theorem geomGrowth_grows {orig : Nat} (horig : orig < refIntMax / 3) :
    Grows 6 orig (geomGrowth orig) ↔ 5 * orig / 2 ≤ refIntMax / 6 := by
  have hparam : Grows 6 orig (geomGrowth orig) ↔
      Grows 6 orig (recordGrowth 1000 (refIntMax / 3) 6 orig) := by
    constructor
    · intro h
      obtain ⟨max, hrun, hlt, hplaces⟩ := h
      obtain ⟨m, hm, hrun⟩ := bind_eq_ok.mp hrun
      obtain ⟨_, -, hrun⟩ := bind_eq_ok.mp hrun
      obtain rfl := Except.ok.inj hrun
      exact ⟨m, hm, hlt, hplaces⟩
    · intro h
      obtain ⟨max, hrun, hlt, hplaces⟩ := h
      have hfit := placesFit_iff.mp hplaces
      refine ⟨max, ?_, hlt, hplaces⟩
      rw [geomGrowth, hrun]
      simp only [bind, Except.bind]
      rw [intExpr_ok (by unfold refIntMax at *; omega)]
  rw [hparam, recordGrowth_grows (by decide) (by decide) horig le_rfl, Nat.mul_comm,
    ← Nat.le_div_iff_mul_le (by decide)]
  exact growth_le_iff (by decide) (by decide) (by decide)

/-- The growth of `first` reaches the node, except at the end of `REF_INT`. -/
theorem adjNodeGrowth_grows {orig node : Nat} (hnode : node ≤ refIntMax) (hfull : orig ≤ node) :
    (∃ max, adjNodeGrowth orig node = .ok max ∧ orig < max ∧ node < max) ↔
      node < refIntMax ∧ node + 100 ≤ refIntMax + orig := by
  have hmax : Nat.max (100 + (node - orig)) (orig / 2) =
      if 100 + (node - orig) ≤ orig / 2 then orig / 2 else 100 + (node - orig) := by
    split
    · exact Nat.max_eq_right ‹_›
    · exact Nat.max_eq_left (by omega)
  have hmin : ∀ c, Nat.min c (refIntMax - orig) = if c ≤ refIntMax - orig then c else refIntMax - orig := by
    intro c
    split
    · exact Nat.min_eq_left ‹_›
    · exact Nat.min_eq_right (by omega)
  constructor
  · intro h
    obtain ⟨max, hrun, -, hroom⟩ := h
    obtain ⟨c, hc, hrun⟩ := bind_eq_ok.mp hrun
    obtain ⟨rfl, hfit⟩ := intExpr_eq_ok.mp hc
    obtain ⟨rfl, hfit'⟩ := intExpr_eq_ok.mp hrun
    omega
  · intro h
    obtain ⟨hend, hfit⟩ := h
    have hgoal : ∀ max, max = orig + Nat.min (Nat.max (100 + (node - orig)) (orig / 2))
        (refIntMax - orig) → max ≤ refIntMax ∧ node < max := by
      intro max hdef
      rw [hmax, hmin] at hdef
      split at hdef <;> split at hdef <;> omega
    obtain ⟨hle, hroom⟩ := hgoal _ rfl
    refine ⟨_, ?_, by omega, hroom⟩
    rw [adjNodeGrowth, intExpr_ok (by omega)]
    exact intExpr_ok hle

theorem adjItemGrowth_grows {orig : Nat} (horig : orig < refIntMax) :
    Grows 1 orig (adjItemGrowth orig) := by
  set max := orig + Nat.min (Nat.max 100 (orig / 2)) (refIntMax - orig) with hdef
  have hpos : 0 < Nat.min (Nat.max 100 (orig / 2)) (refIntMax - orig) := by
    apply Nat.lt_min.mpr
    exact ⟨(by decide : 0 < 100).trans_le (Nat.le_max_left _ _), by omega⟩
  have hle : max ≤ refIntMax := by
    have hcap : Nat.min (Nat.max 100 (orig / 2)) (refIntMax - orig) ≤ refIntMax - orig :=
      Nat.min_le_right _ _
    omega
  refine ⟨max, ?_, by omega, placesFit_iff.mpr (by omega)⟩
  rw [adjItemGrowth, if_neg (by omega)]
  simp only [← hdef, intExpr_ok hle, bind, Except.bind, linkItems_ok hle]

/-! ## The growths of the models -/

/-- A full cell store grows to the maximum that is computed here. -/
theorem RefCell.grow_eq {s : RefCell} (hblank : s.blank = refEmpty) (hlimit : s.max ≤ refIntMax / 4)
    {max : Nat} (hrun : cellGrowth s.cellType s.max = .ok max) :
    s.grow = .ok { s with max := max, c2n := linkRows s.max max s.c2n, blank := s.max } := by
  rw [cellGrowth, recordGrowth] at hrun
  split at hrun
  · cases hrun
  · rename_i hne
    obtain ⟨x, hx, hrun⟩ := bind_eq_ok.mp hrun
    obtain ⟨rfl, -⟩ := intExpr_eq_ok.mp hx
    rw [if_neg (by omega)] at hrun
    obtain ⟨m, hm, hrun⟩ := bind_eq_ok.mp hrun
    obtain ⟨rfl, -⟩ := intExpr_eq_ok.mp hm
    obtain ⟨_, hlength, hrun⟩ := bind_eq_ok.mp hrun
    obtain ⟨_, -, hrun⟩ := bind_eq_ok.mp hrun
    obtain rfl := Except.ok.inj hrun
    have hfit := (intExpr_eq_ok.mp hlength).2
    rw [RefCell.grow, if_neg (not_not.mpr hblank), if_neg hne, if_neg (by omega)]
    exact if_neg (not_lt.mpr hfit)

/-- A full node store grows to the maximum that is computed here. -/
theorem RefNode.grow_eq {s : RefNode D} {max : Nat} (hrun : nodeGrowth s.max = .ok max) :
    s.grow = .ok { s with
      max := max
      global := SlotList.linkFresh index2next refEmpty s.max max s.global
      blank := index2next s.max } := by
  obtain ⟨x, hx, hrun⟩ := bind_eq_ok.mp hrun
  obtain ⟨rfl, -⟩ := intExpr_eq_ok.mp hx
  obtain ⟨m, hm, hrun⟩ := bind_eq_ok.mp hrun
  obtain ⟨rfl, hfit⟩ := intExpr_eq_ok.mp hm
  obtain ⟨_, -, hrun⟩ := bind_eq_ok.mp hrun
  obtain rfl := Except.ok.inj hrun
  exact if_neg (not_lt.mpr hfit)

/-- The adjacency grows to the lengths that are computed here. -/
theorem RefAdj.growNodes_eq {a : RefAdj} {node max : Nat} (hfull : a.nnode ≤ node)
    (hrun : adjNodeGrowth a.nnode node = .ok max) :
    a.growNodes node = .ok { a with
      nnode := max
      first := fun i => if a.nnode ≤ i ∧ i < max then refEmpty else a.first i } := by
  obtain ⟨c, hc, hrun⟩ := bind_eq_ok.mp hrun
  obtain ⟨rfl, hfit⟩ := intExpr_eq_ok.mp hc
  obtain ⟨rfl, -⟩ := intExpr_eq_ok.mp hrun
  rw [RefAdj.growNodes, if_neg (not_lt.mpr hfull)]
  exact if_neg (not_lt.mpr hfit)

/-- **The growth of each store stays in `REF_INT`** exactly for the sizes given
here, among those that its own limit admits. -/
theorem stores_grow_within_refInt (naux orig node : Nat) (t : CellType) :
    (orig ≤ refIntMax → (NodesGrow naux orig ↔
        orig ≤ 57266230 ∧ naux * Nat.max (orig + 5000) (5 * orig / 2) ≤ refIntMax + 1)) ∧
      (orig < refIntMax / 4 →
        (Grows t.sizePer orig (cellGrowth t orig) ↔
          t.sizePer ≤ 4 ∨ 5 * orig / 2 ≤ refIntMax / t.sizePer)) ∧
      (node ≤ refIntMax → orig ≤ node →
        ((∃ max, adjNodeGrowth orig node = .ok max ∧ orig < max ∧ node < max) ↔
          node < refIntMax ∧ node + 100 ≤ refIntMax + orig)) ∧
      (orig < refIntMax → Grows 1 orig (adjItemGrowth orig)) ∧
      (orig < refIntMax / 3 →
        (Grows 6 orig (geomGrowth orig) ↔ 5 * orig / 2 ≤ refIntMax / 6)) :=
  ⟨fun _ => nodesGrow_iff, cellGrowth_grows, adjNodeGrowth_grows, adjItemGrowth_grows,
    geomGrowth_grows⟩

/-- Sizes that the limits admit and at which a growth leaves `REF_INT`: the
nodes, the hexes, the last node index and the geometry. -/
theorem stores_grow_overflow :
    ¬ NodesGrow 0 57266231 ∧
      ¬ Grows 8 107374183 (cellGrowth .hex 107374183) ∧
      (¬ ∃ max, adjNodeGrowth 10 refIntMax = .ok max ∧ 10 < max ∧ refIntMax < max) ∧
      ¬ Grows 6 143165577 (geomGrowth 143165577) := by
  refine ⟨?_, ?_, ?_, ?_⟩
  · rw [nodesGrow_iff]
    decide
  · intro h
    have hsize := (cellGrowth_grows (t := .hex) (by decide)).mp h
    revert hsize
    decide
  · rw [adjNodeGrowth_grows le_rfl (by decide)]
    decide
  · rw [geomGrowth_grows (by decide)]
    decide

end RefineMesh
