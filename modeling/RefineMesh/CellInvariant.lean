import Mathlib.Tactic
import RefineMesh.Cell
import RefineMesh.ArrayLoops

/-!
# The representation invariant of the cell store

The adjacency is described by a multiplicity: how often the list of a node
holds a cell.  In a store that satisfies `CellInv` this is the number of times
the node occurs in the cell, and nothing for an invalid row.  The loops that
register and unregister a cell pass through states in between, so their lemmas
are stated for any multiplicity.
-/

namespace RefineMesh

open SlotList

/-- The lists of `adj` hold cell `c` on node `v` exactly `reg c v` times, and
nothing but cells. -/
structure Registers (adj : RefAdj) (reg : Nat → Int → Nat) : Prop where
  inv : adj.AdjInv
  count : ∀ (v : Int) (c : Nat), (adj.refs v).count (c : Int) = reg c v
  cells : ∀ v, ∀ r ∈ adj.refs v, 0 ≤ r

theorem Registers.congr {adj : RefAdj} {reg reg' : Nat → Int → Nat} (h : Registers adj reg)
    (heq : ∀ c v, reg' c v = reg c v) : Registers adj reg' :=
  ⟨h.inv, fun v c => (h.count v c).trans (heq c v).symm, h.cells⟩

theorem Registers.add {adj adj' : RefAdj} {reg : Nat → Int → Nat} {v : Int} {c : Nat}
    (h : Registers adj reg) (hrun : adj.add v c = .ok adj') :
    0 ≤ v ∧ Registers adj' (fun c' w => reg c' w + if c' = c ∧ w = v then 1 else 0) := by
  obtain ⟨hv, hinv, hself, hother⟩ := RefAdj.add_spec h.inv hrun
  refine ⟨hv, hinv, fun w c' => ?_, fun w r hr => ?_⟩
  · by_cases hw : w = v
    · subst hw
      rw [hself, List.count_cons, h.count]
      grind
    · rw [hother w hw, h.count]
      simp [hw]
  · by_cases hw : w = v
    · subst hw
      rw [hself] at hr
      rcases List.mem_cons.mp hr with rfl | hr'
      · exact Int.natCast_nonneg c
      · exact h.cells w r hr'
    · rw [hother w hw] at hr
      exact h.cells w r hr

theorem Registers.remove {adj : RefAdj} {reg : Nat → Int → Nat} {v : Int} {c : Nat}
    (h : Registers adj reg) (hpos : 0 < reg c v) :
    ∃ adj', adj.remove v c = .ok adj' ∧
      Registers adj' (fun c' w => reg c' w - if c' = c ∧ w = v then 1 else 0) ∧
      adj'.blank ≠ refEmpty ∧ adj'.nnode = adj.nnode := by
  have hmem : (c : Int) ∈ adj.refs v := by
    apply List.count_pos_iff.mp
    rw [h.count]
    exact hpos
  obtain ⟨adj', hrun, hinv, hblank, hself, hother, hnnode, _⟩ := RefAdj.remove_spec h.inv hmem
  refine ⟨adj', hrun, ⟨hinv, fun w c' => ?_, fun w r hr => ?_⟩, hblank, hnnode⟩
  · by_cases hw : w = v
    · subst hw
      rw [hself, List.count_erase, h.count]
      grind
    · rw [hother w hw, h.count]
      simp [hw]
  · by_cases hw : w = v
    · subst hw
      rw [hself] at hr
      exact h.cells w r (List.mem_of_mem_erase hr)
    · rw [hother w hw] at hr
      exact h.cells w r hr

/-- The loop that registers a cell with its nodes. -/
theorem Registers.addAll {c : Nat} :
    ∀ {l : List Int} {adj adj' : RefAdj} {reg : Nat → Int → Nat}, Registers adj reg →
      l.foldlM (fun adj v => adj.add v c) adj = .ok adj' →
      (∀ v ∈ l, 0 ≤ v) ∧
        Registers adj' (fun c' w => reg c' w + if c' = c then l.count w else 0) := by
  intro l
  induction l with
  | nil =>
      intro adj adj' reg h hrun
      simp only [List.foldlM_nil, pure, Except.pure, Except.ok.injEq] at hrun
      subst hrun
      exact ⟨fun v hv => absurd hv List.not_mem_nil, h.congr fun c' w => by simp⟩
  | cons v rest ih =>
      intro adj adj' reg h hrun
      rw [List.foldlM_cons, bind_eq_ok] at hrun
      obtain ⟨adj1, hadd, hrest⟩ := hrun
      obtain ⟨hv, h1⟩ := h.add hadd
      obtain ⟨hvs, h2⟩ := ih h1 hrest
      refine ⟨?_, h2.congr fun c' w => ?_⟩
      · intro w hw
        rcases List.mem_cons.mp hw with rfl | hw'
        · exact hv
        · exact hvs w hw'
      · rw [List.count_cons]
        grind

/-- The loop that unregisters a cell never fails when the cell is registered. -/
theorem Registers.removeAll {c : Nat} :
    ∀ {l : List Int} {adj : RefAdj} {reg : Nat → Int → Nat}, Registers adj reg →
      (∀ w, l.count w ≤ reg c w) →
      ∃ adj', l.foldlM (fun adj v => adj.remove v c) adj = .ok adj' ∧
        Registers adj' (fun c' w => reg c' w - if c' = c then l.count w else 0) := by
  intro l
  induction l with
  | nil =>
      intro adj reg h _
      exact ⟨adj, rfl, h.congr fun c' w => by simp⟩
  | cons v rest ih =>
      intro adj reg h hle
      have hpos : 0 < reg c v := by
        have := hle v
        rw [List.count_cons_self] at this
        omega
      obtain ⟨adj1, hrun, h1, _⟩ := h.remove hpos
      obtain ⟨adj2, hrest, h2⟩ := ih h1 fun w => by
        have := hle w
        rw [List.count_cons] at this
        grind
      refine ⟨adj2, ?_, h2.congr fun c' w => ?_⟩
      · rw [List.foldlM_cons, bind_eq_ok]
        exact ⟨adj1, hrun, hrest⟩
      · rw [List.count_cons]
        grind

namespace RefCell

/-- How often node `v` occurs in row `c`, and zero for an invalid row. -/
def occupancy (s : RefCell) (c : Nat) (v : Int) : Nat :=
  if s.Live c then (s.nodeList c).count v else 0

/-- The invariant of the cell store. -/
structure CellInv (s : RefCell) : Prop where
  registers : Registers s.adj s.occupancy
  nonneg : ∀ c, s.Live c → ∀ v ∈ s.nodeList c, 0 ≤ v
  blank : FreeList plainLink refEmpty (fun c => s.c2n c 1) s.blank (fun c => c < s.max ∧ ¬ s.Live c)
  count : liveCount s.max s.Live = s.n
  fits : s.sizePer * s.max ≤ refIntMax

theorem mem_nodeList {s : RefCell} {c : Nat} {v : Int} :
    v ∈ s.nodeList c ↔ ∃ i, i < s.nodePer ∧ s.c2n c i = v := by
  simp [nodeList]

theorem length_nodeList (s : RefCell) (c : Nat) : (s.nodeList c).length = s.nodePer := by
  simp [nodeList]

theorem nodePer_pos (s : RefCell) : 0 < s.nodePer := by
  have := s.cellType.two_le_nodePer
  unfold nodePer
  omega

theorem c2n_mem_nodeList (s : RefCell) (c : Nat) {i : Nat} (hi : i < s.nodePer) :
    s.c2n c i ∈ s.nodeList c :=
  mem_nodeList.mpr ⟨i, hi, rfl⟩

/-- An adjacency list holds exactly the cells that have the node. -/
theorem CellInv.mem_refs_iff {s : RefCell} (h : s.CellInv) {v r : Int} :
    r ∈ s.adj.refs v ↔ ∃ c : Nat, r = c ∧ s.Live c ∧ v ∈ s.nodeList c := by
  constructor
  · intro hr
    have hpos := h.registers.cells v r hr
    obtain ⟨c, rfl⟩ := Int.eq_ofNat_of_zero_le hpos
    have hcount : 0 < s.occupancy c v := by
      rw [← h.registers.count v c]
      exact List.count_pos_iff.mpr hr
    unfold occupancy at hcount
    by_cases hlive : s.Live c
    · rw [if_pos hlive] at hcount
      exact ⟨c, rfl, hlive, List.count_pos_iff.mp hcount⟩
    · simp [hlive] at hcount
  · intro hc
    obtain ⟨c, rfl, hlive, hv⟩ := hc
    apply List.count_pos_iff.mp
    rw [h.registers.count v c, occupancy, if_pos hlive]
    exact List.count_pos_iff.mpr hv

/-! ## Creation -/

theorem linkRows_live_iff {orig size : Nat} {c2n : Nat → Nat → Int} {k : Nat} :
    linkRows orig size c2n k 0 ≠ refEmpty ↔ ¬ (orig ≤ k ∧ k < size) ∧ c2n k 0 ≠ refEmpty := by
  simp only [linkRows, if_true]
  split <;> simp_all

theorem linkRows_old {orig size : Nat} (c2n : Nat → Nat → Int) {k : Nat} (hlt : orig < size)
    (hk : k < orig) : linkRows orig size c2n k = c2n k := by
  funext i
  simp only [linkRows]
  split
  · rename_i hi
    rw [hi, if_neg (by omega)]
  · split
    · rename_i hi
      rw [hi]
      exact linkFresh_old hlt hk
    · rfl

theorem create_dead (mem : RefCell) (t : CellType) (c : Nat) : ¬ (create mem t).Live c := by
  intro hc
  exact (linkRows_live_iff.mp hc.2).1 ⟨Nat.zero_le c, hc.1⟩

theorem create_inv (mem : RefCell) (t : CellType) : (create mem t).CellInv := by
  have hdead := create_dead mem t
  have hadj := RefAdj.create_inv mem.adj
  refine ⟨⟨hadj.1, fun v c => ?_, fun v r hr => ?_⟩, fun c hc => absurd hc (hdead c), ?_, ?_, ?_⟩
  · rw [occupancy, if_neg (hdead c), show (create mem t).adj = RefAdj.create mem.adj from rfl,
      RefAdj.refs, hadj.2 v]
    rfl
  · rw [show (create mem t).adj = RefAdj.create mem.adj from rfl, RefAdj.refs, hadj.2 v] at hr
    cases hr
  · refine (freeList_linkFresh plainLink refEmpty (fun k => mem.c2n k 1)
      (show 0 < 100 by omega)).congr (fun c => ?_) (fun c _ => rfl)
    have := hdead c
    change c < 100 ∧ _ ↔ _
    simp [this]
  · simp only [liveCount, hdead, Finset.filter_false, Finset.card_empty]
    rfl
  · change t.sizePer * 100 ≤ refIntMax
    cases t <;> decide

/-! ## Adding a cell -/

/-- Growing adds blank rows and changes no cell. -/
theorem grow_spec {s s' : RefCell} (h : s.CellInv) (hrun : s.grow = .ok s') :
    s'.CellInv ∧ s'.blank ≠ refEmpty ∧ (∀ c, s'.Live c ↔ s.Live c) ∧
      (∀ c, s.Live c → s'.c2n c = s.c2n c) ∧ s'.cellType = s.cellType ∧ s'.n = s.n ∧
      s'.adj = s.adj := by
  by_cases hblank : s.blank = refEmpty
  swap
  · simp only [grow, hblank, ne_eq, not_false_iff, if_true, Except.ok.injEq] at hrun
    subst hrun
    exact ⟨h, hblank, fun _ => Iff.rfl, fun _ _ => rfl, rfl, rfl, rfl⟩
  by_cases hlimit : s.max = refIntMax / 4
  · simp [grow, hblank, hlimit] at hrun
  by_cases hlimit' : refIntMax / 4 ≤ s.max
  · simp [grow, hblank, hlimit, hlimit'] at hrun
  simp only [grow, hblank, hlimit, hlimit', ne_eq, not_true, if_false] at hrun
  set size := s.max + Nat.min (Nat.max 5000 (3 * s.max / 2)) (refIntMax / 4 - s.max) with hsize
  by_cases hover : refIntMax < s.sizePer * size
  · simp [hover] at hrun
  simp only [hover, if_false, Except.ok.injEq] at hrun
  have hlt : s.max < size := by
    have hchunk : 0 < Nat.min (Nat.max 5000 (3 * s.max / 2)) (refIntMax / 4 - s.max) := by
      have : 5000 ≤ Nat.max 5000 (3 * s.max / 2) := Nat.le_max_left _ _
      exact Nat.lt_min.mpr ⟨by omega, by omega⟩
    omega
  -- with the blank list exhausted every old row is a cell
  have hfull : ∀ c, c < s.max → s.Live c := by
    intro c hc
    by_contra hdead
    exact (h.blank.eq_stop_iff plainLink_ne_refEmpty).mp hblank c ⟨hc, hdead⟩
  have hold : ∀ c, c < s.max → s'.c2n c = s.c2n c := by
    intro c hc
    rw [← hrun]
    exact linkRows_old s.c2n hlt hc
  have hmax : s'.max = size := by rw [← hrun]
  have htype : s'.cellType = s.cellType := by rw [← hrun]
  have hlive : ∀ c, s'.Live c ↔ s.Live c := by
    intro c
    by_cases hc : c < s.max
    · unfold Live
      rw [hold c hc, hmax]
      exact ⟨fun hl => ⟨hc, hl.2⟩, fun hl => ⟨hc.trans hlt, hl.2⟩⟩
    · constructor
      · intro hl
        have hl' := hl.2
        have hbound := hl.1
        rw [hmax] at hbound
        rw [← hrun] at hl'
        exact absurd ⟨by omega, hbound⟩ (linkRows_live_iff.mp hl').1
      · intro hl
        exact absurd hl.1 hc
  have hnodes : ∀ c, s.Live c → s'.nodeList c = s.nodeList c := by
    intro c hc
    unfold nodeList nodePer
    rw [hold c hc.1, htype]
  refine ⟨⟨?_, ?_, ?_, ?_, ?_⟩, ?_, hlive, fun c hc => hold c hc.1, htype, by rw [← hrun],
    by rw [← hrun]⟩
  · have hadj : s'.adj = s.adj := by rw [← hrun]
    rw [hadj]
    refine h.registers.congr fun c v => ?_
    unfold occupancy
    by_cases hc : s.Live c
    · rw [if_pos hc, if_pos ((hlive c).mpr hc), hnodes c hc]
    · rw [if_neg hc, if_neg fun hl => hc ((hlive c).mp hl)]
  · intro c hc
    rw [hnodes c ((hlive c).mp hc)]
    exact h.nonneg c ((hlive c).mp hc)
  · have hseg := freeList_linkFresh plainLink refEmpty (fun k => s.c2n k 1) hlt
    have hb : s'.blank = plainLink s.max := by rw [← hrun]; rfl
    rw [hb, hmax]
    refine hseg.congr (fun c => ?_) (fun c _ => by rw [← hrun]; rfl)
    rw [hlive c]
    constructor
    · intro hc
      exact ⟨by by_contra hlt'; exact hc.2 (hfull c (by omega)), hc.1⟩
    · intro hc
      exact ⟨hc.2, fun hl => absurd hl.1 (by omega)⟩
  · have hn : s'.n = s.n := by rw [← hrun]
    rw [hn, ← h.count]
    refine liveCount_congr fun c => ?_
    rw [hlive c]
    exact ⟨fun hc => ⟨hc.2.1, hc.2⟩, fun hc => ⟨((hlive c).mpr hc.2).1, hc.2⟩⟩
  · have hsz : s'.sizePer = s.sizePer := by unfold sizePer; rw [htype]
    rw [hsz, hmax]
    omega
  · rw [← hrun]
    exact natCast_ne_refEmpty _

/-- **`ref_cell_add`** fills a row that was not a cell and changes no other
cell. -/
theorem add_spec {s s' : RefCell} {nodes : Nat → Int} {cell : Nat} (h : s.CellInv)
    (hrun : s.add nodes = .ok (s', cell)) :
    s'.CellInv ∧ ¬ s.Live cell ∧ (∀ c, s'.Live c ↔ s.Live c ∨ c = cell) ∧
      (∀ i, i < s.sizePer → s'.c2n cell i = nodes i) ∧
      (∀ c, s.Live c → s'.c2n c = s.c2n c) ∧ s'.cellType = s.cellType ∧ s'.n = s.n + 1 := by
  simp only [add, bind_eq_ok, Except.ok.injEq, Prod.mk.injEq] at hrun
  obtain ⟨s1, hgrow, adj, hadj, hs', hcell⟩ := hrun
  obtain ⟨h1, hblank, hlive1, hold1, htype1, hn1, _⟩ := grow_spec h hgrow
  obtain ⟨k, hk, hfree, hrest⟩ := h1.blank.pop hblank
  have hkc : k = cell := by rw [← hcell, hk, toNat_plainLink]
  subst hkc
  rw [hcell] at hs' hadj
  rw [← List.foldlM_map (f := nodes) (g := fun adj v => RefAdj.add adj v (k : Int))] at hadj
  obtain ⟨hnonneg, hreg⟩ := h1.registers.addAll hadj
  have htype : s'.cellType = s1.cellType := by rw [← hs']
  have hper : s'.nodePer = s1.nodePer := by unfold nodePer; rw [htype]
  have hmax : s'.max = s1.max := by rw [← hs']
  have hother : ∀ c, c ≠ k → s'.c2n c = s1.c2n c := by
    intro c hc
    rw [← hs']
    exact Function.update_of_ne hc _ _
  have hself : ∀ i, i < s1.sizePer → s'.c2n k i = nodes i := by
    intro i hi
    rw [← hs']
    simp [hi]
  have hsize := s1.cellType.nodePer_le_sizePer
  have hnodesk : s'.nodeList k = (List.range s1.nodePer).map nodes := by
    unfold nodeList
    rw [hper]
    apply List.map_congr_left
    intro i hi
    exact hself i (lt_of_lt_of_le (List.mem_range.mp hi) hsize)
  have hlivek : s'.Live k := by
    refine ⟨by rw [hmax]; exact hfree.1, fun hempty => ?_⟩
    have hpos := s1.nodePer_pos
    rw [hself 0 (lt_of_lt_of_le hpos hsize)] at hempty
    have h0 := hnonneg (nodes 0) (List.mem_map.mpr ⟨0, List.mem_range.mpr hpos, rfl⟩)
    rw [hempty] at h0
    simp [refEmpty] at h0
  have hlive : ∀ c, s'.Live c ↔ s1.Live c ∨ c = k := by
    intro c
    by_cases hc : c = k
    · subst hc
      simp [hlivek]
    · unfold Live
      rw [hmax, hother c hc]
      simp [hc]
  have hnodes : ∀ c, c ≠ k → s'.nodeList c = s1.nodeList c := by
    intro c hc
    unfold nodeList
    rw [hper, hother c hc]
  refine ⟨⟨?_, ?_, ?_, ?_, ?_⟩, fun hl => hfree.2 ((hlive1 k).mpr hl), fun c => ?_, fun i hi => ?_,
    fun c hc => ?_, htype.trans htype1, by rw [← hs', ← hn1]⟩
  · have hadj' : s'.adj = adj := by rw [← hs']
    rw [hadj']
    refine hreg.congr fun c v => ?_
    unfold occupancy
    by_cases hc : c = k
    · subst hc
      rw [if_pos hlivek, if_neg hfree.2, if_pos rfl, hnodesk, Nat.zero_add]
    · rw [if_neg hc, hnodes c hc, Nat.add_zero]
      by_cases hl : s1.Live c
      · rw [if_pos hl, if_pos ((hlive c).mpr (Or.inl hl))]
      · rw [if_neg hl, if_neg fun hl' => ((hlive c).mp hl').elim hl hc]
  · intro c hc v hv
    by_cases hck : c = k
    · subst hck
      rw [hnodesk] at hv
      exact hnonneg v hv
    · rw [hnodes c hck] at hv
      exact h1.nonneg c (((hlive c).mp hc).resolve_right hck) v hv
  · have hb : s'.blank = s1.c2n k 1 := by rw [← hs']
    rw [hb]
    refine hrest.congr (fun c => ?_) (fun c hc => by rw [hother c hc.2])
    rw [hmax, hlive c]
    tauto
  · rw [hmax, liveCount_insert hfree.1 hfree.2 hlive, h1.count, ← hs']
  · rw [hmax]
    unfold sizePer
    rw [htype]
    exact h1.fits
  · rw [hlive c, hlive1 c]
  · exact hself i (by unfold sizePer at hi ⊢; rw [htype1]; exact hi)
  · have hck : c ≠ k := fun e => hfree.2 ((hlive1 k).mpr (e ▸ hc))
    rw [hother c hck, hold1 c hc]

/-! ## Removing a cell -/

/-- **`ref_cell_remove`** succeeds on every cell and leaves the others alone. -/
theorem remove_spec {s : RefCell} {cell : Nat} (h : s.CellInv) (hlive : s.Live cell) :
    ∃ s', s.remove cell = .ok s' ∧ s'.CellInv ∧ (∀ c, s'.Live c ↔ s.Live c ∧ c ≠ cell) ∧
      (∀ c, c ≠ cell → s'.c2n c = s.c2n c) ∧ s'.cellType = s.cellType ∧ s'.n = s.n - 1 ∧
      s'.max = s.max := by
  obtain ⟨adj, hadj, hreg⟩ := h.registers.removeAll (c := cell) (l := s.nodeList cell) fun w => by
    rw [occupancy, if_pos hlive]
  have hloop : (List.range s.nodePer).foldlM
      (fun adj node => RefAdj.remove adj (s.c2n cell node) (cell : Int)) s.adj = .ok adj := by
    rw [← List.foldlM_map (f := s.c2n cell) (g := fun adj v => RefAdj.remove adj v (cell : Int))]
    exact hadj
  set row : Nat → Int := fun node =>
    if node = 0 then refEmpty else if node = 1 then s.blank else s.c2n cell node with hrow
  set s' : RefCell := { s with
    n := s.n - 1
    adj := adj
    c2n := Function.update s.c2n cell row
    blank := cell } with hs'
  have hrun : s.remove cell = .ok s' := by
    simp only [remove, hlive, not_true, if_false, hloop]
    rfl
  have hother : ∀ c, c ≠ cell → s'.c2n c = s.c2n c := fun c hc => Function.update_of_ne hc _ _
  have hself : s'.c2n cell = row := Function.update_self _ _ _
  have hdead : ¬ s'.Live cell := by
    intro hl
    exact hl.2 (by rw [hself]; rfl)
  have hlv : ∀ c, s'.Live c ↔ s.Live c ∧ c ≠ cell := by
    intro c
    by_cases hc : c = cell
    · subst hc
      simp [hdead]
    · unfold Live
      rw [hother c hc]
      simp [hc, hs']
  have hnodes : ∀ c, c ≠ cell → s'.nodeList c = s.nodeList c := by
    intro c hc
    unfold nodeList
    rw [hother c hc]
    rfl
  refine ⟨s', hrun, ⟨?_, ?_, ?_, ?_, h.fits⟩, hlv, hother, rfl, rfl, rfl⟩
  · refine hreg.congr fun c v => ?_
    unfold occupancy
    by_cases hc : c = cell
    · subst hc
      rw [if_neg hdead, if_pos hlive, if_pos rfl, Nat.sub_self]
    · rw [if_neg hc, Nat.sub_zero, hnodes c hc]
      by_cases hl : s.Live c
      · rw [if_pos hl, if_pos ((hlv c).mpr ⟨hl, hc⟩)]
      · rw [if_neg hl, if_neg fun hl' => hl ((hlv c).mp hl').1]
  · intro c hc v hv
    have hc' := (hlv c).mp hc
    rw [hnodes c hc'.2] at hv
    exact h.nonneg c hc'.1 v hv
  · have hpush := h.blank.push (k := cell) fun hfree => hfree.2 hlive
    refine hpush.congr (fun c => ?_) (fun c _ => ?_)
    · change c < s.max ∧ _ ↔ _
      rw [hlv c]
      by_cases hc : c = cell
      · subst hc
        simp [hlive.1]
      · simp [hc]
    · by_cases hc : c = cell
      · subst hc
        rw [Function.update_self, hself]
        rfl
      · rw [Function.update_of_ne hc, hother c hc]
  · have hcount := liveCount_erase hlive.1 hlive hlv
    have := h.count
    change liveCount s.max s'.Live = s.n - 1
    omega

/-! ## Replacing nodes -/

theorem map_range_update (f : Nat → Int) (m i : Nat) (x : Int) :
    (List.range m).map (Function.update f i x) = ((List.range m).map f).set i x := by
  apply List.ext_getElem
  · simp
  · intro k hk _
    simp only [List.getElem_map, List.getElem_range, List.getElem_set, Function.update_apply]
    simp [eq_comm]

/-- One replaced entry: the cell has the new node there and every other entry
of the table is as before. -/
theorem replaceEntry_spec {s s' : RefCell} {cell i : Nat} {x : Int} (h : s.CellInv)
    (hlive : s.Live cell) (hi : i < s.nodePer) (hrun : s.replaceEntry cell i x = .ok s') :
    s'.CellInv ∧ 0 ≤ x ∧ (∀ c, s'.Live c ↔ s.Live c) ∧
      s'.c2n = Function.update s.c2n cell (Function.update (s.c2n cell) i x) ∧
      s'.cellType = s.cellType ∧ s'.n = s.n ∧ s'.max = s.max := by
  have hpos : 0 < s.occupancy cell (s.c2n cell i) := by
    rw [occupancy, if_pos hlive]
    exact List.count_pos_iff.mpr (s.c2n_mem_nodeList cell hi)
  obtain ⟨adj1, hremove, hreg1, _⟩ := h.registers.remove hpos
  simp only [replaceEntry, bind_eq_ok, hremove, Except.ok.injEq, exists_eq_left'] at hrun
  obtain ⟨adj2, hadd, hs'⟩ := hrun
  obtain ⟨hx, hreg2⟩ := hreg1.add hadd
  have hc2n : s'.c2n = Function.update s.c2n cell (Function.update (s.c2n cell) i x) := by
    rw [← hs']
  have hother : ∀ c, c ≠ cell → s'.c2n c = s.c2n c := by
    intro c hc
    rw [hc2n, Function.update_of_ne hc]
  have hnodesOther : ∀ c, c ≠ cell → s'.nodeList c = s.nodeList c := by
    intro c hc
    unfold nodeList nodePer
    rw [hother c hc, ← hs']
  have hnodes : s'.nodeList cell = (s.nodeList cell).set i x := by
    unfold nodeList nodePer
    rw [hc2n, Function.update_self, ← hs', map_range_update]
  have hlv : ∀ c, s'.Live c ↔ s.Live c := by
    intro c
    by_cases hc : c = cell
    · subst hc
      refine ⟨fun _ => hlive, fun _ => ⟨by rw [← hs']; exact hlive.1, ?_⟩⟩
      rw [hc2n, Function.update_self, Function.update_apply]
      split
      · intro he
        rw [he] at hx
        simp [refEmpty] at hx
      · exact hlive.2
    · unfold Live
      rw [hother c hc, ← hs']
  refine ⟨⟨?_, ?_, ?_, ?_, ?_⟩, hx, hlv, hc2n, by rw [← hs'], by rw [← hs'], by rw [← hs']⟩
  · have hadj : s'.adj = adj2 := by rw [← hs']
    rw [hadj]
    refine hreg2.congr fun c v => ?_
    unfold occupancy
    by_cases hc : c = cell
    · subst hc
      have hlen : i < (s.nodeList c).length := by rw [length_nodeList]; exact hi
      have hget : (s.nodeList c)[i] = s.c2n c i := by simp [nodeList]
      rw [if_pos ((hlv c).mpr hlive), if_pos hlive, hnodes, List.count_set hlen, hget]
      grind
    · rw [hnodesOther c hc]
      simp only [hc, false_and, if_false, Nat.sub_zero, Nat.add_zero]
      by_cases hl : s.Live c
      · rw [if_pos hl, if_pos ((hlv c).mpr hl)]
      · rw [if_neg hl, if_neg fun hl' => hl ((hlv c).mp hl')]
  · intro c hc v hv
    by_cases hck : c = cell
    · subst hck
      rw [hnodes] at hv
      rcases List.mem_or_eq_of_mem_set hv with hv' | rfl
      · exact h.nonneg c hlive v hv'
      · exact hx
    · rw [hnodesOther c hck] at hv
      exact h.nonneg c ((hlv c).mp hc) v hv
  · have hb : s'.blank = s.blank := by rw [← hs']
    have hmax : s'.max = s.max := by rw [← hs']
    rw [hb, hmax]
    refine h.blank.congr (fun c => by rw [hlv c]) (fun c hc => ?_)
    have hck : c ≠ cell := fun e => hc.2 (e ▸ hlive)
    rw [hother c hck]
  · have hn : s'.n = s.n := by rw [← hs']
    have hmax : s'.max = s.max := by rw [← hs']
    rw [hn, hmax, ← h.count]
    exact liveCount_congr fun c => by rw [hlv c]
  · have hmax : s'.max = s.max := by rw [← hs']
    unfold sizePer
    rw [hmax, ← hs']
    exact h.fits

/-- What a sequence of replaced entries of one cell has done: the first `k`
columns hold what `f` gives, everything else is as before. -/
structure RowRewritten (s s' : RefCell) (cell k : Nat) (f : Nat → Int) : Prop where
  inv : s'.CellInv
  live : ∀ c, s'.Live c ↔ s.Live c
  row : ∀ i, s'.c2n cell i = if i < k then f i else s.c2n cell i
  others : ∀ c, c ≠ cell → s'.c2n c = s.c2n c
  type : s'.cellType = s.cellType
  n : s'.n = s.n
  max : s'.max = s.max

theorem RowRewritten.refl {s : RefCell} (h : s.CellInv) (cell : Nat) (f : Nat → Int) :
    RowRewritten s s cell 0 f :=
  ⟨h, fun _ => Iff.rfl, fun i => by simp, fun _ _ => rfl, rfl, rfl, rfl⟩

theorem RowRewritten.keep {s s' : RefCell} {cell k : Nat} {f : Nat → Int}
    (h : RowRewritten s s' cell k f) (hk : s.c2n cell k = f k) :
    RowRewritten s s' cell (k + 1) f := by
  refine ⟨h.inv, h.live, fun i => ?_, h.others, h.type, h.n, h.max⟩
  rw [h.row i]
  by_cases hi : i = k
  · subst hi
    simp [hk]
  · by_cases hlt : i < k
    · rw [if_pos hlt, if_pos (by omega)]
    · rw [if_neg hlt, if_neg (by omega)]

theorem RowRewritten.step {s s' s'' : RefCell} {cell k : Nat} {f : Nat → Int}
    (h : RowRewritten s s' cell k f) (hlive : s.Live cell) (hk : k < s.nodePer)
    (hrun : s'.replaceEntry cell k (f k) = .ok s'') : RowRewritten s s'' cell (k + 1) f := by
  have hk' : k < s'.nodePer := by unfold nodePer at hk ⊢; rw [h.type]; exact hk
  obtain ⟨hinv, _, hlv, hc2n, htype, hn, hmax⟩ :=
    replaceEntry_spec h.inv ((h.live cell).mpr hlive) hk' hrun
  refine ⟨hinv, fun c => (hlv c).trans (h.live c), fun i => ?_, fun c hc => ?_,
    htype.trans h.type, hn.trans h.n, hmax.trans h.max⟩
  · rw [hc2n, Function.update_self, Function.update_apply, h.row i]
    by_cases hi : i = k
    · subst hi
      simp
    · by_cases hlt : i < k
      · rw [if_neg hi, if_pos hlt, if_pos (by omega)]
      · rw [if_neg hi, if_neg hlt, if_neg (by omega)]
  · rw [hc2n, Function.update_of_ne hc, h.others c hc]

/-- A row whose columns below `node_per` keep their place in the adjacency may
have any id. -/
theorem CellInv.setId {s : RefCell} (h : s.CellInv) (cell i : Nat) (x : Int) (hi : s.nodePer ≤ i) :
    CellInv { s with c2n := Function.update s.c2n cell (Function.update (s.c2n cell) i x) } := by
  set s' : RefCell :=
    { s with c2n := Function.update s.c2n cell (Function.update (s.c2n cell) i x) } with hs'
  have htwo : 2 ≤ s.nodePer := s.cellType.two_le_nodePer
  have hlow : ∀ c j, j < s.nodePer → s'.c2n c j = s.c2n c j := by
    intro c j hj
    by_cases hc : c = cell
    · subst hc
      simp [hs', Function.update_of_ne (show j ≠ i by omega)]
    · simp [hs', Function.update_of_ne hc]
  have hlv : ∀ c, s'.Live c ↔ s.Live c := by
    intro c
    unfold Live
    rw [hlow c 0 (by omega)]
  have hnodes : ∀ c, s'.nodeList c = s.nodeList c := by
    intro c
    apply List.map_congr_left
    intro j hj
    exact hlow c j (List.mem_range.mp hj)
  refine ⟨?_, ?_, ?_, ?_, h.fits⟩
  · refine h.registers.congr fun c v => ?_
    unfold occupancy
    rw [hnodes c]
    by_cases hl : s.Live c
    · rw [if_pos hl, if_pos ((hlv c).mpr hl)]
    · rw [if_neg hl, if_neg fun hl' => hl ((hlv c).mp hl')]
  · intro c hc v hv
    rw [hnodes c] at hv
    exact h.nonneg c ((hlv c).mp hc) v hv
  · exact h.blank.congr (fun c => by rw [hlv c]) (fun c _ => hlow c 1 (by omega))
  · rw [show s'.n = s.n from rfl, ← h.count]
    exact liveCount_congr fun c => by rw [hlv c]

/-- **`ref_cell_replace_whole`** overwrites the row of one cell. -/
theorem replaceWhole_spec {s s' : RefCell} {cell : Nat} {nodes : Nat → Int} (h : s.CellInv)
    (hrun : s.replaceWhole cell nodes = .ok s') :
    s.Live cell ∧ s'.CellInv ∧ (∀ c, s'.Live c ↔ s.Live c) ∧
      (∀ i, i < s.sizePer → s'.c2n cell i = nodes i) ∧ (∀ c, c ≠ cell → s'.c2n c = s.c2n c) ∧
      s'.cellType = s.cellType ∧ s'.n = s.n ∧ s'.max = s.max := by
  by_cases hlive : s.Live cell
  swap
  · simp [replaceWhole, hlive] at hrun
  simp only [replaceWhole, hlive, not_true, if_false, bind_eq_ok] at hrun
  obtain ⟨s1, hloop, hret⟩ := hrun
  have hrow : RowRewritten s s1 cell s.nodePer nodes := by
    have hrule := ArrayLoop.foldlM_inv
      (P := fun done rest st => done ++ rest = List.range s.nodePer ∧
        RowRewritten s st cell done.length nodes)
      (fun done i rest st st' hP hst => ?_) ⟨List.nil_append _, RowRewritten.refl h cell nodes⟩ hloop
    · simpa using hrule.2
    · obtain ⟨hsplit, hP⟩ := hP
      have hi := ArrayLoop.range_split hsplit
      refine ⟨by simpa using hsplit, ?_⟩
      rw [List.length_append, List.length_singleton]
      rw [hi.1] at hst
      exact hP.step hlive hi.2 hst
  have hsz : s.sizePer = s.nodePer + if s.cellType.lastNodeIsAnId then 1 else 0 := rfl
  have hsz1 : s1.sizePer = s.sizePer := by unfold sizePer; rw [hrow.type]
  have hper1 : s1.nodePer = s.nodePer := by unfold nodePer; rw [hrow.type]
  by_cases hid : s1.cellType.lastNodeIsAnId = true
  · rw [if_pos hid, Except.ok.injEq, hsz1] at hret
    rw [← hrow.type, if_pos hid] at hsz
    have hper : s1.nodePer ≤ s.sizePer - 1 := by omega
    refine ⟨hlive, ?_, fun c => ?_, fun i hi => ?_, fun c hc => ?_, ?_, ?_, ?_⟩
    · rw [← hret]
      exact hrow.inv.setId cell _ _ hper
    · rw [← hrow.live c, ← hret]
      have hpos := s1.nodePer_pos
      unfold Live
      by_cases hc : c = cell
      · subst hc
        simp [Function.update_of_ne (show 0 ≠ s.sizePer - 1 by omega)]
      · simp [Function.update_of_ne hc]
    · rw [← hret]
      simp only [Function.update_self, Function.update_apply]
      by_cases hlast : i = s.sizePer - 1
      · rw [if_pos hlast, hlast]
      · rw [if_neg hlast, hrow.row i, if_pos (by omega)]
    · rw [← hret, ← hrow.others c hc]
      exact Function.update_of_ne hc _ _
    · rw [← hret]; exact hrow.type
    · rw [← hret]; exact hrow.n
    · rw [← hret]; exact hrow.max
  · rw [if_neg hid, Except.ok.injEq] at hret
    rw [← hrow.type, if_neg hid, Nat.add_zero] at hsz
    subst hret
    refine ⟨hlive, hrow.inv, hrow.live, fun i hi => ?_, hrow.others, hrow.type, hrow.n, hrow.max⟩
    rw [hrow.row i, if_pos (by omega)]

/-- A node of a live cell is in reach of the adjacency. -/
theorem CellInv.lt_nnode {s : RefCell} (h : s.CellInv) {c : Nat} (hlive : s.Live c) {v : Int}
    (hv : v ∈ s.nodeList c) : 0 ≤ v ∧ v.toNat < s.adj.nnode := by
  have hmem : (c : Int) ∈ s.adj.refs v := h.mem_refs_iff.mpr ⟨c, rfl, hlive, hv⟩
  have hfirst : s.adj.firstItem v ≠ refEmpty := by
    intro he
    rw [RefAdj.refs, RefAdj.items_eq_nil_of_first he] at hmem
    cases hmem
  have hin : 0 ≤ v ∧ v < s.adj.nnode := by
    by_contra hout
    exact hfirst (if_neg hout)
  exact ⟨hin.1, by omega⟩

/-- A replaced entry needs no memory when the node has been registered before. -/
theorem replaceEntry_within {s : RefCell} {cell i : Nat} {x : Int} (h : s.CellInv)
    (hlive : s.Live cell) (hi : i < s.nodePer) (hx : 0 ≤ x) (hreach : x.toNat < s.adj.nnode) :
    ∃ s', s.replaceEntry cell i x = .ok s' ∧ s'.adj.nnode = s.adj.nnode := by
  have hpos : 0 < s.occupancy cell (s.c2n cell i) := by
    rw [occupancy, if_pos hlive]
    exact List.count_pos_iff.mpr (s.c2n_mem_nodeList cell hi)
  obtain ⟨adj1, hremove, -, hblank, hnnode⟩ := h.registers.remove hpos
  have hnodes : adj1.growNodes x.toNat = .ok adj1 := by
    rw [RefAdj.growNodes, if_pos (by omega)]
  have hitems : adj1.growItems = .ok adj1 := by
    rw [RefAdj.growItems, if_pos hblank]
  have hadd : adj1.add x cell = .ok (adj1.link x.toNat cell) := by
    rw [RefAdj.add, if_neg (by omega), hnodes]
    simp only [bind, Except.bind, hitems]
    rw [if_neg (by omega)]
  refine ⟨{ s with
    c2n := Function.update s.c2n cell (Function.update (s.c2n cell) i x)
    adj := adj1.link x.toNat cell }, ?_, hnnode⟩
  rw [replaceEntry, hremove]
  simp only [bind, Except.bind, hadd]

/-- `ref_cell_replace_whole` succeeds on nodes that have been registered before. -/
theorem replaceWhole_ok {s : RefCell} {cell : Nat} {nodes : Nat → Int} (h : s.CellInv)
    (hlive : s.Live cell)
    (hreach : ∀ i, i < s.nodePer → 0 ≤ nodes i ∧ (nodes i).toNat < s.adj.nnode) :
    ∃ s', s.replaceWhole cell nodes = .ok s' := by
  have hloop := ArrayLoop.foldlM_exists
    (f := fun (s : RefCell) node => s.replaceEntry cell node (nodes node))
    (fun done rest st => done ++ rest = List.range s.nodePer ∧
      RowRewritten s st cell done.length nodes ∧ st.adj.nnode = s.adj.nnode)
    (by
      intro done i rest st hP
      obtain ⟨hsplit, hrow, hnnode⟩ := hP
      have hi := ArrayLoop.range_split hsplit
      have hper : st.nodePer = s.nodePer := by
        unfold nodePer
        rw [hrow.type]
      have hbound := hreach i (by omega)
      obtain ⟨st', hrun, hnnode'⟩ := replaceEntry_within hrow.inv ((hrow.live cell).mpr hlive)
        (show i < st.nodePer by omega) hbound.1 (by omega)
      refine ⟨st', hrun, by simpa using hsplit, ?_, by omega⟩
      rw [List.length_append, List.length_singleton]
      rw [hi.1] at hrun
      exact hrow.step hlive hi.2 hrun)
    (l := List.range s.nodePer) (b := s) ⟨List.nil_append _, RowRewritten.refl h cell nodes, rfl⟩
  obtain ⟨s1, hrun, -⟩ := hloop
  unfold replaceWhole
  rw [if_neg (not_not.mpr hlive), hrun]
  simp only [bind, Except.bind]
  split
  · exact ⟨_, rfl⟩
  · exact ⟨_, rfl⟩

end RefCell

end RefineMesh
