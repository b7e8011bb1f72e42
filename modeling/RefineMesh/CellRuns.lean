import Mathlib.Tactic
import RefineMesh.CellInvariant

/-!
# Runs of the cell store

`ref_cell_replace_node` walks the adjacency list that it takes apart: each
round handles one cell of the list and reads the list again.  The number of
cells that have the old node falls in every round, which bounds the loop and
shows that it ends with none left.

A run is any sequence of successful calls from `ref_cell_create`.
-/

namespace RefineMesh

open SlotList

namespace RefCell

/-! ## Replacing a node everywhere -/

/-- The entry of a row after the old node has been replaced. -/
def swapNode (oldNode newNode x : Int) : Int := if x = oldNode then newNode else x

/-- The inner loop rewrites the occurrences of the old node in one cell. -/
theorem replaceInCell_spec {s s' : RefCell} {cell : Nat} {oldNode newNode : Int} (h : s.CellInv)
    (hlive : s.Live cell) (hrun : s.replaceInCell cell oldNode newNode = .ok s') :
    RowRewritten s s' cell s.nodePer (fun i => swapNode oldNode newNode (s.c2n cell i)) := by
  have hrule := ArrayLoop.foldlM_inv
    (P := fun done rest st => done ++ rest = List.range s.nodePer ∧
      RowRewritten s st cell done.length (fun i => swapNode oldNode newNode (s.c2n cell i)))
    (fun done i rest st st' hP hst => ?_) ⟨List.nil_append _, RowRewritten.refl h cell _⟩ hrun
  · simpa using hrule.2
  · obtain ⟨hsplit, hP⟩ := hP
    have hi := ArrayLoop.range_split hsplit
    refine ⟨by simpa using hsplit, ?_⟩
    rw [List.length_append, List.length_singleton]
    rw [hi.1, hP.row, if_neg (lt_irrefl _)] at hst
    by_cases hold : s.c2n cell done.length = oldNode
    · rw [if_pos hold.symm] at hst
      apply hP.step hlive hi.2
      simp only [swapNode, if_pos hold]
      exact hst
    · rw [if_neg fun e => hold e.symm, Except.ok.injEq] at hst
      subst hst
      apply hP.keep
      simp only [swapNode, if_neg hold]

/-- One entry can be replaced by any node that `ref_adj_add` can take. -/
theorem replaceEntry_ok {s : RefCell} {cell i : Nat} {x : Int} (h : s.CellInv)
    (hlive : s.Live cell) (hi : i < s.nodePer) (hpos : 0 ≤ x) (hfit : x + 100 ≤ refIntMax) :
    ∃ s', s.replaceEntry cell i x = .ok s' := by
  have hocc : 0 < s.occupancy cell (s.c2n cell i) := by
    rw [occupancy, if_pos hlive]
    exact List.count_pos_iff.mpr (s.c2n_mem_nodeList cell hi)
  obtain ⟨adj1, hremove, _, hblank, _⟩ := h.registers.remove hocc
  obtain ⟨adj2, hadd⟩ := RefAdj.add_ok (cell : Int) hblank hpos hfit
  exact ⟨_, bind_eq_ok.mpr ⟨adj1, hremove, bind_eq_ok.mpr ⟨adj2, hadd, rfl⟩⟩⟩

theorem replaceInCell_ok {s : RefCell} {cell : Nat} (oldNode : Int) {newNode : Int} (h : s.CellInv)
    (hlive : s.Live cell) (hpos : 0 ≤ newNode) (hfit : newNode + 100 ≤ refIntMax) :
    ∃ s', s.replaceInCell cell oldNode newNode = .ok s' := by
  suffices haux : ∀ (l : List Nat) (st : RefCell), st.CellInv → st.Live cell →
      (∀ i ∈ l, i < st.nodePer) → ∃ s', l.foldlM (fun s node =>
        if oldNode = s.c2n cell node then s.replaceEntry cell node newNode else .ok s) st
          = .ok s' by
    exact haux _ s h hlive fun i hi => List.mem_range.mp hi
  intro l
  induction l with
  | nil =>
      intro st _ _ _
      exact ⟨st, rfl⟩
  | cons i rest ih =>
      intro st hst hl hmem
      have hi := hmem i List.mem_cons_self
      have hrest : ∀ j ∈ rest, j < st.nodePer := fun j hj => hmem j (List.mem_cons_of_mem _ hj)
      by_cases hold : oldNode = st.c2n cell i
      · obtain ⟨st1, hrun⟩ := replaceEntry_ok hst hl hi hpos hfit
        obtain ⟨hinv, _, hlv, _, htype, _⟩ := replaceEntry_spec hst hl hi hrun
        have hper : st1.nodePer = st.nodePer := by unfold nodePer; rw [htype]
        obtain ⟨s', hs'⟩ := ih st1 hinv ((hlv cell).mpr hl) fun j hj => hper ▸ hrest j hj
        refine ⟨s', ?_⟩
        rw [List.foldlM_cons, bind_eq_ok]
        exact ⟨st1, by rw [if_pos hold]; exact hrun, hs'⟩
      · obtain ⟨s', hs'⟩ := ih st hst hl hrest
        refine ⟨s', ?_⟩
        rw [List.foldlM_cons, bind_eq_ok]
        exact ⟨st, by rw [if_neg hold], hs'⟩

/-- The cells that have the node. -/
def holders (s : RefCell) (v : Int) : Finset Nat :=
  (Finset.range s.max).filter fun c => s.Live c ∧ v ∈ s.nodeList c

theorem CellInv.card_holders_le {s : RefCell} (h : s.CellInv) (v : Int) :
    (s.holders v).card ≤ s.n := by
  rw [← h.count]
  apply Finset.card_le_card
  intro c hc
  have hc' := Finset.mem_filter.mp hc
  exact Finset.mem_filter.mpr ⟨hc'.1, hc'.2.1⟩

/-- The effect of `ref_cell_replace_node`. -/
structure NodeReplaced (s s' : RefCell) (oldNode newNode : Int) : Prop where
  inv : s'.CellInv
  live : ∀ c, s'.Live c ↔ s.Live c
  entry : ∀ c i, s'.c2n c i =
    if s.Live c ∧ i < s.nodePer ∧ s.c2n c i = oldNode then newNode else s.c2n c i
  gone : ∀ c, s'.Live c → oldNode ∉ s'.nodeList c
  type : s'.cellType = s.cellType

/-- One round of the outer loop: the first cell of the list loses the old
node. -/
theorem RowRewritten.round {s s1 : RefCell} {cell : Nat} {oldNode newNode : Int}
    (hne : oldNode ≠ newNode) (hlive : s.Live cell) (hmem : oldNode ∈ s.nodeList cell)
    (h : RowRewritten s s1 cell s.nodePer (fun i => swapNode oldNode newNode (s.c2n cell i))) :
    (s1.holders oldNode).card < (s.holders oldNode).card ∧
      ∀ {s' : RefCell}, NodeReplaced s1 s' oldNode newNode →
        NodeReplaced s s' oldNode newNode := by
  have hper : s1.nodePer = s.nodePer := by unfold nodePer; rw [h.type]
  have hgone : oldNode ∉ s1.nodeList cell := by
    intro hin
    obtain ⟨i, hi, hival⟩ := mem_nodeList.mp hin
    rw [h.row i, if_pos (hper ▸ hi), swapNode] at hival
    split at hival
    · exact hne hival.symm
    · rename_i hx
      exact hx hival
  have hother : ∀ c, c ≠ cell → s1.nodeList c = s.nodeList c := by
    intro c hc
    unfold nodeList
    rw [hper, h.others c hc]
  constructor
  · apply Finset.card_lt_card
    refine Finset.ssubset_iff_subset_ne.mpr ⟨fun c hc => ?_, fun heq => ?_⟩
    · obtain ⟨hcm, hcl, hcn⟩ := Finset.mem_filter.mp hc
      have hck : c ≠ cell := fun e => hgone (e ▸ hcn)
      rw [Finset.mem_range, h.max] at hcm
      exact Finset.mem_filter.mpr
        ⟨Finset.mem_range.mpr hcm, (h.live c).mp hcl, hother c hck ▸ hcn⟩
    · have hin : cell ∈ s.holders oldNode :=
        Finset.mem_filter.mpr ⟨Finset.mem_range.mpr hlive.1, hlive, hmem⟩
      rw [← heq] at hin
      exact hgone (Finset.mem_filter.mp hin).2.2
  · intro s' h'
    refine ⟨h'.inv, fun c => (h'.live c).trans (h.live c), fun c i => ?_, h'.gone,
      h'.type.trans h.type⟩
    simp only [h'.entry c i, h.live c, hper]
    by_cases hc : c = cell
    · subst hc
      rw [h.row i]
      by_cases hi : i < s.nodePer
      · simp only [hi, if_true, swapNode, hlive, true_and]
        by_cases hold : s.c2n c i = oldNode
        · simp [hold, hne.symm]
        · simp [hold]
      · simp [hi]
    · rw [h.others c hc]

/-- The head of a list that is not empty is a cell that has the node. -/
theorem CellInv.firstItem_cell {s : RefCell} (h : s.CellInv) {v : Int}
    (hfirst : s.adj.firstItem v ≠ refEmpty) :
    s.Live (s.adj.itemRef (s.adj.firstItem v).toNat).toNat ∧
      v ∈ s.nodeList (s.adj.itemRef (s.adj.firstItem v).toNat).toNat := by
  have hne : s.adj.items v ≠ [] := fun hnil =>
    hfirst ((h.registers.inv.items_eq_nil_iff v).mp hnil)
  obtain ⟨item, rest, hitems⟩ := List.exists_cons_of_ne_nil hne
  have hchain := h.registers.inv.chain v
  rw [hitems] at hchain
  rw [hchain.1, toNat_plainLink]
  have hmem : s.adj.itemRef item ∈ s.adj.refs v := by simp [RefAdj.refs, hitems]
  obtain ⟨c, hc, hlive, hv⟩ := h.mem_refs_iff.mp hmem
  rw [hc, Int.toNat_natCast]
  exact ⟨hlive, hv⟩

/-- **The loop of `ref_cell_replace_node` ends**, after at most one round for
each cell that has the old node, and then no cell has it. -/
theorem replaceNodeLoop_spec {oldNode newNode : Int} (hne : oldNode ≠ newNode) :
    ∀ (fuel : Nat) (s : RefCell), s.CellInv → (s.holders oldNode).card < fuel →
      ∃ r, replaceNodeLoop oldNode newNode fuel s = some r ∧
        (0 ≤ newNode → newNode + 100 ≤ refIntMax → ∃ s', r = .ok s') ∧
        ∀ s', r = .ok s' → NodeReplaced s s' oldNode newNode := by
  intro fuel
  induction fuel with
  | zero =>
      intro s _ hlt
      exact absurd hlt (Nat.not_lt_zero _)
  | succ fuel ih =>
      intro s h hlt
      by_cases hfirst : s.adj.firstItem oldNode = refEmpty
      · refine ⟨.ok s, by simp [replaceNodeLoop, hfirst], fun _ _ => ⟨s, rfl⟩, fun s' hs' => ?_⟩
        rw [Except.ok.injEq] at hs'
        subst hs'
        -- an empty list: no cell has the node
        have hnone : ∀ c, s.Live c → oldNode ∉ s.nodeList c := by
          intro c hc hin
          have hmem := h.mem_refs_iff.mpr ⟨c, rfl, hc, hin⟩
          rw [RefAdj.refs, RefAdj.items_eq_nil_of_first hfirst] at hmem
          cases hmem
        refine ⟨h, fun _ => Iff.rfl, fun c i => ?_, hnone, rfl⟩
        rw [if_neg]
        intro hcond
        exact hnone c hcond.1 (mem_nodeList.mpr ⟨i, hcond.2.1, hcond.2.2⟩)
      · obtain ⟨hlive, hmem⟩ := h.firstItem_cell hfirst
        set cell := (s.adj.itemRef (s.adj.firstItem oldNode).toNat).toNat with hcell
        cases hround : s.replaceInCell cell oldNode newNode with
        | error status =>
            refine ⟨.error status, by simp [replaceNodeLoop, hfirst, ← hcell, hround],
              fun hpos hfit => ?_, fun s' hs' => by cases hs'⟩
            obtain ⟨s', hok⟩ := replaceInCell_ok oldNode h hlive hpos hfit
            rw [hround] at hok
            cases hok
        | ok s1 =>
            have hrow := replaceInCell_spec h hlive hround
            obtain ⟨hfewer, hcompose⟩ := hrow.round hne hlive hmem
            obtain ⟨r, hr, hok, heffect⟩ := ih s1 hrow.inv (by omega)
            refine ⟨r, by simp only [replaceNodeLoop, hfirst, if_false, ← hcell, hround, hr], hok,
              fun s' hs' => hcompose (heffect s' hs')⟩

/-- More fuel changes nothing once the loop has ended. -/
theorem replaceNodeLoop_mono {oldNode newNode : Int} {r : Except Status RefCell} :
    ∀ (fuel extra : Nat) (s : RefCell), replaceNodeLoop oldNode newNode fuel s = some r →
      replaceNodeLoop oldNode newNode (fuel + extra) s = some r := by
  intro fuel
  induction fuel with
  | zero =>
      intro extra s h
      cases h
  | succ fuel ih =>
      intro extra s h
      rw [Nat.succ_add]
      unfold replaceNodeLoop at h ⊢
      dsimp only at h ⊢
      split
      · rename_i hfirst
        rw [if_pos hfirst] at h
        exact h
      · rename_i hfirst
        rw [if_neg hfirst] at h
        split
        · rename_i s1 hround
          rw [hround] at h
          exact ih extra s1 h
        · rename_i status hround
          rw [hround] at h
          exact h

theorem replaceNode_spec {s : RefCell} (h : s.CellInv) {oldNode newNode : Int}
    (hne : oldNode ≠ newNode) :
    ∃ r, (∀ fuel, s.n < fuel → s.replaceNode oldNode newNode fuel = some r) ∧
      (0 ≤ newNode → newNode + 100 ≤ refIntMax → ∃ s', r = .ok s') ∧
      ∀ s', r = .ok s' → NodeReplaced s s' oldNode newNode := by
  obtain ⟨r, hr, hok, heffect⟩ := replaceNodeLoop_spec hne (s.n + 1) s h
    (Nat.lt_succ_of_le (h.card_holders_le oldNode))
  refine ⟨r, fun fuel hfuel => ?_, hok, heffect⟩
  rw [replaceNode, if_neg hne]
  have hmono := replaceNodeLoop_mono (s.n + 1) (fuel - (s.n + 1)) s hr
  rw [show s.n + 1 + (fuel - (s.n + 1)) = fuel by omega] at hmono
  exact hmono

/-! ## Runs -/

/-- The calls of a run. -/
inductive CellCall where
  | add (nodes : Nat → Int)
  | remove (cell : Nat)
  | replaceWhole (cell : Nat) (nodes : Nat → Int)
  | replaceNode (oldNode newNode : Int)

/-- A call that returns success. -/
def Succeeds (s : RefCell) : CellCall → RefCell → Prop
  | .add nodes, s' => ∃ cell, s.add nodes = .ok (s', cell)
  | .remove cell, s' => s.remove cell = .ok s'
  | .replaceWhole cell nodes, s' => s.replaceWhole cell nodes = .ok s'
  | .replaceNode oldNode newNode, s' =>
      ∃ fuel, s.replaceNode oldNode newNode fuel = some (.ok s')

/-- The stores reached by successful calls. -/
inductive Reaches (start : RefCell) : RefCell → Prop
  | start : Reaches start start
  | call {s s' : RefCell} {c : CellCall} : Reaches start s → s.Succeeds c s' → Reaches start s'

theorem replaceNode_inv {s s' : RefCell} {oldNode newNode : Int} {fuel : Nat} (h : s.CellInv)
    (hrun : s.replaceNode oldNode newNode fuel = some (.ok s')) : s'.CellInv := by
  by_cases hne : oldNode = newNode
  · rw [replaceNode, if_pos hne, Option.some.injEq, Except.ok.injEq] at hrun
    rw [← hrun]
    exact h
  · obtain ⟨r, hr, _, heffect⟩ := replaceNode_spec h hne
    rw [replaceNode, if_neg hne] at hrun
    have hmore := replaceNodeLoop_mono fuel (s.n + 1) s hrun
    have hr' := hr (fuel + (s.n + 1)) (by omega)
    rw [replaceNode, if_neg hne, hmore, Option.some.injEq] at hr'
    exact (heffect s' hr'.symm).inv

/-- Every successful call keeps the invariant. -/
theorem Succeeds.inv {s s' : RefCell} {c : CellCall} (hrun : s.Succeeds c s') (h : s.CellInv) :
    s'.CellInv := by
  cases c with
  | add nodes =>
      obtain ⟨cell, hadd⟩ := hrun
      exact (add_spec h hadd).1
  | remove cell =>
      have hlive : s.Live cell := by
        by_contra hdead
        simp [Succeeds, remove, hdead] at hrun
      obtain ⟨s1, hs1, hinv, _⟩ := remove_spec h hlive
      rw [Succeeds, hs1, Except.ok.injEq] at hrun
      rw [← hrun]
      exact hinv
  | replaceWhole cell nodes => exact (replaceWhole_spec h hrun).2.1
  | replaceNode oldNode newNode =>
      obtain ⟨fuel, hfuel⟩ := hrun
      exact replaceNode_inv h hfuel

theorem Reaches.inv {mem : RefCell} {t : CellType} {s : RefCell}
    (h : Reaches (create mem t) s) : s.CellInv := by
  induction h with
  | start => exact create_inv mem t
  | call _ hrun ih => exact hrun.inv ih

/-- What the rows, the blank list and the adjacency say together. -/
structure Represents (s : RefCell) : Prop where
  count : s.n = ((Finset.range s.max).filter s.Live).card
  /-- The blank chain ends and visits exactly the invalid rows, each once. -/
  blank : ∃ slots : List Nat, Threads plainLink refEmpty (fun c => s.c2n c 1) s.blank slots ∧
    slots.Nodup ∧ ∀ c, c ∈ slots ↔ c < s.max ∧ ¬ s.Live c
  /-- The list of every node ends. -/
  ends : ∀ v, Threads plainLink refEmpty s.adj.itemNext (s.adj.firstItem v) (s.adj.items v)
  occurs : ∀ (v : Int) (c : Nat), s.Live c →
    (s.adj.refs v).count (c : Int) = (s.nodeList c).count v
  cells : ∀ v, ∀ r ∈ s.adj.refs v, ∃ c : Nat, r = c ∧ s.Live c

theorem CellInv.represents {s : RefCell} (h : s.CellInv) : s.Represents := by
  refine ⟨h.count.symm, h.blank, h.registers.inv.chain, fun v c hc => ?_, fun v r hr => ?_⟩
  · rw [h.registers.count v c, occupancy, if_pos hc]
  · obtain ⟨c, hrc, hlive, _⟩ := h.mem_refs_iff.mp hr
    exact ⟨c, hrc, hlive⟩

/-- **The cell store along runs.**  Every run keeps the representation; an
added cell takes a row that was not a cell and changes no other; replacing a
node by another one ends, succeeds away from the limit of `REF_INT`, and
rewrites exactly the occurrences of the old node. -/
theorem cell_store_runs (mem : RefCell) (t : CellType) (s : RefCell)
    (hrun : Reaches (create mem t) s) :
    s.Represents ∧
      (∀ nodes s' cell, s.add nodes = .ok (s', cell) →
        ¬ s.Live cell ∧ s'.Live cell ∧ (∀ i, i < s.sizePer → s'.c2n cell i = nodes i) ∧
          ∀ c, s.Live c → s'.Live c ∧ s'.c2n c = s.c2n c) ∧
      ∀ oldNode newNode, oldNode ≠ newNode →
        ∃ r, (∀ fuel, s.n < fuel → s.replaceNode oldNode newNode fuel = some r) ∧
          (0 ≤ newNode → newNode + 100 ≤ refIntMax → ∃ s', r = .ok s') ∧
          ∀ s', r = .ok s' → (∀ c, s'.Live c ↔ s.Live c) ∧
            (∀ c, s'.Live c → oldNode ∉ s'.nodeList c) ∧
            ∀ c i, s'.c2n c i =
              if s.Live c ∧ i < s.nodePer ∧ s.c2n c i = oldNode then newNode else s.c2n c i := by
  have h := hrun.inv
  refine ⟨h.represents, fun nodes s' cell hadd => ?_, fun oldNode newNode hne => ?_⟩
  · obtain ⟨_, hdead, hlive, hrow, hold, _⟩ := add_spec h hadd
    exact ⟨hdead, (hlive cell).mpr (Or.inr rfl), hrow,
      fun c hc => ⟨(hlive c).mpr (Or.inl hc), hold c hc⟩⟩
  · obtain ⟨r, hfuel, hok, heffect⟩ := replaceNode_spec h hne
    refine ⟨r, hfuel, hok, fun s' hs' => ?_⟩
    have heff := heffect s' hs'
    exact ⟨heff.live, heff.gone, heff.entry⟩

/-- Memory of zeros under a new store. -/
def zeroMemory : RefCell :=
  { cellType := .tet, n := 0, max := 0, blank := 0, c2n := fun _ _ => 0,
    adj := { nnode := 0, nitem := 0, first := fun _ => 0, itemNext := fun _ => 0,
             itemRef := fun _ => 0, blank := 0 } }

/-- A new store of tetrahedra after the tetrahedron `0 1 2 3` is added. -/
def oneTet : RefCell :=
  match (create zeroMemory .tet).add (fun i => i) with
  | .ok (s, _) => s
  | .error _ => zeroMemory

theorem cell_store_runs_oneTet :
    oneTet.Represents ∧ ∃ s', oneTet.replaceNode 0 7 2 = some (.ok s') ∧
      s'.c2n 0 0 = 7 ∧ s'.c2n 0 1 = 1 := by
  have hreach : Reaches (create zeroMemory .tet) oneTet :=
    Reaches.start.call (c := .add fun i => i) ⟨0, rfl⟩
  obtain ⟨hrep, _, hreplace⟩ := cell_store_runs zeroMemory .tet oneTet hreach
  obtain ⟨r, hfuel, hok, heffect⟩ := hreplace 0 7 (by decide)
  obtain ⟨s', rfl⟩ := hok (by decide) (by decide)
  have hentry := (heffect s' rfl).2.2
  refine ⟨hrep, s', hfuel 2 (by decide), ?_, ?_⟩
  · rw [hentry]
    exact if_pos (by decide)
  · rw [hentry]
    exact if_neg (by decide)

/-- Replacing a node by itself returns at once, with the node in place. -/
theorem replaceNode_by_itself_keeps_node :
    ¬ ∀ s, Reaches (create zeroMemory .tet) s →
      ∀ oldNode newNode fuel s', s.replaceNode oldNode newNode fuel = some (.ok s') →
        ∀ c, s'.Live c → oldNode ∉ s'.nodeList c := by
  intro h
  have hreach : Reaches (create zeroMemory .tet) oneTet :=
    Reaches.start.call (c := .add fun i => i) ⟨0, rfl⟩
  exact h oneTet hreach 0 0 0 oneTet rfl 0 (by decide) (by decide)

end RefCell

end RefineMesh
