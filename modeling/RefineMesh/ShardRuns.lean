import Mathlib.Tactic
import RefineMesh.CellRows
import RefineMesh.CellRuns
import RefineMesh.Shard

/-!
# The loops of the shards

Every splitter cuts a cell into few cells on its nodes.  A loop over the cells
of one store removes those that are not kept, and fills the other store with
the pieces that touch a node of this rank.
-/

namespace RefineMesh

open ArrayLoop

variable {D : Type}

/-- `rows` cuts a cell with `n` nodes into at most `k` cells of type `t` on
these nodes. -/
structure Splitter (t : CellType) (n k : Nat) (rows : (Nat → Int) → List (List Int)) : Prop where
  length : ∀ nodes, (rows nodes).length ≤ k
  size : ∀ nodes, ∀ row ∈ rows nodes, row.length = t.sizePer
  corners : ∀ nodes, ∀ row ∈ rows nodes, ∀ x ∈ row.take t.nodePer, ∃ i, i < n ∧ nodes i = x

section Splitters

variable {refNode : RefNode D} {nodes : Nat → Int}

theorem mem_orders_of_orderAtMin (global : Nat → Int) (n : Nat) {orders : List (List Nat)}
    (hne : orders ≠ []) : orderAtMin global n orders ∈ orders := by
  obtain ⟨first, rest, rfl⟩ := List.exists_cons_of_ne_nil hne
  unfold orderAtMin
  generalize hall : first :: rest = orders
  have hfirst : orders.getD 0 [] ∈ orders := by
    rw [← hall]
    exact List.mem_cons_self
  exact List.foldlRecOn orders _ hfirst fun order horder candidate hc => by
    split
    · exact hc
    · exact horder

/-- The rows of a table hold nodes of the cell. -/
theorem tableRows_corners {n : Nat} {order : List Nat} {table : List (List Nat)}
    (horder : ∀ i ∈ order, i < n) (htable : ∀ cell ∈ table, ∀ i ∈ cell, i < order.length)
    {row : List Int} (hrow : row ∈ tableRows nodes order table) :
    ∀ x ∈ row, ∃ i, i < n ∧ nodes i = x := by
  obtain ⟨cell, hcell, rfl⟩ := List.mem_map.mp hrow
  intro x hx
  obtain ⟨i, hi, rfl⟩ := List.mem_map.mp hx
  have hlt := htable cell hcell i hi
  refine ⟨_, horder _ ?_, rfl⟩
  rw [List.getD_eq_getElem _ _ hlt]
  exact List.getElem_mem hlt

theorem tableRows_size {m : Nat} {order : List Nat} {table : List (List Nat)}
    (htable : ∀ cell ∈ table, cell.length = m) {row : List Int}
    (hrow : row ∈ tableRows nodes order table) : row.length = m := by
  obtain ⟨cell, hcell, rfl⟩ := List.mem_map.mp hrow
  rw [List.length_map, htable cell hcell]

theorem pri_splitter (refNode : RefNode D) : Splitter .tet 6 3 (priAsTet refNode) := by
  have hall : ∀ order ∈ priOrders, ∀ b : Bool, (priTable b).length ≤ 3 ∧ (∀ i ∈ order, i < 6) ∧
      ∀ cell ∈ priTable b, cell.length = 4 ∧ ∀ i ∈ cell, i < order.length := by decide
  have hmem := fun nodes : Nat → Int => mem_orders_of_orderAtMin
    (fun node => refNode.global (nodes node).toNat) 6 (show priOrders ≠ [] by decide)
  constructor
  · intro nodes
    rw [priAsTet, tableRows, List.length_map]
    exact (hall _ (hmem nodes) _).1
  · intro nodes row hrow
    exact tableRows_size (fun cell hcell => ((hall _ (hmem nodes) _).2.2 cell hcell).1) hrow
  · intro nodes row hrow x hx
    obtain ⟨_, horder, htable⟩ := hall _ (hmem nodes) _
    exact tableRows_corners horder (fun cell hcell => (htable cell hcell).2) hrow x
      (List.mem_of_mem_take hx)

theorem pyr_splitter (refNode : RefNode D) : Splitter .tet 5 2 (pyrAsTet refNode) := by
  have hall : ∀ b : Bool, (pyrTable b).length ≤ 2 ∧
      ∀ cell ∈ pyrTable b, cell.length = 4 ∧ ∀ i ∈ cell, i < (List.range 5).length := by decide
  constructor
  · intro nodes
    rw [pyrAsTet, tableRows, List.length_map]
    exact (hall _).1
  · intro nodes row hrow
    exact tableRows_size (fun cell hcell => ((hall _).2 cell hcell).1) hrow
  · intro nodes row hrow x hx
    exact tableRows_corners (fun i hi => List.mem_range.mp hi)
      (fun cell hcell => ((hall _).2 cell hcell).2) hrow x (List.mem_of_mem_take hx)

theorem hex_splitter (refNode : RefNode D) : Splitter .tet 8 6 (hexAsTet refNode) := by
  have hall : ∀ order ∈ hexOrders, ∀ b0 b1 b2 : Bool,
      (hexTable (b0.toNat + b1.toNat + b2.toNat)).length ≤ 6 ∧
      (∀ i ∈ permuteHex120^[hexTurn b0 b1 b2] order, i < 8) ∧
      ∀ cell ∈ hexTable (b0.toNat + b1.toNat + b2.toNat), cell.length = 4 ∧
        ∀ i ∈ cell, i < (permuteHex120^[hexTurn b0 b1 b2] order).length := by decide
  have hmem := fun nodes : Nat → Int => mem_orders_of_orderAtMin
    (fun node => refNode.global (nodes node).toNat) 8 (show hexOrders ≠ [] by decide)
  constructor
  · intro nodes
    rw [hexAsTet, tableRows, List.length_map]
    exact (hall _ (hmem nodes) _ _ _).1
  · intro nodes row hrow
    exact tableRows_size (fun cell hcell => ((hall _ (hmem nodes) _ _ _).2.2 cell hcell).1) hrow
  · intro nodes row hrow x hx
    obtain ⟨_, horder, htable⟩ := hall _ (hmem nodes) _ _ _
    exact tableRows_corners horder (fun cell hcell => (htable cell hcell).2) hrow x
      (List.mem_of_mem_take hx)

theorem qua_splitter (refNode : RefNode D) : Splitter .tri 4 2 (quaAsTri refNode) := by
  have hall : ∀ b : Bool, (quaTable b).length ≤ 2 ∧
      ∀ cell ∈ quaTable b, cell.length = 3 ∧ ∀ i ∈ cell, i < (List.range 4).length := by decide
  constructor
  · intro nodes
    rw [quaAsTri, List.length_map, tableRows, List.length_map]
    exact (hall _).1
  · intro nodes row hrow
    obtain ⟨tri, htri, rfl⟩ := List.mem_map.mp hrow
    rw [List.length_append,
      tableRows_size (fun cell hcell => ((hall _).2 cell hcell).1) htri]
    rfl
  · intro nodes row hrow x hx
    obtain ⟨tri, htri, rfl⟩ := List.mem_map.mp hrow
    have hlen := tableRows_size (fun cell hcell => ((hall _).2 cell hcell).1) htri
    rw [show CellType.tri.nodePer = tri.length from hlen.symm, List.take_left] at hx
    exact tableRows_corners (fun i hi => List.mem_range.mp hi)
      (fun cell hcell => ((hall _).2 cell hcell).2) htri x hx

end Splitters

/-! ## Loops over cells -/

/-- The row touches a node of this rank. -/
def hasLocal (refNode : RefNode D) (t : CellType) (row : List Int) : Bool :=
  (List.range t.nodePer).any fun node => refNode.rank = refNode.part (nodeArray row node).toNat

/-- The rows that touch a node of this rank. -/
def localRows (refNode : RefNode D) (t : CellType) (rows : List (List Int)) : List (List Int) :=
  rows.filter (hasLocal refNode t)

theorem map_nodeArray {n : Nat} {row : List Int} (hlen : row.length = n) :
    (List.range n).map (nodeArray row) = row := by
  apply List.ext_getElem
  · simp [hlen]
  · intro i hi hi'
    simp [nodeArray, hi']

/-- Nodes that `ref_adj_add` accepts. -/
def InRange (x : Int) : Prop := 0 ≤ x ∧ x + 100 ≤ refIntMax

theorem addShards_ok (refNode : RefNode D) {t : CellType} (ht : t.sizePer ≤ 4) :
    ∀ (more : List (List Int)) {rows : List (List Int)} {s : RefCell},
      RefCell.Filled t rows s → (∀ row ∈ more, row.length = t.sizePer) →
      (∀ row ∈ more, ∀ x ∈ row.take t.nodePer, InRange x) →
      rows.length + more.length ≤ refIntMax / 4 →
      ∃ s', addShards refNode s more = .ok s' ∧
        RefCell.Filled t (rows ++ localRows refNode t more) s' := by
  intro more
  induction more with
  | nil =>
      intro rows s hs _ _ _
      exact ⟨s, rfl, by simpa [localRows] using hs⟩
  | cons row more ih =>
      intro rows s hs hsize hnodes hfit
      rw [List.length_cons] at hfit
      have hrow := hsize row List.mem_cons_self
      have hper : s.nodePer = t.nodePer := by rw [RefCell.nodePer, hs.type]
      have hrest : ∀ row ∈ more, row.length = t.sizePer :=
        fun row h => hsize row (List.mem_cons_of_mem _ h)
      have hrest' : ∀ row ∈ more, ∀ x ∈ row.take t.nodePer, InRange x :=
        fun row h => hnodes row (List.mem_cons_of_mem _ h)
      by_cases hlocal : hasLocal refNode t row = true
      · obtain ⟨s1, cell, hadd, hs1⟩ : ∃ s1 cell, s.add (nodeArray row) = .ok (s1, cell) ∧
            RefCell.Filled t (rows ++ [(List.range t.sizePer).map (nodeArray row)]) s1 :=
          hs.add ht (by omega) (by
          intro i hi
          have hlt : i < row.length := by
            have := t.nodePer_le_sizePer
            omega
          apply hnodes row List.mem_cons_self
          refine List.mem_iff_getElem?.mpr ⟨i, ?_⟩
          rw [List.getElem?_take, if_pos hi]
          simp [nodeArray, hlt])
        rw [map_nodeArray hrow] at hs1
        have hstep : shardCellAddLocal refNode s (nodeArray row) = .ok s1 := by
          rw [hasLocal] at hlocal
          rw [shardCellAddLocal, hper, if_pos hlocal, hadd]
          rfl
        obtain ⟨s', hrun, hs'⟩ := ih hs1 hrest hrest' (by
          rw [List.length_append, List.length_singleton]
          omega)
        refine ⟨s', ?_, ?_⟩
        · rw [addShards, List.foldlM_cons, hstep]
          exact hrun
        · rw [localRows, List.filter_cons_of_pos hlocal, List.append_cons]
          exact hs'
      · have hstep : shardCellAddLocal refNode s (nodeArray row) = .ok s := by
          rw [hasLocal] at hlocal
          rw [shardCellAddLocal, hper, if_neg hlocal]
        obtain ⟨s', hrun, hs'⟩ := ih hs hrest hrest' (by omega)
        refine ⟨s', ?_, ?_⟩
        · rw [addShards, List.foldlM_cons, hstep]
          exact hrun
        · rw [localRows, List.filter_cons_of_neg hlocal]
          exact hs'

theorem length_localRows_le (refNode : RefNode D) (t : CellType) (rows : List (List Int)) :
    (localRows refNode t rows).length ≤ rows.length := List.length_filter_le _ _

theorem Splitter.length_flatMap {t : CellType} {n k : Nat} {rows : (Nat → Int) → List (List Int)}
    (h : Splitter t n k rows) (cells : List Nat) (nodes : Nat → Nat → Int) :
    (cells.flatMap fun c => rows (nodes c)).length ≤ k * cells.length := by
  induction cells with
  | nil => simp
  | cons c cells ih =>
      rw [List.flatMap_cons, List.length_append, List.length_cons, Nat.mul_succ, Nat.add_comm]
      exact Nat.add_le_add ih (h.length _)

/-- A splitter keeps the nodes of a cell in range. -/
theorem Splitter.inRange {t : CellType} {n k : Nat} {rows : (Nat → Int) → List (List Int)}
    (h : Splitter t n k rows) {nodes : Nat → Int} (hnodes : ∀ i, i < n → InRange (nodes i)) :
    ∀ row ∈ rows nodes, ∀ x ∈ row.take t.nodePer, InRange x := by
  intro row hrow x hx
  obtain ⟨i, hi, rfl⟩ := h.corners nodes row hrow x hx
  exact hnodes i hi

section Loops

variable {t : CellType} {n k : Nat} {cut : (Nat → Int) → List (List Int)}

/-- **The loop of `ref_shard_in_place`** over one type. -/
theorem shardAll_spec (refNode : RefNode D) (hcut : Splitter t n k cut) (ht : t.sizePer ≤ 4)
    {from' into : RefCell} {rows : List (List Int)} (hinto : RefCell.Filled t rows into)
    (hnodes : ∀ c, from'.Live c → ∀ i, i < n → InRange (from'.c2n c i))
    (hfit : rows.length + k * from'.validCells.length ≤ refIntMax / 4) :
    ∃ s, shardAll refNode cut from' into = .ok s ∧ RefCell.Filled t
      (rows ++ localRows refNode t (from'.validCells.flatMap fun c => cut (from'.c2n c))) s := by
  obtain ⟨s, hrun, _, hs⟩ := ArrayLoop.foldlM_exists (l := from'.validCells) (b := into)
    (f := fun into cell => addShards refNode into (cut (from'.c2n cell)))
    (fun done rest s => done ++ rest = from'.validCells ∧ RefCell.Filled t
      (rows ++ localRows refNode t (done.flatMap fun c => cut (from'.c2n c))) s)
    (by
      intro done c rest s hP
      obtain ⟨hlist, hs⟩ := hP
      have hlive : from'.Live c := RefCell.mem_validCells.mp (by
        rw [← hlist]
        simp)
      have hlen := hcut.length_flatMap (done ++ [c]) from'.c2n
      have hall : (done ++ [c]).length ≤ from'.validCells.length := by
        rw [← hlist]
        simp
      obtain ⟨s', hrun, hs'⟩ := addShards_ok refNode ht (cut (from'.c2n c)) hs
        (hcut.size _) (hcut.inRange (hnodes c hlive)) (by
          have hle := length_localRows_le refNode t (done.flatMap fun c => cut (from'.c2n c))
          have hk := Nat.mul_le_mul_left k hall
          rw [List.flatMap_append, List.length_append, List.flatMap_singleton] at hlen
          rw [List.length_append]
          omega)
      refine ⟨s', hrun, by simpa using hlist, ?_⟩
      rw [List.flatMap_append, List.flatMap_singleton]
      simpa [localRows] using hs')
    ⟨rfl, by simpa [localRows] using hinto⟩
  refine ⟨s, hrun, ?_⟩
  rename_i hlist
  rw [List.append_nil] at hlist
  rw [hlist] at hs
  exact hs

/-- The cells that are not kept. -/
def unkept (mark : Nat → Int) (tested : List Nat) (s : RefCell) : List Nat :=
  s.validCells.filter fun c => ¬ KeepsCell mark (s.c2n c) tested

/-- **The loop of `ref_shard_prism_into_tet`** over one type. -/
theorem shardUnkept_spec (refNode : RefNode D) (tested : List Nat) (mark : Nat → Int)
    (hcut : Splitter t n k cut) (ht : t.sizePer ≤ 4) {from' into : RefCell}
    {rows : List (List Int)} (hfrom : from'.CellInv)
    (hinto : RefCell.Filled t rows into)
    (hnodes : ∀ c, from'.Live c → ∀ i, i < n → InRange (from'.c2n c i))
    (hfit : rows.length + k * from'.validCells.length ≤ refIntMax / 4) :
    ∃ left filled, shardUnkept refNode tested cut mark from' into = .ok (left, filled) ∧
      left.CellInv ∧ left.cellType = from'.cellType ∧
      left.validCells = from'.validCells.filter (fun c => KeepsCell mark (from'.c2n c) tested) ∧
      (∀ c, left.Live c → left.c2n c = from'.c2n c) ∧
      RefCell.Filled t (rows ++ localRows refNode t
        ((unkept mark tested from').flatMap fun c => cut (from'.c2n c))) filled := by
  obtain ⟨⟨left, filled⟩, hrun, hlist, hinv, htype, hmax, hlive, hold, hfilled⟩ :=
    ArrayLoop.foldlM_exists (l := from'.validCells) (b := (from', into))
    (f := fun (acc : RefCell × RefCell) cell =>
      let orig := from'.c2n cell
      if KeepsCell mark orig tested then .ok acc
      else do
        let removed ← acc.1.remove cell
        let added ← addShards refNode acc.2 (cut orig)
        .ok (removed, added))
    (fun done rest acc => done ++ rest = from'.validCells ∧ acc.1.CellInv ∧
      acc.1.cellType = from'.cellType ∧ acc.1.max = from'.max ∧
      (∀ c, acc.1.Live c ↔ from'.Live c ∧ (c ∈ done → KeepsCell mark (from'.c2n c) tested)) ∧
      (∀ c, acc.1.Live c → acc.1.c2n c = from'.c2n c) ∧
      RefCell.Filled t (rows ++ localRows refNode t
        ((done.filter fun c => ¬ KeepsCell mark (from'.c2n c) tested).flatMap
          fun c => cut (from'.c2n c))) acc.2)
    (by
      intro done c rest acc hP
      obtain ⟨hlist, hinv, htype, hmax, hlive, hold, hfilled⟩ := hP
      have hin : c ∈ from'.validCells := by
        rw [← hlist]
        simp
      have hnotin : c ∉ done := by
        have hnodup := from'.nodup_validCells
        rw [← hlist, List.nodup_append] at hnodup
        exact fun h => hnodup.2.2 c h c List.mem_cons_self rfl
      have hall : (done ++ [c]) ++ rest = from'.validCells := by simpa using hlist
      by_cases hkeep : KeepsCell mark (from'.c2n c) tested
      · refine ⟨acc, if_pos hkeep, hall, hinv, htype, hmax, ?_, hold, ?_⟩
        · intro c'
          rw [hlive c']
          simp only [List.mem_append, List.mem_singleton]
          constructor
          · rintro ⟨h1, h2⟩
            refine ⟨h1, ?_⟩
            rintro (h | rfl)
            · exact h2 h
            · exact hkeep
          · rintro ⟨h1, h2⟩
            exact ⟨h1, fun h => h2 (Or.inl h)⟩
        · rw [List.filter_append, List.filter_cons_of_neg (by simpa using hkeep), List.filter_nil,
            List.append_nil]
          exact hfilled
      · have hlivec : acc.1.Live c :=
          (hlive c).mpr ⟨RefCell.mem_validCells.mp hin, fun h => absurd h hnotin⟩
        obtain ⟨removed, hremove, hinv', hlive', hother, htype', _, hmax'⟩ :=
          RefCell.remove_spec hinv hlivec
        set gone := (done.filter fun c => ¬ KeepsCell mark (from'.c2n c) tested) with hgone
        have hlen := hcut.length_flatMap (gone ++ [c]) from'.c2n
        have hcount : (gone ++ [c]).length ≤ from'.validCells.length := by
          rw [← hall, List.length_append, List.length_append, List.length_append]
          have hgone' : gone.length ≤ done.length := List.length_filter_le _ _
          omega
        obtain ⟨added, hadd, hfilled'⟩ := addShards_ok refNode ht (cut (from'.c2n c)) hfilled
          (hcut.size _) (hcut.inRange (hnodes c (RefCell.mem_validCells.mp hin))) (by
            have hle := length_localRows_le refNode t (gone.flatMap fun c => cut (from'.c2n c))
            have hk := Nat.mul_le_mul_left k hcount
            rw [List.flatMap_append, List.length_append, List.flatMap_singleton] at hlen
            rw [List.length_append]
            omega)
        refine ⟨(removed, added), ?_, hall, hinv', htype'.trans htype, hmax'.trans hmax, ?_, ?_, ?_⟩
        · simp only [hkeep, if_false, hremove, hadd]
          rfl
        · intro c'
          rw [hlive' c', hlive c']
          simp only [List.mem_append, List.mem_singleton]
          constructor
          · rintro ⟨⟨h1, h2⟩, h3⟩
            refine ⟨h1, ?_⟩
            rintro (h | rfl)
            · exact h2 h
            · exact absurd rfl h3
          · rintro ⟨h1, h2⟩
            exact ⟨⟨h1, fun h => h2 (Or.inl h)⟩, fun h => hkeep (h ▸ h2 (Or.inr h))⟩
        · intro c' hc'
          obtain ⟨h1, h2⟩ := (hlive' c').mp hc'
          rw [hother c' h2, hold c' h1]
        · rw [List.filter_append, List.filter_cons_of_pos (by simpa using hkeep), List.filter_nil,
            ← hgone, List.flatMap_append, List.flatMap_singleton]
          simpa [localRows] using hfilled')
    ⟨rfl, hfrom, rfl, rfl, by simp, fun _ _ => rfl, by simpa [localRows] using hinto⟩
  rw [List.append_nil] at hlist
  refine ⟨left, filled, hrun, hinv, htype, ?_, hold, ?_⟩
  · rw [RefCell.validCells, RefCell.validCells, hmax, List.filter_filter]
    apply List.filter_congr
    intro c _
    rw [Bool.eq_iff_iff]
    simp only [decide_eq_true_eq, Bool.and_eq_true]
    rw [hlive c, hlist, RefCell.mem_validCells]
    constructor
    · intro h
      exact ⟨h.2 h.1, h.1⟩
    · intro h
      exact ⟨h.2, fun _ => h.1⟩
  · rw [unkept, ← hlist]
    exact hfilled

end Loops

/-! ## Hanging nodes -/

theorem hangsFrom_iff {g : RefGrid D} (h : g.CellsInv) {types : List CellType} {node : Nat} :
    HangsFrom g types node ↔
      ∀ t ∈ types, ∀ c, (g.cell t).Live c → (node : Int) ∉ (g.cell t).nodeList c := by
  constructor
  · intro hhangs t ht c hlive hin
    have href := (h.inv t).mem_refs_iff.mpr ⟨c, rfl, hlive, hin⟩
    rw [RefAdj.refs, RefAdj.items_eq_nil_of_first (hhangs t ht)] at href
    cases href
  · intro hnone t ht
    by_contra hfirst
    obtain ⟨hlive, hin⟩ := (h.inv t).firstItem_cell hfirst
    exact hnone t ht _ hlive hin

/-- The stores of nodes before and after a removal of some nodes. -/
structure RefNode.Kept (s s' : RefNode D) (keeps : Nat → Prop) : Prop where
  inv : s'.Inv
  live : ∀ k, s'.Live k ↔ s.Live k ∧ keeps k
  global : ∀ k, s'.Live k → s'.global k = s.global k
  part : s'.part = s.part
  rank : s'.rank = s.rank
  max : s'.max = s.max

/-- **The loop over hanging nodes** removes exactly these. -/
theorem removeHanging_spec (g : RefGrid D) (types : List CellType) (hinv : g.node.Inv) :
    ∃ node, removeHanging g types = .ok { g with node := node } ∧
      g.node.Kept node fun k => ¬ HangsFrom g types k := by
  obtain ⟨node, hrun, hlist, hkept⟩ := ArrayLoop.foldlM_exists
    (l := g.node.validNodes) (b := g.node)
    (f := fun (refNode : RefNode D) node =>
      if HangsFrom g types node then refNode.removeWithoutGlobal node else .ok refNode)
    (fun done rest s => done ++ rest = g.node.validNodes ∧
      g.node.Kept s fun k => k ∈ done → ¬ HangsFrom g types k)
    (by
      intro done k rest s hP
      obtain ⟨hlist, hkept⟩ := hP
      have hall : (done ++ [k]) ++ rest = g.node.validNodes := by simpa using hlist
      by_cases hhangs : HangsFrom g types k
      · have hin : k ∈ g.node.validNodes := by
          rw [← hlist]
          simp
        have hnotin : k ∉ done := by
          have hnodup : g.node.validNodes.Nodup := List.nodup_range.filter _
          rw [← hlist, List.nodup_append] at hnodup
          exact fun h => hnodup.2.2 k h k List.mem_cons_self rfl
        have hlive : s.Live k :=
          (hkept.live k).mpr ⟨RefNode.mem_validNodes.mp hin, fun h => absurd h hnotin⟩
        obtain ⟨s', hremove⟩ := RefNode.removeWithoutGlobal_ok hkept.inv hlive
        obtain ⟨hinv', hremoves, _⟩ := RefNode.removeWithoutGlobal_spec hkept.inv hremove
        obtain ⟨hpart, hrank, hmax⟩ := RefNode.removeWithoutGlobal_part hremove
        refine ⟨s', by rw [if_pos hhangs, hremove], hall, hinv', ?_, ?_, hpart.trans hkept.part,
          hrank.trans hkept.rank, hmax.trans hkept.max⟩
        · intro j
          rw [hremoves.live j, hkept.live j]
          simp only [List.mem_append, List.mem_singleton]
          grind
        · intro j hj
          rw [hremoves.global_old j hj, hkept.global j ((hremoves.live j).mp hj).1]
      · refine ⟨s, if_neg hhangs, hall, hkept.inv, ?_, hkept.global, hkept.part, hkept.rank,
          hkept.max⟩
        intro j
        rw [hkept.live j]
        simp only [List.mem_append, List.mem_singleton]
        grind)
    ⟨rfl, hinv, by simp, fun _ _ => rfl, rfl, rfl, rfl⟩
  rw [List.append_nil] at hlist
  refine ⟨node, ?_, hkept.inv, ?_, hkept.global, hkept.part, hkept.rank, hkept.max⟩
  · rw [removeHanging, hrun]
    rfl
  · intro k
    rw [hkept.live k, hlist, RefNode.mem_validNodes]
    constructor
    · rintro ⟨h1, h2⟩
      exact ⟨h1, h2 h1⟩
    · rintro ⟨h1, h2⟩
      exact ⟨h1, fun _ => h2⟩

end RefineMesh
