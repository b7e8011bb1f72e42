import Mathlib.Tactic
import RefineMesh.CollapsePass

/-!
# What a collapse pass freezes

A node that shares a cell with the node that is left of a collapse is not
collapsed later in the pass: its sort key is over the limit and stays there.
The cavity of another collapse can still swallow it, when that leaves it
without a tet and without a triangle.
-/

namespace RefineMesh

open RefCavity

variable {D R : Type} {g g' : RefGrid D}

/-! ## Stores that stay valid -/

theorem RefCell.CellInv.remove_ok {s s' : RefCell} (h : s.CellInv) {cell : Nat}
    (hrun : s.remove cell = .ok s') : s'.CellInv ∧ s'.cellType = s.cellType := by
  have hlive : s.Live cell := by
    by_contra hdead
    rw [RefCell.remove, if_pos hdead] at hrun
    cases hrun
  obtain ⟨s1, hrun1, hinv, -, -, htype, -⟩ := RefCell.remove_spec h hlive
  obtain rfl := Except.ok.inj (hrun1.symm.trans hrun)
  exact ⟨hinv, htype⟩

theorem RefCell.CellInv.removeLoop_ok {s s' : RefCell} (h : s.CellInv) {l : List Nat}
    (hrun : l.foldlM RefCell.remove s = .ok s') : s'.CellInv ∧ s'.cellType = s.cellType := by
  induction l generalizing s with
  | nil =>
      obtain rfl : s = s' := Except.ok.inj hrun
      exact ⟨h, rfl⟩
  | cons cell rest ih =>
      rw [List.foldlM_cons, bind_eq_ok] at hrun
      obtain ⟨s1, hone, hrest⟩ := hrun
      obtain ⟨h1, htype1⟩ := h.remove_ok hone
      obtain ⟨h', htype'⟩ := ih h1 hrest
      exact ⟨h', htype'.trans htype1⟩

theorem RefCell.CellInv.replaceNode_ok {s s' : RefCell} (h : s.CellInv) {oldNode newNode : Int}
    {fuel : Nat} (hrun : s.replaceNode oldNode newNode fuel = some (.ok s')) :
    s'.CellInv ∧ s'.cellType = s.cellType := by
  by_cases hsame : oldNode = newNode
  · rw [RefCell.replaceNode, if_pos hsame] at hrun
    obtain rfl := Except.ok.inj (Option.some.inj hrun)
    exact ⟨h, rfl⟩
  · obtain ⟨r, hfuel, _, heffect⟩ := RefCell.replaceNode_spec h hsame
    have hmore := hfuel (s.n + 1 + fuel) (by omega)
    rw [RefCell.replaceNode, if_neg hsame] at hrun hmore
    have hmono := RefCell.replaceNodeLoop_mono fuel (s.n + 1) s hrun
    rw [Nat.add_comm fuel, hmore, Option.some.injEq] at hmono
    obtain hreplaced := heffect s' hmono
    exact ⟨hreplaced.inv, hreplaced.type⟩

theorem RefGrid.CellsInv.of_cell (h : g.CellsInv) (hcell : g'.cell = g.cell) : g'.CellsInv := by
  constructor
  · intro t
    rw [hcell]
    exact h.type t
  · intro t
    rw [hcell]
    exact h.inv t

/-! ## Nodes that go away -/

/-- Removing a node leaves the others valid. -/
theorem eq_of_removeNode {s s' : RefNode D} {node x : Int} (hrun : removeNode s node = .ok s')
    (hx : 0 ≤ x ∧ s.Live x.toNat) (hgone : ¬ s'.Live x.toNat) : x = node := by
  rw [removeNode] at hrun
  split at hrun
  · cases hrun
  · rename_i hnonneg
    rw [RefNode.remove] at hrun
    split at hrun
    · cases hrun
    · obtain ⟨location, -, hrun⟩ := bind_eq_ok.mp hrun
      by_contra hne
      apply hgone
      have hslot : x.toNat ≠ node.toNat := by omega
      rw [← Except.ok.inj hrun]
      refine ⟨hx.2.1, ?_⟩
      change 0 ≤ Function.update s.global node.toNat s.blank x.toNat
      rw [Function.update_of_ne hslot]
      exact hx.2.2

theorem validNode_iff {x : Int} : validNode g x = true ↔ 0 ≤ x ∧ g.node.Live x.toNat := by
  rw [validNode, decide_eq_true_eq]

/-- What `ref_collapse_edge` does to the stores and the nodes. -/
theorem collapseEdge_effect {node0 node1 : Int} {fuel : Nat} (hinv : g.CellsInv)
    (hrun : collapseEdge node0 node1 fuel g = some (.ok g')) :
    g'.CellsInv ∧ ∀ x, validNode g x = true → ¬ validNode g' x = true → x = node1 := by
  have hgroup : ∀ {s s' : RefCell}, s.CellInv →
      collapseGroup node0 node1 fuel s = some (.ok s') →
        s'.CellInv ∧ s'.cellType = s.cellType := by
    intro s s' hs hgroup
    simp only [collapseGroup] at hgroup
    split at hgroup
    · cases hgroup
    · rename_i s1 hremove
      obtain ⟨l, -, hloop⟩ := bind_eq_ok.mp hremove
      obtain ⟨h1, htype1⟩ := hs.removeLoop_ok hloop
      obtain ⟨h2, htype2⟩ := h1.replaceNode_ok hgroup
      exact ⟨h2, htype2.trans htype1⟩
  simp only [collapseEdge, andThen_eq_ok, Option.some.injEq, Except.ok.injEq] at hrun
  obtain ⟨tet, htet, tri, htri, edg, hedg, node, hnode, geom, -, rfl⟩ := hrun
  obtain ⟨htetinv, htettype⟩ := hgroup (hinv.inv .tet) htet
  have h1 := hinv.setCell (htettype.trans (hinv.type .tet)) htetinv
  obtain ⟨htriinv, htritype⟩ := hgroup (h1.inv .tri) htri
  have h2 := h1.setCell (htritype.trans (h1.type .tri)) htriinv
  obtain ⟨hedginv, hedgtype⟩ := hgroup (h2.inv .edg) hedg
  have h3 := h2.setCell (hedgtype.trans (h2.type .edg)) hedginv
  refine ⟨h3.of_cell rfl, ?_⟩
  intro x hx hgone
  rw [validNode_iff] at hx hgone
  exact eq_of_removeNode hnode hx fun hl => hgone ⟨hx.1, hl⟩

theorem removeUnused_gone {fuel : Nat} {l : List Int}
    (hrun : removeUnused fuel l g = some (.ok g')) {x : Int} (hx : validNode g x = true)
    (hgone : ¬ validNode g' x = true) :
    (g.cell .tri).adj.firstItem x = refEmpty ∧ (g.cell .tet).adj.firstItem x = refEmpty := by
  induction l generalizing g with
  | nil =>
      obtain rfl := Except.ok.inj (Option.some.inj hrun)
      exact absurd hx hgone
  | cons node rest ih =>
      rw [removeUnused] at hrun
      split at hrun
      · exact ih hrun hx
      · obtain ⟨geom, -, hrun⟩ := andThen_eq_ok.mp hrun
        obtain ⟨store, hstore, hrun⟩ := andThen_eq_ok.mp hrun
        by_cases hstill : validNode { node := store, cell := g.cell, geom := geom } x = true
        · exact ih (g := { node := store, cell := g.cell, geom := geom }) hrun hstill
        · split at hstore
          · rename_i hempty
            simp only [Bool.and_eq_true, decide_eq_true_eq] at hempty
            rw [validNode_iff] at hx hstill
            obtain rfl := eq_of_removeNode (Option.some.inj hstore) hx
              fun hl => hstill ⟨hx.1, hl⟩
            exact hempty
          · obtain rfl := Except.ok.inj (Option.some.inj hstore)
            exact absurd hx hstill

theorem replaceSplitEdg_ok {c : RefCavity} {s s' : RefCell} (h : s.CellInv)
    (hrun : c.replaceSplitEdg s = .ok s') : s'.CellInv ∧ s'.cellType = s.cellType := by
  rw [replaceSplitEdg] at hrun
  split at hrun
  · split at hrun
    · obtain rfl := Except.ok.inj hrun
      exact ⟨h, rfl⟩
    · cases hrun
    · obtain ⟨nodes, -, hrun⟩ := bind_eq_ok.mp hrun
      obtain ⟨s1, hremove, hrun⟩ := bind_eq_ok.mp hrun
      obtain ⟨⟨s2, cell2⟩, hadd2, hrun⟩ := bind_eq_ok.mp hrun
      obtain ⟨⟨s3, cell3⟩, hadd3, hrun⟩ := bind_eq_ok.mp hrun
      obtain rfl := Except.ok.inj hrun
      obtain ⟨h1, htype1⟩ := h.remove_ok hremove
      obtain ⟨h2, -, -, -, -, htype2, -⟩ := RefCell.add_spec h1 hadd2
      obtain ⟨h3, -, -, -, -, htype3, -⟩ := RefCell.add_spec h2 hadd3
      exact ⟨h3, htype3.trans (htype2.trans htype1)⟩
  · obtain rfl := Except.ok.inj hrun
    exact ⟨h, rfl⟩

theorem replaceCollapseEdg_ok {c : RefCavity} {fuel : Nat} {s s' : RefCell} (h : s.CellInv)
    (hrun : c.replaceCollapseEdg fuel s = some (.ok s')) :
    s'.CellInv ∧ s'.cellType = s.cellType := by
  rw [replaceCollapseEdg] at hrun
  split at hrun
  · split at hrun
    · obtain rfl := Except.ok.inj (Option.some.inj hrun)
      exact ⟨h, rfl⟩
    · cases hrun
    · obtain ⟨s1, hremove, hrun⟩ := andThen_eq_ok.mp hrun
      obtain ⟨h1, htype1⟩ := h.remove_ok (Option.some.inj hremove)
      obtain ⟨h2, htype2⟩ := h1.replaceNode_ok hrun
      exact ⟨h2, htype2.trans htype1⟩
  · obtain rfl := Except.ok.inj (Option.some.inj hrun)
    exact ⟨h, rfl⟩

/-- What `ref_cavity_replace` does to the stores and the nodes: a node that goes
away has neither tet nor triangle. -/
theorem replace_effect {c : RefCavity} {shell : Bool} {fuel : Nat} (hinv : g.CellsInv)
    (hrun : c.replace shell g fuel = some (.ok g')) :
    g'.CellsInv ∧ ∀ x, validNode g x = true → ¬ validNode g' x = true →
      ∀ t ∈ [CellType.tet, .tri], ∀ cell, (g'.cell t).Live cell → x ∉ (g'.cell t).nodeList cell := by
  obtain ⟨-, -, hrun⟩ := andThen_eq_ok.mp hrun
  obtain ⟨⟨g1, removed⟩, hcells, hrun⟩ := andThen_eq_ok.mp hrun
  obtain ⟨g2, hunused, hrun⟩ := andThen_eq_ok.mp hrun
  obtain ⟨edg1, hsplit, hrun⟩ := andThen_eq_ok.mp hrun
  obtain ⟨edg2, hcollapse, hrun⟩ := andThen_eq_ok.mp hrun
  obtain ⟨-, -, hrun⟩ := andThen_eq_ok.mp hrun
  obtain rfl := Except.ok.inj (Option.some.inj hrun)
  rw [Option.some.injEq, replaceCells] at hcells
  obtain ⟨tet1, htet1, hcells⟩ := bind_eq_ok.mp hcells
  obtain ⟨tri1, htri1, hcells⟩ := bind_eq_ok.mp hcells
  obtain ⟨tet2, htet2, hcells⟩ := bind_eq_ok.mp hcells
  obtain ⟨tri2, htri2, hcells⟩ := bind_eq_ok.mp hcells
  rw [Except.ok.injEq, Prod.mk.injEq] at hcells
  obtain ⟨rfl, -⟩ := hcells
  have htetadd := addNew_loop (RefCell.Replaced.refl (hinv.inv .tet)) htet1
  have htriadd := addNew_loop (RefCell.Replaced.refl (hinv.inv .tri)) htri1
  obtain ⟨htetinv, htettype⟩ := htetadd.inv.removeLoop_ok (removeOld_loop htet2)
  obtain ⟨htriinv, htritype⟩ := htriadd.inv.removeLoop_ok (removeOld_loop htri2)
  have h1 := (hinv.setCell (htettype.trans (htetadd.type.trans (hinv.type .tet))) htetinv).setCell
    (htritype.trans (htriadd.type.trans (hinv.type .tri))) htriinv
  have hcell2 := removeUnused_cell hunused
  have h2 := h1.of_cell hcell2
  obtain ⟨hedg1, hedgtype1⟩ := replaceSplitEdg_ok (h2.inv .edg) (Option.some.inj hsplit)
  have h3 := h2.setCell (hedgtype1.trans (h2.type .edg)) hedg1
  obtain ⟨hedg2, hedgtype2⟩ := replaceCollapseEdg_ok (h3.inv .edg) hcollapse
  have h4 := h3.setCell (hedgtype2.trans (h3.type .edg)) hedg2
  refine ⟨h4, ?_⟩
  intro x hx hgone t ht cell hlive
  have hne : t ≠ CellType.edg := by
    rintro rfl
    revert ht
    decide
  have hcell : ((((g2.setCell .edg edg1).setCell .edg edg2)).cell t) = g2.cell t := by
    rw [RefGrid.setCell_cell_of_ne _ _ hne, RefGrid.setCell_cell_of_ne _ _ hne]
  have hempty := removeUnused_gone hunused (x := x) hx hgone
  rw [hcell] at hlive ⊢
  refine RefCell.notMem_of_firstItem (h2.inv t) ?_ hlive
  rw [hcell2]
  simp only [List.mem_cons, List.not_mem_nil, or_false] at ht
  rcases ht with rfl | rfl
  · exact hempty.2
  · exact hempty.1

/-! ## Targets -/

section Arrays

variable {tests : CollapseTests D R} {a a' a'' : PassArrays R}

/-- The targets are the same, and a ratio is as it was or over the limit. -/
structure Raised (tests : CollapseTests D R) (a a' : PassArrays R) : Prop where
  ntarget : a'.ntarget = a.ntarget
  target : a'.target = a.target
  node2target : a'.node2target = a.node2target
  ratio : ∀ i, a'.ratio i = a.ratio i ∨ a'.ratio i = tests.frozenRatio

theorem Raised.refl (tests : CollapseTests D R) (a : PassArrays R) : Raised tests a a :=
  ⟨rfl, rfl, rfl, fun _ => Or.inl rfl⟩

theorem Raised.trans (h : Raised tests a a') (h' : Raised tests a' a'') : Raised tests a a'' := by
  refine ⟨h'.ntarget.trans h.ntarget, h'.target.trans h.target,
    h'.node2target.trans h.node2target, fun i => ?_⟩
  rcases h'.ratio i with hsame | hraised
  · rw [hsame]
    exact h.ratio i
  · exact Or.inr hraised

/-- What is over the limit stays there. -/
theorem Raised.stays (h : Raised tests a a') {i : Nat} (hi : a.ratio i = tests.frozenRatio) :
    a'.ratio i = tests.frozenRatio := by
  rcases h.ratio i with hsame | hraised
  · exact hsame.trans hi
  · exact hraised

/-- The nodes of a cell are raised, those of them that are targets. -/
theorem freezeCell_spec (tests : CollapseTests D R) (nodes : Nat → Int) (l : List Nat)
    (a : PassArrays R) :
    let a' := l.foldl (fun a node =>
      if a.node2target (nodes node) ≠ refEmpty then
        { a with
          ratio := Function.update a.ratio (a.node2target (nodes node)).toNat tests.frozenRatio }
      else a) a
    Raised tests a a' ∧ ∀ node ∈ l, a.node2target (nodes node) ≠ refEmpty →
      a'.ratio (a.node2target (nodes node)).toNat = tests.frozenRatio := by
  induction l generalizing a with
  | nil =>
      refine ⟨Raised.refl tests a, ?_⟩
      intro node hnode
      cases hnode
  | cons node rest ih =>
      by_cases htarget : a.node2target (nodes node) ≠ refEmpty
      · obtain ⟨hraised, hall⟩ := ih { a with
          ratio := Function.update a.ratio (a.node2target (nodes node)).toNat tests.frozenRatio }
        simp only [List.foldl_cons, if_pos htarget]
        have hone : Raised tests a { a with
            ratio := Function.update a.ratio (a.node2target (nodes node)).toNat
              tests.frozenRatio } := by
          refine ⟨rfl, rfl, rfl, fun i => ?_⟩
          by_cases hi : i = (a.node2target (nodes node)).toNat
          · subst hi
            exact Or.inr (Function.update_self _ _ _)
          · exact Or.inl (Function.update_of_ne hi _ _)
        refine ⟨hone.trans hraised, ?_⟩
        intro other hother hne
        rcases List.mem_cons.mp hother with rfl | hother
        · exact hraised.stays (Function.update_self _ _ _)
        · exact hall other hother hne
      · obtain ⟨hraised, hall⟩ := ih a
        simp only [List.foldl_cons, if_neg htarget]
        refine ⟨hraised, ?_⟩
        intro other hother hne
        rcases List.mem_cons.mp hother with rfl | hother
        · exact absurd hne htarget
        · exact hall other hother hne

/-- **The freeze** raises every target that shares a cell with the node. -/
theorem freeze_spec {s : RefCell} (hinv : s.CellInv) {node0 : Int}
    (hrun : freeze tests s node0 a = .ok a') :
    Raised tests a a' ∧ ∀ cell, s.Live cell → node0 ∈ s.nodeList cell → ∀ x ∈ s.nodeList cell,
      a.node2target x ≠ refEmpty → a'.ratio (a.node2target x).toNat = tests.frozenRatio := by
  have hloop : ∀ (l : List Nat) (b b' : PassArrays R),
      l.foldlM (fun a cell => do
        let nodes ← s.nodes cell
        .ok (freezeCell tests s.nodePer nodes a)) b = (.ok b' : Except Status (PassArrays R)) →
      Raised tests b b' ∧ ∀ cell ∈ l, ∀ x ∈ s.nodeList cell, b.node2target x ≠ refEmpty →
        b'.ratio (b.node2target x).toNat = tests.frozenRatio := by
    intro l
    induction l with
    | nil =>
        intro b b' hrun
        obtain rfl : b = b' := Except.ok.inj hrun
        refine ⟨Raised.refl tests b, ?_⟩
        intro cell hcell
        cases hcell
    | cons cell rest ih =>
        intro b b' hrun
        rw [List.foldlM_cons, bind_eq_ok] at hrun
        obtain ⟨b1, hone, hrest⟩ := hrun
        obtain ⟨nodes, hnodes, hone⟩ := bind_eq_ok.mp hone
        obtain rfl := RefCell.nodes_eq_ok hnodes
        obtain rfl := Except.ok.inj hone
        obtain ⟨hraised1, hall1⟩ := freezeCell_spec tests (s.c2n cell) (List.range s.nodePer) b
        obtain ⟨hraised, hall⟩ := ih _ b' hrest
        refine ⟨hraised1.trans hraised, ?_⟩
        intro other hother x hx hne
        rcases List.mem_cons.mp hother with rfl | hother
        · obtain ⟨i, hi, rfl⟩ := RefCell.mem_nodeList.mp hx
          exact hraised.stays (hall1 i (List.mem_range.mpr hi) hne)
        · have hsame := hraised1.node2target
          have hlater := hall other hother x hx (by
            rw [freezeCell, hsame]
            exact hne)
          rw [freezeCell, hsame] at hlater
          exact hlater
  obtain ⟨hraised, hall⟩ := hloop _ a a' hrun
  exact ⟨hraised, fun cell hlive hnode0 => hall cell (hinv.mem_having.mpr ⟨hlive, hnode0⟩)⟩

section Targets

variable [LinearOrder R]

/-- Each target knows its place. -/
structure TargetInv (bound : Nat) (a : PassArrays R) : Prop where
  back : ∀ i, i < a.ntarget → a.node2target (a.target i) = i
  small : ∀ i, i < a.ntarget → ∃ m : Nat, m < bound ∧ a.target i = m

theorem collectTarget_inv {bound : Nat} (h : TargetInv bound a) :
    TargetInv (bound + 1) (collectTarget tests a bound) := by
  by_cases hshort : a.ratio bound < tests.collapseRatio
  · rw [collectTarget, if_pos hshort]
    constructor
    · intro i hi
      by_cases hlast : i = a.ntarget
      · subst hlast
        simp
      · have hold : i < a.ntarget := by
          change i < a.ntarget + 1 at hi
          omega
        obtain ⟨m, hm, htarget⟩ := h.small i hold
        have hne : a.target i ≠ (bound : Int) := by
          rw [htarget]
          omega
        change Function.update a.node2target bound a.ntarget
          (Function.update a.target a.ntarget bound i) = i
        rw [Function.update_of_ne hlast, Function.update_of_ne hne]
        exact h.back i hold
    · intro i hi
      by_cases hlast : i = a.ntarget
      · subst hlast
        exact ⟨bound, Nat.lt_succ_self bound, Function.update_self _ _ _⟩
      · have hold : i < a.ntarget := by
          change i < a.ntarget + 1 at hi
          omega
        obtain ⟨m, hm, htarget⟩ := h.small i hold
        refine ⟨m, by omega, ?_⟩
        change Function.update a.target a.ntarget bound i = m
        rw [Function.update_of_ne hlast]
        exact htarget
  · rw [collectTarget, if_neg hshort]
    constructor
    · exact h.back
    · intro i hi
      obtain ⟨m, hm, htarget⟩ := h.small i hi
      exact ⟨m, by omega, htarget⟩

theorem collectTargets_inv (max : Nat) (ratio : Nat → R) :
    TargetInv max (collectTargets tests max ratio) := by
  rw [collectTargets]
  induction max with
  | zero =>
      constructor
      · intro i hi
        exact absurd hi (Nat.not_lt_zero i)
      · intro i hi
        exact absurd hi (Nat.not_lt_zero i)
  | succ max ih =>
      rw [List.range_succ, List.foldl_append]
      exact collectTarget_inv ih

end Targets

end Arrays

/-! ## Steps -/

section Steps

variable {tests : CollapseTests D R} {twod surf : Bool} {fuel : Nat}

/-- What one removal does: the stores stay valid, and a node that goes away is
the removed one or was swallowed by a cavity. -/
structure Removes (node1 : Int) (g g' : RefGrid D) (removal : Option (Int × Removal)) : Prop where
  inv : g'.CellsInv
  gone : ∀ x, validNode g x = true → ¬ validNode g' x = true → x = node1 ∨
    (∃ node0 c, removal = some (node0, .replaced c)) ∧
      ∀ t ∈ [CellType.tet, .tri], ∀ cell, (g'.cell t).Live cell → x ∉ (g'.cell t).nodeList cell

theorem tryNode0_effect {node0 node1 : Int} {removal : Removal} (hinv : g.CellsInv)
    (hrun : tryNode0 tests twod surf fuel g node1 node0 = some (.ok (some (g', removal)))) :
    Removes node1 g g' (some (node0, removal)) := by
  obtain ⟨allowed, -, hrun⟩ := andThen_eq_ok.mp hrun
  split at hrun
  · cases Except.ok.inj (Option.some.inj hrun)
  obtain ⟨quality, -, hrun⟩ := andThen_eq_ok.mp hrun
  split at hrun
  · cases Except.ok.inj (Option.some.inj hrun)
  split at hrun
  · rw [collapseThroughCavity] at hrun
    split at hrun
    · cases Except.ok.inj (Option.some.inj hrun)
    split at hrun
    · cases Except.ok.inj (Option.some.inj hrun)
    obtain ⟨c, -, hrun⟩ := andThen_eq_ok.mp hrun
    split at hrun
    · obtain ⟨valid, -, hrun⟩ := andThen_eq_ok.mp hrun
      split at hrun
      · obtain ⟨g1, hreplace, hrun⟩ := andThen_eq_ok.mp hrun
        simp only [Option.some.injEq, Except.ok.injEq, Prod.mk.injEq] at hrun
        obtain ⟨rfl, rfl⟩ := hrun
        obtain ⟨hinv', hgone⟩ := replace_effect hinv hreplace
        exact ⟨hinv', fun x hx hno => Or.inr ⟨⟨node0, c, rfl⟩, hgone x hx hno⟩⟩
      · cases Except.ok.inj (Option.some.inj hrun)
    · cases Except.ok.inj (Option.some.inj hrun)
  · obtain ⟨g1, hcollapse, hrun⟩ := andThen_eq_ok.mp hrun
    simp only [Option.some.injEq, Except.ok.injEq, Prod.mk.injEq] at hrun
    obtain ⟨rfl, rfl⟩ := hrun
    obtain ⟨hinv', hgone⟩ := collapseEdge_effect hinv hcollapse
    exact ⟨hinv', fun x hx hno => Or.inl (hgone x hx hno)⟩

theorem tryNodes_effect {node1 : Int} {l : List Int} {removal : Option (Int × Removal)}
    (hinv : g.CellsInv)
    (hrun : tryNodes tests twod surf fuel g node1 l = some (.ok (g', removal))) :
    Removes node1 g g' removal := by
  induction l with
  | nil =>
      simp only [tryNodes, Option.some.injEq, Except.ok.injEq, Prod.mk.injEq] at hrun
      obtain ⟨rfl, -⟩ := hrun
      exact ⟨hinv, fun x hx hno => absurd hx hno⟩
  | cons node0 rest ih =>
      obtain ⟨tried, htry, hrun⟩ := andThen_eq_ok.mp hrun
      split at hrun
      · simp only [Option.some.injEq, Except.ok.injEq, Prod.mk.injEq] at hrun
        obtain ⟨rfl, rfl⟩ := hrun
        exact tryNode0_effect hinv htry
      · exact ih hrun

variable [LinearOrder R]

/-- **One round of the pass** skips the node, or it is not over the limit; a node
that was removed leaves its neighborhood frozen. -/
theorem passStep_spec {i : Nat} {s s' : RefGrid D × PassArrays R}
    {removal : Option (Int × Removal)} (hinv : s.1.CellsInv)
    (hrun : passStep tests twod surf fuel i s = some (.ok (s', removal))) :
    Raised tests s.2 s'.2 ∧ Removes (s.2.target i) s.1 s'.1 removal ∧
      (tests.collapseRatio < s.2.ratio i → s' = s ∧ removal = none) ∧
      (validNode s.1 (s.2.target i) = true → ¬ validNode s'.1 (s.2.target i) = true →
        freeze tests (passCells surf s'.1) (keptNode removal) s.2 = .ok s'.2) := by
  rw [passStep] at hrun
  by_cases hlong : tests.collapseRatio < s.2.ratio i
  · simp only [if_pos hlong, Option.some.injEq, Except.ok.injEq, Prod.mk.injEq] at hrun
    obtain ⟨rfl, rfl⟩ := hrun
    exact ⟨Raised.refl tests _, ⟨hinv, fun x hx hno => absurd hx hno⟩, fun _ => ⟨rfl, rfl⟩,
      fun hx hno => absurd hx hno⟩
  by_cases hvalid : ¬ validNode s.1 (s.2.target i) = true
  · simp only [if_neg hlong, if_pos hvalid, Option.some.injEq, Except.ok.injEq,
      Prod.mk.injEq] at hrun
    obtain ⟨rfl, rfl⟩ := hrun
    exact ⟨Raised.refl tests _, ⟨hinv, fun x hx hno => absurd hx hno⟩, fun _ => ⟨rfl, rfl⟩,
      fun hx hno => absurd hx hno⟩
  simp only [if_neg hlong, if_neg hvalid] at hrun
  obtain ⟨tried, htried, hrun⟩ := andThen_eq_ok.mp hrun
  have hremoves : Removes (s.2.target i) s.1 tried.1 tried.2 := by
    rw [collapseToRemoveNode1, if_neg hvalid] at htried
    obtain ⟨candidates, -, htried⟩ := andThen_eq_ok.mp htried
    exact tryNodes_effect hinv htried
  by_cases hgone : ¬ validNode tried.1 (s.2.target i) = true
  · rw [if_pos hgone] at hrun
    obtain ⟨a, hfreeze, hrun⟩ := andThen_eq_ok.mp hrun
    simp only [Option.some.injEq, Except.ok.injEq, Prod.mk.injEq] at hrun hfreeze
    obtain ⟨rfl, rfl⟩ := hrun
    have hcells : (passCells surf tried.1).CellInv := by
      rw [passCells]
      split
      · exact hremoves.inv.inv .tri
      · exact hremoves.inv.inv .tet
    exact ⟨(freeze_spec hcells hfreeze).1, hremoves, fun h => absurd h hlong, fun _ _ => hfreeze⟩
  · rw [if_neg hgone] at hrun
    simp only [Option.some.injEq, Except.ok.injEq, Prod.mk.injEq] at hrun
    obtain ⟨rfl, rfl⟩ := hrun
    exact ⟨Raised.refl tests _, hremoves, fun h => absurd h hlong, fun _ hno => absurd hno hgone⟩

/-- Many rounds keep the stores valid and only raise ratios. -/
theorem passLoop_spec {l : List Nat} {s s' : RefGrid D × PassArrays R} (hinv : s.1.CellsInv)
    (hrun : passLoop tests twod surf fuel l s = some (.ok s')) :
    s'.1.CellsInv ∧ Raised tests s.2 s'.2 := by
  induction l generalizing s with
  | nil =>
      obtain rfl := Except.ok.inj (Option.some.inj hrun)
      exact ⟨hinv, Raised.refl tests _⟩
  | cons i rest ih =>
      obtain ⟨stepped, hstep, hrest⟩ := andThen_eq_ok.mp hrun
      obtain ⟨hraised, hremoves, -, -⟩ := passStep_spec hinv hstep
      obtain ⟨hinv', hraised'⟩ := ih hremoves.inv hrest
      exact ⟨hinv', hraised.trans hraised'⟩

/-- The places that the pass visits are places of targets. -/
theorem passStart_ok {mem : RefEdge} {a : PassArrays R} {order : List Nat}
    (hstart : passStart tests mem g = .ok (a, order)) :
    TargetInv g.node.max a ∧ ∀ i ∈ order, i < a.ntarget := by
  obtain ⟨edges, -, hstart⟩ := bind_eq_ok.mp hstart
  obtain ⟨ratio, -, hstart⟩ := bind_eq_ok.mp hstart
  simp only [Except.ok.injEq, Prod.mk.injEq] at hstart
  obtain ⟨rfl, rfl⟩ := hstart
  refine ⟨collectTargets_inv _ _, ?_⟩
  intro i hi
  obtain ⟨k, hk, rfl⟩ := List.mem_map.mp hi
  exact (sortHeap_bijOn _ _ _).1 k (List.mem_range.mp hk)

/-- **The neighborhood of a collapse is frozen.**  In a pass over a tetrahedral
or a surface grid, let one round remove a node and leave `node0`.  No later round
collapses a node that shares a cell with `node0` then, and such a node goes away
only with the cavity of another collapse, which leaves it without tets and
triangles. -/
theorem collapse_pass_freezes (hinv : g.CellsInv)
    (hlimit : tests.collapseRatio < tests.frozenRatio) (hkind : twod = true → surf = true)
    {mem : RefEdge} {a : PassArrays R} {before mid after : List Nat} {i j : Nat}
    (hstart : passStart tests mem g = .ok (a, before ++ i :: (mid ++ j :: after)))
    {s0 s1 s2 s3 : RefGrid D × PassArrays R} {removal removal' : Option (Int × Removal)}
    (hbefore : passLoop tests twod surf fuel before (g, a) = some (.ok s0))
    (hstep : passStep tests twod surf fuel i s0 = some (.ok (s1, removal)))
    (hvalid : validNode s0.1 (s0.2.target i) = true)
    (hremoved : ¬ validNode s1.1 (s0.2.target i) = true)
    (hmid : passLoop tests twod surf fuel mid s1 = some (.ok s2))
    (hlater : passStep tests twod surf fuel j s2 = some (.ok (s3, removal')))
    {x : Int} {cell : Nat} (hcell : (hoodCells twod surf s1.1).Live cell)
    (hnode0 : keptNode removal ∈ (hoodCells twod surf s1.1).nodeList cell)
    (hx : x ∈ (hoodCells twod surf s1.1).nodeList cell) :
    (s2.2.target j = x → s3 = s2 ∧ removal' = none) ∧
      (validNode s2.1 x = true → ¬ validNode s3.1 x = true →
        (∃ node0 c, removal' = some (node0, .replaced c)) ∧
          ∀ t ∈ [CellType.tet, .tri], ∀ cell, (s3.1.cell t).Live cell →
            x ∉ (s3.1.cell t).nodeList cell) := by
  have hcells : hoodCells twod surf s1.1 = passCells surf s1.1 := by
    cases twod with
    | false => rw [hoodCells, passCells, Bool.or_false]
    | true => rw [hoodCells, passCells, hkind rfl, Bool.or_true]
  rw [hcells] at hcell hnode0 hx
  obtain ⟨htargets, hplaces⟩ := passStart_ok hstart
  obtain ⟨hinv0, hraised0⟩ := passLoop_spec hinv hbefore
  obtain ⟨hraised1, hremoves1, -, hfreeze⟩ := passStep_spec hinv0 hstep
  obtain ⟨hinv2, hraised2⟩ := passLoop_spec hremoves1.inv hmid
  obtain ⟨-, hremoves3, hskip, -⟩ := passStep_spec hinv2 hlater
  have hstore : (passCells surf s1.1).CellInv := by
    rw [passCells]
    split
    · exact hremoves1.inv.inv .tri
    · exact hremoves1.inv.inv .tet
  have hfrozen := (freeze_spec hstore (hfreeze hvalid hremoved)).2 cell hcell hnode0 x hx
  -- the place of a target that is `x` holds a raised ratio, so that the round skips it
  have htarget : s2.2.target j = x → s3 = s2 ∧ removal' = none := by
    intro hj
    have hplace : j < a.ntarget := hplaces j (by simp)
    have hback : s0.2.node2target x = j := by
      rw [hraised0.node2target, ← htargets.back j hplace, ← hj, hraised2.target, hraised1.target,
        hraised0.target]
    have hraised := hfrozen (by rw [hback]; exact natCast_ne_refEmpty j)
    rw [hback, Int.toNat_natCast] at hraised
    apply hskip
    rw [hraised2.stays hraised]
    exact hlimit
  refine ⟨htarget, ?_⟩
  intro hbefore hgone
  rcases hremoves3.gone x hbefore hgone with hself | hswallowed
  · obtain ⟨rfl, -⟩ := htarget hself.symm
    exact absurd hbefore hgone
  · exact hswallowed

end Steps

/-! ## A cavity that swallows a frozen node -/

theorem exists_ok_of_observed {α β : Type} {x : Option (Except Status α)} {f : α → β} {b : β}
    (h : x.bind (fun r => r.toOption.map f) = some b) : ∃ a, x = some (.ok a) ∧ f a = b := by
  match x with
  | none => cases h
  | some (.error status) => cases h
  | some (.ok a) => exact ⟨a, rfl, Option.some.inj h⟩

/-- Six tets around node 0 and one more on their hull, with the triangles of the
boundary. -/
def swallowRows : CellType → List (List Int)
  | .tet => [[1, 2, 4, 0], [1, 4, 5, 0], [1, 5, 2, 0], [3, 4, 2, 0], [3, 5, 4, 0], [3, 2, 5, 0],
      [3, 4, 5, 6]]
  | .tri => [[1, 2, 4, 7], [1, 4, 5, 7], [1, 5, 2, 7], [3, 4, 2, 7], [3, 2, 5, 7], [4, 6, 5, 7],
      [3, 5, 6, 7], [3, 6, 4, 7]]
  | _ => []

/-- The grid of these tets, on seven nodes of one part. -/
def swallowGrid : RefGrid Int :=
  RefGrid.ofRows (afterCalls ((List.range 7).map fun k => NodeCall.add k)).store noGeom swallowRows

theorem swallowRows_fit (t : CellType) : RefCell.RowsFit t (swallowRows t) := by
  cases t <;> exact of_decide_eq_true rfl

theorem swallowGrid_inv : swallowGrid.CellsInv := RefGrid.ofRows_inv swallowRows_fit

/-- Node 6 may collapse into node 3, and node 1 into node 2 through a cavity
that does not see the face of nodes 0, 4 and 5. -/
def swallowTests : CollapseTests Int Int where
  collapseRatio := 10
  frozenRatio := 20
  nodeRatio := fun _ node0 node1 =>
    if (node0 = 3 ∧ node1 = 6) ∨ (node0 = 6 ∧ node1 = 3) then .ok 1
    else if (node0 = 1 ∧ node1 = 2) ∨ (node0 = 2 ∧ node1 = 1) then .ok 2 else .ok 15
  chordHeight := fun _ _ _ => .ok true
  ratio := fun _ node0 node1 => .ok ((node0 = 3 ∧ node1 = 6) ∨ (node0 = 2 ∧ node1 = 1))
  normdev := fun _ _ _ => .ok true
  sameNormal := fun _ _ _ => .ok true
  sameTangent := fun _ _ _ => .ok true
  twodOrientation := fun _ _ _ => .ok true
  triQuality := fun _ _ _ => .ok true
  tetQuality := fun _ node0 _ => .ok (node0 = 3)
  cavity := fun _ =>
    ⟨fun c face => .ok (c.f2n face 0 ∉ [0, 4, 5] ∨ c.f2n face 1 ∉ [0, 4, 5] ∨
      c.f2n face 2 ∉ [0, 4, 5]), fun _ _ => .ok true⟩
  cavityRatio := fun _ _ => .ok true
  cavityChange := fun _ _ => .ok true

/-- The rounds of a pass over four targets. -/
structure SwallowRun where
  start : PassArrays Int × List Nat
  first : (RefGrid Int × PassArrays Int) × Option (Int × Removal)
  between : RefGrid Int × PassArrays Int
  last : (RefGrid Int × PassArrays Int) × Option (Int × Removal)

/-- The pass over the nodes 6, 3, 2 and 1. -/
def swallowRun : Option (Except Status SwallowRun) :=
  andThen (some (passStart swallowTests noEdges swallowGrid)) fun start =>
  andThen (passStep swallowTests false false 40 3 (swallowGrid, start.1)) fun first =>
  andThen (passLoop swallowTests false false 40 [2, 1] first.1) fun between =>
  andThen (passStep swallowTests false false 40 0 between) fun last =>
  some (.ok ⟨start, first, between, last⟩)

/-- Node 6 goes away, nodes 0 and 3 share the tet 3 then, and the last round
removes node 0. -/
def SwallowRun.swallows (r : SwallowRun) : Bool :=
  r.start.2 = [3, 2, 1, 0] ∧ r.start.1.target 3 = 6 ∧ keptNode r.first.2 = 3 ∧
    validNode r.first.1.1 6 = false ∧ (r.first.1.1.cell .tet).Live 3 ∧
    (r.first.1.1.cell .tet).nodeList 3 = [3, 4, 2, 0] ∧
    validNode r.between.1 0 = true ∧ validNode r.last.1.1 0 = false

theorem exists_swallowRun : ∃ r : SwallowRun, swallowRun = some (.ok r) ∧ r.swallows = true :=
  exists_ok_of_observed (f := SwallowRun.swallows) (by decide +kernel)

theorem swallowRun_steps {r : SwallowRun} (hrun : swallowRun = some (.ok r)) :
    passStart swallowTests noEdges swallowGrid = .ok r.start ∧
      passStep swallowTests false false 40 3 (swallowGrid, r.start.1) = some (.ok r.first) ∧
      passLoop swallowTests false false 40 [2, 1] r.first.1 = some (.ok r.between) ∧
      passStep swallowTests false false 40 0 r.between = some (.ok r.last) := by
  obtain ⟨start, hstart, hrun⟩ := andThen_eq_ok.mp hrun
  obtain ⟨first, hfirst, hrun⟩ := andThen_eq_ok.mp hrun
  obtain ⟨between, hbetween, hrun⟩ := andThen_eq_ok.mp hrun
  obtain ⟨last, hlast, hrun⟩ := andThen_eq_ok.mp hrun
  simp only [Option.some.injEq, Except.ok.injEq] at hstart hrun
  subst hrun
  exact ⟨hstart, hfirst, hbetween, hlast⟩

theorem SwallowRun.swallows_iff {r : SwallowRun} : r.swallows = true ↔
    r.start.2 = [3, 2, 1, 0] ∧ r.start.1.target 3 = 6 ∧ keptNode r.first.2 = 3 ∧
      validNode r.first.1.1 6 = false ∧ (r.first.1.1.cell .tet).Live 3 ∧
      (r.first.1.1.cell .tet).nodeList 3 = [3, 4, 2, 0] ∧
      validNode r.between.1 0 = true ∧ validNode r.last.1.1 0 = false := by
  rw [SwallowRun.swallows, decide_eq_true_eq]

/-- Node 0 shares a tet with node 3 when node 6 has gone into it, and a later
round of the same pass removes node 0. -/
theorem frozen_node_swallowed : swallowGrid.CellsInv ∧ validNode swallowGrid 6 = true ∧
    ∃ (a : PassArrays Int) (s1 s2 s3 : RefGrid Int × PassArrays Int)
      (removal removal' : Option (Int × Removal)),
      passStart swallowTests noEdges swallowGrid = .ok (a, [3, 2, 1, 0]) ∧ a.target 3 = 6 ∧
      passStep swallowTests false false 40 3 (swallowGrid, a) = some (.ok (s1, removal)) ∧
      validNode s1.1 6 = false ∧ (s1.1.cell .tet).Live 3 ∧
      keptNode removal ∈ (s1.1.cell .tet).nodeList 3 ∧ 0 ∈ (s1.1.cell .tet).nodeList 3 ∧
      passLoop swallowTests false false 40 [2, 1] s1 = some (.ok s2) ∧
      passStep swallowTests false false 40 0 s2 = some (.ok (s3, removal')) ∧
      validNode s2.1 0 = true ∧ validNode s3.1 0 = false := by
  refine ⟨swallowGrid_inv, by decide +kernel, ?_⟩
  obtain ⟨⟨⟨a, order⟩, ⟨s1, removal⟩, s2, ⟨s3, removal'⟩⟩, hrun, hswallows⟩ := exists_swallowRun
  obtain ⟨hstart, hfirst, hbetween, hlast⟩ := swallowRun_steps hrun
  obtain ⟨rfl, htarget, hkept, hgone, hlive, hnodes, hvalid, hinvalid⟩ :=
    SwallowRun.swallows_iff.mp hswallows
  refine ⟨a, s1, s2, s3, removal, removal', hstart, htarget, hfirst, hgone, hlive, ?_, ?_,
    hbetween, hlast, hvalid, hinvalid⟩
  · rw [hkept, hnodes]
    decide
  · rw [hnodes]
    decide

/-- The theorem at that pass: node 0 goes away with the cavity of node 1. -/
theorem collapse_pass_freezes_swallowed : ∃ r : SwallowRun, swallowRun = some (.ok r) ∧
    (∃ node0 c, r.last.2 = some (node0, .replaced c)) ∧
      ∀ t ∈ [CellType.tet, .tri], ∀ cell, (r.last.1.1.cell t).Live cell →
        (0 : Int) ∉ (r.last.1.1.cell t).nodeList cell := by
  obtain ⟨r, hrun, hswallows⟩ := exists_swallowRun
  obtain ⟨hstart, hfirst, hbetween, hlast⟩ := swallowRun_steps hrun
  obtain ⟨horder, htarget, hkept, hgone, hlive, hnodes, hvalid, hinvalid⟩ :=
    SwallowRun.swallows_iff.mp hswallows
  have hstart' : passStart swallowTests noEdges swallowGrid
      = .ok (r.start.1, [] ++ 3 :: ([2, 1] ++ 0 :: [])) := by
    rw [hstart]
    exact congrArg _ (Prod.ext rfl horder)
  have hstands : validNode swallowGrid 6 = true := by decide +kernel
  refine ⟨r, hrun, ?_⟩
  have hfreezes := collapse_pass_freezes swallowGrid_inv (by decide) (by decide) hstart'
    rfl hfirst
    (by rw [htarget]; exact hstands) (by rw [htarget, hgone]; decide) hbetween hlast
    (x := 0) hlive (by rw [hkept]; exact hnodes ▸ (by decide : (3 : Int) ∈ [3, 4, 2, 0]))
    (hnodes ▸ (by decide : (0 : Int) ∈ [3, 4, 2, 0]))
  exact hfreezes.2 hvalid (by rw [hinvalid]; decide)

end RefineMesh
