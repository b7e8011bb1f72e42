import Mathlib.Tactic
import RefineMesh.GridParts
import RefineMesh.Relax
import RefineMesh.SubdivRuns
import RefineMesh.TetBits

/-!
# Relaxation reaches the least closed marking

One visit of a tet, one sweep of a rank, one round of all ranks, and the rounds
until no rank adds a mark.  Each round that goes on adds a mark of an owner, so
there are at most as many rounds as edges.
-/

namespace RefineMesh

open ArrayLoop MarkClosure Spmd

variable {D : Type}

namespace RefSubdiv

/-! ## One tet -/

/-- The marks of the edges `e` are the bits of `x`, the others those of
`mark0`. -/
structure Tracks (e : Nat → Nat) (mark0 : Nat → Int) (x : Nat × Bool) (acc : Relaxation) :
    Prop where
  bits : ∀ i < 6, acc.1 (e i) = (x.1.testBit i).toNat
  flag : acc.2 = x.2
  others : ∀ edge, (∀ i < 6, edge ≠ e i) → acc.1 edge = mark0 edge

section Tet

variable {s : RefSubdiv D} {tet : RefCell} {cell : Nat} {e : Nat → Nat} {mark0 : Nat → Int}

/-- Marks one after the other. -/
theorem Tracks.withEdges (hinj : ∀ i < 6, ∀ j < 6, e i = e j → i = j) :
    ∀ (edges : List Nat), (∀ i ∈ edges, i < 6) → ∀ {x : Nat × Bool} {acc : Relaxation},
      Tracks e mark0 x acc →
      Tracks e mark0 (MarkClosure.withEdges x.1 edges, true)
        (edges.foldl (fun mark i => Function.update mark (e i) 1) acc.1, true) := by
  intro edges
  induction edges with
  | nil =>
      intro _ x acc h
      exact ⟨h.bits, rfl, h.others⟩
  | cons i edges ih =>
      intro hlt x acc h
      have hi : i < 6 := hlt i List.mem_cons_self
      have hnext : Tracks e mark0 (x.1 ||| 2 ^ i, x.2) (Function.update acc.1 (e i) 1, acc.2) := by
        refine ⟨?_, h.flag, ?_⟩
        · intro j hj
          rw [Nat.testBit_or, Nat.testBit_two_pow]
          by_cases hij : i = j
          · subst hij
            simp
          · have hne : e j ≠ e i := fun heq => hij (hinj j hj i hi heq).symm
            simp [hij, Function.update_of_ne hne, h.bits j hj]
        · intro edge hedge
          exact (Function.update_of_ne (hedge i hi) _ _).trans (h.others edge hedge)
      exact ih (fun j hj => hlt j (List.mem_cons_of_mem _ hj)) hnext

theorem Tracks.sum {x : Nat × Bool} {acc : Relaxation} (h : Tracks e mark0 x acc) (edges : List Nat) (hlt : ∀ i ∈ edges, i < 6) :
    (edges.map fun i => acc.1 (e i)).sum = (marks x.1 edges : Int) := by
  induction edges with
  | nil => rfl
  | cons i edges ih =>
      rw [List.map_cons, List.sum_cons, ih fun j hj => hlt j (List.mem_cons_of_mem _ hj),
        h.bits i (hlt i List.mem_cons_self)]
      simp [marks]

/-- **`promote_2_3`** is a promotion of three edges. -/
theorem Tracks.promote23 (hinj : ∀ i < 6, ∀ j < 6, e i = e j → i = j)
    (he : ∀ i < 6, s.c2e tet i cell = .ok (e i)) {x : Nat × Bool} {acc : Relaxation}
    (h : Tracks e mark0 x acc) {i j k : Nat} (hi : i < 6) (hj : j < 6) (hk : k < 6) :
    ∃ acc', s.promote23 tet cell i j k acc = .ok acc' ∧
      Tracks e mark0 (promote [i, j, k] x) acc' := by
  have hlt : ∀ l ∈ [i, j, k], l < 6 := by simp [hi, hj, hk]
  have hsum := h.sum [i, j, k] hlt
  simp only [List.map_cons, List.map_nil, List.sum_cons, List.sum_nil, add_zero,
    ← add_assoc] at hsum
  simp only [RefSubdiv.promote23, he i hi, he j hj, he k hk, bind, Except.bind, hsum]
  unfold promote
  by_cases htwo : marks x.1 [i, j, k] = 2
  · rw [if_pos (by omega), if_pos htwo]
    exact ⟨_, rfl, h.withEdges hinj [i, j, k] hlt⟩
  · rw [if_neg (by omega), if_neg htwo]
    exact ⟨_, rfl, h⟩

/-- **`promote_2_all`** is a promotion of all edges: of the indices that it
tests at most one is 0. -/
theorem Tracks.promote2All (hinj : ∀ i < 6, ∀ j < 6, e i = e j → i = j)
    (he : ∀ i < 6, s.c2e tet i cell = .ok (e i)) {x : Nat × Bool} {acc : Relaxation}
    (h : Tracks e mark0 x acc) :
    ∃ acc', s.promote2All tet cell acc = .ok acc' ∧
      Tracks e mark0 (promote [0, 1, 2, 3, 4, 5] x) acc' := by
  have hlt : ∀ l ∈ [0, 1, 2, 3, 4, 5], l < 6 := by decide
  have hsum := h.sum [0, 1, 2, 3, 4, 5] hlt
  simp only [List.map_cons, List.map_nil, List.sum_cons, List.sum_nil, add_zero,
    ← add_assoc] at hsum
  have hindex : (0 < e 0 ∧ 0 < e 5) ∨ (0 < e 1 ∧ 0 < e 4) ∨ (0 < e 2 ∧ 3 < e 1) := by
    have h01 : e 0 ≠ e 1 := fun heq => absurd (hinj 0 (by decide) 1 (by decide) heq) (by decide)
    have h04 : e 0 ≠ e 4 := fun heq => absurd (hinj 0 (by decide) 4 (by decide) heq) (by decide)
    have h51 : e 5 ≠ e 1 := fun heq => absurd (hinj 5 (by decide) 1 (by decide) heq) (by decide)
    have h54 : e 5 ≠ e 4 := fun heq => absurd (hinj 5 (by decide) 4 (by decide) heq) (by decide)
    omega
  simp only [RefSubdiv.promote2All, he 0 (by decide), he 1 (by decide), he 2 (by decide),
    he 3 (by decide), he 4 (by decide), he 5 (by decide), bind, Except.bind, hsum, hindex,
    and_true]
  unfold promote
  by_cases htwo : marks x.1 [0, 1, 2, 3, 4, 5] = 2
  · rw [if_pos (by omega), if_pos htwo]
    exact ⟨_, rfl, h.withEdges hinj [0, 1, 2, 3, 4, 5] hlt⟩
  · rw [if_neg (by omega), if_neg htwo]
    exact ⟨_, rfl, h⟩

/-- One visit of a tet. -/
theorem relaxCell_tet (htype : tet.cellType = .tet)
    (hinj : ∀ i < 6, ∀ j < 6, e i = e j → i = j)
    (he : ∀ i < 6, s.c2e tet i cell = .ok (e i)) {x : Nat × Bool} {acc : Relaxation}
    (h : Tracks e mark0 x acc) :
    ∃ acc', s.relaxCell tet cell acc = .ok acc' ∧
      Tracks e mark0 (visits.foldl (fun x edges => promote edges x) x) acc' := by
  obtain ⟨acc1, hrun1, h1⟩ := h.promote23 (i := 3) (j := 4) (k := 5) hinj he (by decide)
    (by decide) (by decide)
  obtain ⟨acc2, hrun2, h2⟩ := h1.promote23 (i := 1) (j := 2) (k := 5) hinj he (by decide)
    (by decide) (by decide)
  obtain ⟨acc3, hrun3, h3⟩ := h2.promote23 (i := 0) (j := 2) (k := 4) hinj he (by decide)
    (by decide) (by decide)
  obtain ⟨acc4, hrun4, h4⟩ := h3.promote23 (i := 0) (j := 1) (k := 3) hinj he (by decide)
    (by decide) (by decide)
  obtain ⟨acc5, hrun5, h5⟩ := h4.promote2All hinj he
  refine ⟨acc5, ?_, h5⟩
  rw [relaxCell, RefCell.nodePer, htype]
  simp only [CellType.nodePer, hrun1, hrun2, hrun3, hrun4, hrun5, bind, Except.bind]

end Tet

end RefSubdiv

/-! ## One rank -/

/-- The edges with a mark by the globals of their ends. -/
def RefEdge.markedKeys (s : RefEdge) (refNode : RefNode D) (mark : Nat → Int) : Set (Sym2 Int) :=
  {k | ∃ e, e < s.n ∧ s.key refNode e = k ∧ mark e = 1}

/-- The marks are 0 or 1. -/
def RefEdge.Marks01 (s : RefEdge) (mark : Nat → Int) : Prop :=
  ∀ e, e < s.n → mark e = 0 ∨ mark e = 1

/-- Distributed meshes of tets with marks on their edges. -/
structure TetsMarked (p : Nat) (s : Nat → RefSubdiv D) : Prop where
  grids : GridDistributed p fun r => (s r).grid
  covers : ∀ r, r < p → (s r).edge.Covers (RefEdge.gridEdges (s r).grid)
  simple : ∀ r, r < p → ((s r).grid.cell .tet).Simple
  tets : ∀ r, r < p → ∀ t ∈ types3d, t ≠ .tet → ∀ c, ¬ ((s r).grid.cell t).Live c
  marks : ∀ r, r < p → (s r).edge.Marks01 (s r).mark

section Rank

variable {p : Nat} {s : Nat → RefSubdiv D} {r c : Nat}

theorem TetsMarked.edges (h : TetsMarked p s) :
    EdgesDistributed p (fun r => (s r).grid.node) fun r => (s r).edge := h.grids.edges h.covers

theorem TetsMarked.type (h : TetsMarked p s) (hr : r < p) :
    ((s r).grid.cell .tet).cellType = .tet := (h.grids.cells r hr).type .tet

/-- The corners of a tet have different globals. -/
theorem TetsMarked.corners (h : TetsMarked p s) (hr : r < p)
    (hlive : ((s r).grid.cell .tet).Live c) :
    Corners (((s r).grid.cell .tet).nodeGlobal (s r).grid.node c) := by
  intro i hi j hj heq
  obtain ⟨hposi, hlivei⟩ := h.grids.nodes r hr .tet c hlive i hi
  obtain ⟨hposj, hlivej⟩ := h.grids.nodes r hr .tet c hlive j hj
  have hslot := (h.grids.inv r hr).distinct _ _ hlivei hlivej heq
  have hnodes : ((s r).grid.cell .tet).c2n c i = ((s r).grid.cell .tet).c2n c j := by omega
  have hnodup := h.simple r hr c hlive
  rw [RefCell.nodeList, h.grids.nodePer_eq hr] at hnodup
  exact List.inj_on_of_nodup_map hnodup (List.mem_range.mpr hi) (List.mem_range.mpr hj) hnodes

theorem TetsMarked.mem_markedKeys (h : TetsMarked p s) (hr : r < p) (mark : Nat → Int) {e : Nat}
    (he : e < (s r).edge.n) :
    (s r).edge.key (s r).grid.node e ∈ (s r).edge.markedKeys (s r).grid.node mark ↔
      mark e = 1 := by
  constructor
  · rintro ⟨e', he', hkey, hmark⟩
    rwa [h.edges.key_inj hr he' he hkey] at hmark
  · intro hmark
    exact ⟨e, he, rfl, hmark⟩

/-- The six edges of a tet. -/
theorem TetsMarked.exists_tetEdges (h : TetsMarked p s) (hr : r < p)
    (hlive : ((s r).grid.cell .tet).Live c) :
    ∃ e : Nat → Nat, (∀ i < 6, (s r).c2e ((s r).grid.cell .tet) i c = .ok (e i) ∧
        e i < (s r).edge.n) ∧
      ∀ i < 4, ∀ j < 4, i ≠ j → (s r).edge.key (s r).grid.node (e (edgeBetween i j)) =
        s(((s r).grid.cell .tet).nodeGlobal (s r).grid.node c i,
          ((s r).grid.cell .tet).nodeGlobal (s r).grid.node c j) := by
  have hedge : ∀ i j, i < j → j < 4 → ∃ e,
      (s r).c2e ((s r).grid.cell .tet) (edgeBetween i j) c = .ok e ∧ e < (s r).edge.n ∧
      (s r).edge.key (s r).grid.node e = s(((s r).grid.cell .tet).nodeGlobal (s r).grid.node c i,
        ((s r).grid.cell .tet).nodeGlobal (s r).grid.node c j) := by
    intro i j hij hj
    obtain ⟨e, he, hjoins⟩ := h.grids.exists_tetEdge h.covers hr hlive (hij.trans hj) hj hij.ne
    refine ⟨e, ?_, he, RefEdge.key_of_joins hjoins⟩
    have hends : ((s r).grid.cell .tet).cellType.e2n[edgeBetween i j]? = some (i, j) := by
      rw [h.type hr]
      have hi : i < 4 := hij.trans hj
      interval_cases j <;> interval_cases i <;> rfl
    simp only [RefSubdiv.c2e, hlive, not_true, if_false, hends,
      RefEdge.edgeWith_of_joins (h.covers r hr).inv he hjoins]
  have hends : ∀ k < 6, ∃ i j, i < j ∧ j < 4 ∧ edgeBetween i j = k := by
    intro k hk
    obtain ⟨i, hi, j, hj, hij, rfl⟩ := exists_ends k hk
    rcases lt_or_gt_of_ne hij with hlt | hlt
    · exact ⟨i, j, hlt, hj, rfl⟩
    · exact ⟨j, i, hlt, hi, edgeBetween_of_sym2 Sym2.eq_swap⟩
  have hall : ∀ k < 6, ∃ e, (s r).c2e ((s r).grid.cell .tet) k c = .ok e := by
    intro k hk
    obtain ⟨i, j, hij, hj, rfl⟩ := hends k hk
    obtain ⟨e, hrun, _⟩ := hedge i j hij hj
    exact ⟨e, hrun⟩
  choose! e he using hall
  have hkeys : ∀ i j, i < j → j < 4 → e (edgeBetween i j) < (s r).edge.n ∧
      (s r).edge.key (s r).grid.node (e (edgeBetween i j)) =
        s(((s r).grid.cell .tet).nodeGlobal (s r).grid.node c i,
          ((s r).grid.cell .tet).nodeGlobal (s r).grid.node c j) := by
    intro i j hij hj
    obtain ⟨e', hrun, hlt, hkey⟩ := hedge i j hij hj
    rw [he _ (edgeBetween_lt i j), Except.ok.injEq] at hrun
    rw [hrun]
    exact ⟨hlt, hkey⟩
  refine ⟨e, fun k hk => ⟨he k hk, ?_⟩, ?_⟩
  · obtain ⟨i, j, hij, hj, rfl⟩ := hends k hk
    exact (hkeys i j hij hj).1
  · intro i hi j hj hij
    rcases lt_or_gt_of_ne hij with hlt | hlt
    · exact (hkeys i j hlt hj).2
    · rw [edgeBetween_of_sym2 (show s(i, j) = s(j, i) from Sym2.eq_swap), (hkeys j i hlt hi).2,
        Sym2.eq_swap]

/-- Two edges of a tet are different. -/
theorem TetsMarked.tetEdges_inj (h : TetsMarked p s) (hr : r < p)
    (hlive : ((s r).grid.cell .tet).Live c) {e : Nat → Nat}
    (hkeys : ∀ i < 4, ∀ j < 4, i ≠ j → (s r).edge.key (s r).grid.node (e (edgeBetween i j)) =
      s(((s r).grid.cell .tet).nodeGlobal (s r).grid.node c i,
        ((s r).grid.cell .tet).nodeGlobal (s r).grid.node c j)) :
    ∀ i < 6, ∀ j < 6, e i = e j → i = j := by
  have hcorners := h.corners hr hlive
  intro i hi j hj heq
  obtain ⟨a, ha, b, hb, hab, rfl⟩ := exists_ends i hi
  obtain ⟨a', ha', b', hb', hab', rfl⟩ := exists_ends j hj
  have hkey := hkeys a ha b hb hab
  rw [heq, hkeys a' ha' b' hb' hab'] at hkey
  apply edgeBetween_of_sym2
  rcases Sym2.eq_iff.mp hkey with ⟨h1, h2⟩ | ⟨h1, h2⟩
  · rw [hcorners _ ha' _ ha h1, hcorners _ hb' _ hb h2]
  · rw [hcorners _ ha' _ hb h1, hcorners _ hb' _ ha h2, Sym2.eq_swap]

/-- The marks of the edges of a tet are the bits of a pattern. -/
theorem TetsMarked.mark_eq_bit (h : TetsMarked p s) (hr : r < p) {mark : Nat → Int}
    (h01 : (s r).edge.Marks01 mark) {e : Nat → Nat} (hlt : ∀ i < 6, e i < (s r).edge.n)
    (hkeys : ∀ i < 4, ∀ j < 4, i ≠ j → (s r).edge.key (s r).grid.node (e (edgeBetween i j)) =
      s(((s r).grid.cell .tet).nodeGlobal (s r).grid.node c i,
        ((s r).grid.cell .tet).nodeGlobal (s r).grid.node c j)) {x : Nat}
    (hshows : Shows (((s r).grid.cell .tet).nodeGlobal (s r).grid.node c) x
      ((s r).edge.markedKeys (s r).grid.node mark)) :
    ∀ i < 6, mark (e i) = ((x.testBit i).toNat : Int) := by
  intro i hi
  obtain ⟨a, ha, b, hb, hab, rfl⟩ := exists_ends i hi
  have hbit := hshows a ha b hb hab
  rw [← hkeys a ha b hb hab, h.mem_markedKeys hr _ (hlt _ hi)] at hbit
  change _ = ((on x a b).toNat : Int)
  rcases h01 _ (hlt _ hi) with hm | hm
  · have hoff : on x a b = false := by
      rw [Bool.eq_false_iff, ne_eq, hbit, hm]
      decide
    rw [hm, hoff]
    rfl
  · rw [hm, hbit.mpr hm]
    rfl

/-- **One visit of a tet is a sweep over it.** -/
theorem TetsMarked.relaxCell_sweep (h : TetsMarked p s) (hr : r < p)
    (hlive : ((s r).grid.cell .tet).Live c) {acc : RefSubdiv.Relaxation}
    (h01 : (s r).edge.Marks01 acc.1) :
    ∃ acc' again, (s r).relaxCell ((s r).grid.cell .tet) c acc = .ok acc' ∧
      (s r).edge.Marks01 acc'.1 ∧
      Sweep {((s r).grid.cell .tet).key (s r).grid.node c}
        ((s r).edge.markedKeys (s r).grid.node acc.1)
        ((s r).edge.markedKeys (s r).grid.node acc'.1) again ∧ acc'.2 = (acc.2 || again) := by
  obtain ⟨e, hedges, hkeys⟩ := h.exists_tetEdges hr hlive
  have hcorners := h.corners hr hlive
  set g := ((s r).grid.cell .tet).nodeGlobal (s r).grid.node c with hg
  obtain ⟨x, hx, hshows⟩ := exists_shows g ((s r).edge.markedKeys (s r).grid.node acc.1)
  have hinj := h.tetEdges_inj hr hlive hkeys
  have htracks : RefSubdiv.Tracks e acc.1 (x, acc.2) acc :=
    ⟨h.mark_eq_bit hr h01 (fun i hi => (hedges i hi).2) hkeys hshows, rfl, fun _ _ => rfl⟩
  obtain ⟨acc', hrun, htracks'⟩ := RefSubdiv.relaxCell_tet (h.type hr) hinj
    (fun i hi => (hedges i hi).1) htracks
  rw [relax_flag] at htracks'
  refine ⟨acc', (relax x).2, hrun, ?_, ?_, htracks'.flag⟩
  · intro e0 he0
    by_cases hmine : ∃ i < 6, e0 = e i
    · obtain ⟨i, hi, rfl⟩ := hmine
      rw [htracks'.bits i hi]
      cases (relax x).1.testBit i <;> simp
    · rw [htracks'.others e0 fun i hi heq => hmine ⟨i, hi, heq⟩]
      exact h01 e0 he0
  · have htetra : ((s r).grid.cell .tet).key (s r).grid.node c = tetra g := by
      ext a
      rw [h.grids.mem_key hr, mem_tetra]
    rw [htetra]
    apply sweep_tetra hcorners hx hshows
    intro k
    constructor
    · rintro ⟨e0, he0, rfl, hmark⟩
      by_cases hmine : ∃ i < 6, e0 = e i
      · obtain ⟨i, hi, rfl⟩ := hmine
        obtain ⟨a, ha, b, hb, hab, rfl⟩ := exists_ends i hi
        refine Or.inr ⟨a, ha, b, hb, hab, ?_, (hkeys a ha b hb hab).symm⟩
        rw [htracks'.bits _ hi] at hmark
        simpa [on] using hmark
      · rw [htracks'.others e0 fun i hi heq => hmine ⟨i, hi, heq⟩] at hmark
        exact Or.inl ⟨e0, he0, rfl, hmark⟩
    · rintro (⟨e0, he0, rfl, hmark⟩ | ⟨a, ha, b, hb, hab, hon, rfl⟩)
      · refine ⟨e0, he0, rfl, ?_⟩
        by_cases hmine : ∃ i < 6, e0 = e i
        · obtain ⟨i, hi, rfl⟩ := hmine
          have hbit : x.testBit i = true := by
            have := htracks.bits i hi
            rw [hmark] at this
            simpa using this.symm
          rw [htracks'.bits i hi, (visited x hx).mono i hi hbit]
          rfl
        · rw [htracks'.others e0 fun i hi heq => hmine ⟨i, hi, heq⟩]
          exact hmark
      · refine ⟨e (edgeBetween a b), (hedges _ (edgeBetween_lt a b)).2, hkeys a ha b hb hab, ?_⟩
        rw [htracks'.bits _ (edgeBetween_lt a b), show (relax x).1.testBit (edgeBetween a b) = true
          from hon]
        rfl

/-- Tet after tet. -/
theorem TetsMarked.relaxTets_sweep (h : TetsMarked p s) (hr : r < p) :
    ∀ (l : List Nat), (∀ c ∈ l, ((s r).grid.cell .tet).Live c) → ∀ (acc : RefSubdiv.Relaxation),
      (s r).edge.Marks01 acc.1 →
      ∃ acc' again, l.foldlM (fun acc c => (s r).relaxCell ((s r).grid.cell .tet) c acc) acc =
          Except.ok acc' ∧ (s r).edge.Marks01 acc'.1 ∧
        Sweep {T | ∃ c ∈ l, ((s r).grid.cell .tet).key (s r).grid.node c = T}
          ((s r).edge.markedKeys (s r).grid.node acc.1)
          ((s r).edge.markedKeys (s r).grid.node acc'.1) again ∧ acc'.2 = (acc.2 || again) := by
  intro l
  induction l with
  | nil =>
      intro _ acc h01
      refine ⟨acc, false, rfl, h01, ?_, (Bool.or_false _).symm⟩
      simpa using Sweep.nil _
  | cons c l ih =>
      intro hlive acc h01
      obtain ⟨acc1, again1, hrun1, h01', hsweep1, hflag1⟩ :=
        h.relaxCell_sweep hr (hlive c List.mem_cons_self) h01
      obtain ⟨acc2, again2, hrun2, h01'', hsweep2, hflag2⟩ :=
        ih (fun c hc => hlive c (List.mem_cons_of_mem _ hc)) acc1 h01'
      refine ⟨acc2, again1 || again2, ?_, h01'', ?_, ?_⟩
      · rw [List.foldlM_cons, hrun1]
        exact hrun2
      · have hcells : {T | ∃ c' ∈ c :: l, ((s r).grid.cell .tet).key (s r).grid.node c' = T} =
            {((s r).grid.cell .tet).key (s r).grid.node c} ∪
              {T | ∃ c' ∈ l, ((s r).grid.cell .tet).key (s r).grid.node c' = T} := by
          ext T
          simp [eq_comm]
        rw [hcells]
        exact hsweep1.trans hsweep2
      · rw [hflag2, hflag1, Bool.or_assoc]

/-- The loops over all cells are loops over the tets. -/
theorem TetsMarked.foldlM_types3d (h : TetsMarked p s) (hr : r < p) {B : Type}
    (f : B → CellType → Nat → Except Status B) (b : B) :
    types3d.foldlM (fun acc t =>
        ((s r).grid.cell t).validCells.foldlM (fun acc c => f acc t c) acc) b =
      ((s r).grid.cell .tet).validCells.foldlM (fun acc c => f acc .tet c) b := by
  have hempty : ∀ t ∈ types3d, t ≠ .tet → ((s r).grid.cell t).validCells = [] := by
    intro t ht hne
    apply List.eq_nil_iff_forall_not_mem.mpr
    intro c hc
    exact h.tets r hr t ht hne c (RefCell.mem_validCells.mp hc)
  have hrest : ∀ l : List CellType, (∀ t ∈ l, ((s r).grid.cell t).validCells = []) → ∀ b,
      l.foldlM (fun acc t =>
        ((s r).grid.cell t).validCells.foldlM (fun acc c => f acc t c) acc) b =
          Except.ok b := by
    intro l
    induction l with
    | nil => exact fun _ _ => rfl
    | cons t l ih =>
        intro hl b
        rw [List.foldlM_cons, hl t List.mem_cons_self]
        exact ih (fun t ht => hl t (List.mem_cons_of_mem _ ht)) b
  rw [types3d, List.foldlM_cons]
  have hothers := hrest types3d.tail fun t ht =>
    hempty t (List.mem_cons_of_mem _ ht) (by
      rintro rfl
      exact absurd ht (by decide))
  cases hrun : ((s r).grid.cell .tet).validCells.foldlM (fun acc c => f acc .tet c) b with
  | error e => rfl
  | ok b' => exact hothers b'

/-- **One sweep of a rank** goes over its tets. -/
theorem TetsMarked.relaxSweep_sweep (h : TetsMarked p s) (hr : r < p) {mark : Nat → Int}
    (h01 : (s r).edge.Marks01 mark) :
    ∃ acc, (s r).relaxSweep mark = .ok acc ∧ (s r).edge.Marks01 acc.1 ∧
      Sweep (tetKeys (s r).grid) ((s r).edge.markedKeys (s r).grid.node mark)
        ((s r).edge.markedKeys (s r).grid.node acc.1) acc.2 := by
  obtain ⟨acc, again, hrun, h01', hsweep, hflag⟩ := h.relaxTets_sweep hr
    ((s r).grid.cell .tet).validCells (fun c hc => RefCell.mem_validCells.mp hc)
    (mark, false) h01
  refine ⟨acc, ?_, h01', ?_⟩
  · rw [← hrun]
    exact h.foldlM_types3d hr (fun acc t c => (s r).relaxCell ((s r).grid.cell t) c acc) _
  · rw [hflag, Bool.false_or]
    have hcells : {T | ∃ c ∈ ((s r).grid.cell .tet).validCells,
        ((s r).grid.cell .tet).key (s r).grid.node c = T} = tetKeys (s r).grid := by
      ext T
      simp [tetKeys, RefCell.mem_validCells]
    rwa [hcells] at hsweep

end Rank

/-! ## All ranks -/

/-- The edges that a rank owns. -/
abbrev ownedEdges (s : Nat → RefSubdiv D) (r : Nat) : Set (Sym2 Int) :=
  (s r).edge.ownedKeys (s r).grid.node

/-- The edges of all ranks. -/
def edgeKeys (p : Nat) (s : Nat → RefSubdiv D) : Set (Sym2 Int) :=
  {k | ∃ r, r < p ∧ k ∈ (s r).edge.keys (s r).grid.node}

/-- The edges that have a mark on some rank. -/
def markedEdges (p : Nat) (s : Nat → RefSubdiv D) (marks : Nat → Nat → Int) : Set (Sym2 Int) :=
  {k | ∃ r, r < p ∧ k ∈ (s r).edge.markedKeys (s r).grid.node (marks r)}

/-- The edges that have a mark on their owner. -/
def ownersMarked (p : Nat) (s : Nat → RefSubdiv D) (marks : Nat → Nat → Int) : Set (Sym2 Int) :=
  ofOwners p (ownedEdges s) fun r => (s r).edge.markedKeys (s r).grid.node (marks r)

/-- The tets of the ranks. -/
abbrev rankTets (s : Nat → RefSubdiv D) (r : Nat) : Set (Finset Int) := tetKeys (s r).grid

/-- On every rank the marked edges are those of one set. -/
structure Consistent (p : Nat) (s : Nat → RefSubdiv D) (marks : Nat → Nat → Int)
    (G : Set (Sym2 Int)) : Prop where
  marks01 : ∀ r, r < p → (s r).edge.Marks01 (marks r)
  keys : ∀ r, r < p → (s r).edge.markedKeys (s r).grid.node (marks r) =
    (s r).edge.keys (s r).grid.node ∩ G
  sub : G ⊆ edgeKeys p s

theorem finite_edgeKeys (p : Nat) (s : Nat → RefSubdiv D) : (edgeKeys p s).Finite := by
  have hunion : edgeKeys p s = ⋃ r ∈ Finset.range p, ⋃ e ∈ Finset.range (s r).edge.n,
      {(s r).edge.key (s r).grid.node e} := by
    ext k
    simp [edgeKeys, RefEdge.keys, eq_comm]
  rw [hunion]
  exact Set.Finite.biUnion (Finset.finite_toSet _) fun r _ =>
    Set.Finite.biUnion (Finset.finite_toSet _) fun e _ => Set.finite_singleton _

theorem flags_false {p : Nat} {flag : Nat → Bool} (h : ¬ ∃ q, q < p ∧ flag q = true) :
    ∀ r, r < p → flag r = false := by
  intro r hr
  by_contra hflag
  exact h ⟨r, hr, by simpa using hflag⟩

/-- The sum of the flags tells whether one rank has the flag. -/
theorem decide_sum_flags {p : Nat} {flag : Nat → Bool} {b : Bool}
    (hb : b = true ↔ ∃ q, q < p ∧ flag q = true) :
    decide (min (∑ q ∈ Finset.range p, if flag q then (1 : Int) else 0) 1 ≠ 0) = b := by
  have hnonneg : ∀ q ∈ Finset.range p, (0 : Int) ≤ if flag q then 1 else 0 := by
    intro q _
    split <;> decide
  rw [Bool.eq_iff_iff, decide_eq_true_iff, hb]
  have hzero := Finset.sum_eq_zero_iff_of_nonneg hnonneg
  have hpos := Finset.sum_nonneg hnonneg
  constructor
  · intro hmin
    by_contra hnone
    have hall : (∑ q ∈ Finset.range p, if flag q then (1 : Int) else 0) = 0 := by
      rw [hzero]
      intro q hq
      rw [if_neg fun hf => hnone ⟨q, Finset.mem_range.mp hq, hf⟩]
    rw [hall] at hmin
    exact hmin (by decide)
  · rintro ⟨q, hq, hf⟩ hmin
    have hall := hzero.mp (by omega) q (Finset.mem_range.mpr hq)
    rw [if_pos hf] at hall
    cases hall

/-- The ranks learn whether one of them has the flag. -/
theorem allOr_run {α : Type} {p : Nat} {flag : Nat → Bool} {k : Nat → Bool → RankProg D α}
    {out : Nat → α} {b : Bool} (hb : b = true ↔ ∃ q, q < p ∧ flag q = true)
    (h : Runs p (fun r => k r b) out) : Runs p (fun r => allOr (flag r) (k r)) out := by
  refine .allsum (fun r => if flag r then 1 else 0) (fun r total => k r (min total 1 ≠ 0))
    (fun r _ => rfl) (h.congr fun r _ => ?_)
  simp only [decide_sum_flags hb]

theorem runs_allOr_iff {α : Type} {p : Nat} {flag : Nat → Bool} {k : Nat → Bool → RankProg D α}
    {out : Nat → α} {b : Bool} (hp : 0 < p) (hb : b = true ↔ ∃ q, q < p ∧ flag q = true) :
    Runs p (fun r => allOr (flag r) (k r)) out ↔ Runs p (fun r => k r b) out := by
  refine ⟨fun h => ?_, allOr_run hb⟩
  have hrest := (runs_allsum_iff hp fun r _ => rfl).mp h
  simpa only [decide_sum_flags hb] using hrest

section Rounds

variable {p : Nat} {s : Nat → RefSubdiv D}

theorem TetsMarked.shared (h : TetsMarked p s) :
    Shared p (rankTets s) (fun r => (s r).edge.keys (s r).grid.node) (ownedEdges s) :=
  h.grids.shared h.covers

theorem TetsMarked.ofOwners_sub (h : TetsMarked p s) (M : Nat → Set (Sym2 Int)) :
    ofOwners p (ownedEdges s) M ⊆ edgeKeys p s := by
  rintro k ⟨r, hr, hown, _⟩
  exact ⟨r, hr, h.shared.sub r hr hown⟩

/-- After the exchange all ranks have the marks of the owners. -/
theorem TetsMarked.consistent_of_ownersValue (h : TetsMarked p s) {marks out : Nat → Nat → Int}
    (h01 : ∀ r, r < p → (s r).edge.Marks01 (marks r))
    (hout : OwnersValue p (fun r => (s r).grid.node) (fun r => (s r).edge) marks out) :
    Consistent p s out (ownersMarked p s marks) := by
  have hedges := h.edges
  refine ⟨?_, ?_, h.ofOwners_sub _⟩
  · intro r hr e he
    obtain ⟨hq, e', he', hkey⟩ := hedges.owner r hr e he
    rw [hout r hr e he e' he' hkey]
    exact h01 _ hq e' he'
  · intro r hr
    ext k
    constructor
    · rintro ⟨e, he, rfl, hmark⟩
      obtain ⟨hq, e', he', hkey⟩ := hedges.owner r hr e he
      rw [hout r hr e he e' he' hkey] at hmark
      refine ⟨⟨e, he, rfl⟩, _, hq, ⟨e', he', ?_, hkey⟩, e', he', hkey, hmark⟩
      rw [h.grids.rank _ hq]
      exact hedges.edgePart_eq hq hr he' he hkey
    · rintro ⟨⟨e, he, rfl⟩, q, hq, ⟨e1, he1, hpart, hkey1⟩, e2, he2, hkey2, hmark⟩
      refine ⟨e, he, rfl, ?_⟩
      rw [h.grids.rank q hq] at hpart
      have howner : (s r).edge.edgePart (s r).grid.node e = q :=
        (hedges.edgePart_eq hq hr he1 he hkey1).symm.trans hpart
      have hvalue := hout r hr e he e2
      simp only [howner] at hvalue
      rw [hvalue he2 hkey2]
      exact hmark

/-- **One round**: the sweeps of the ranks and the exchange after them. -/
theorem TetsMarked.round (h : TetsMarked p s) {marks : Nat → Nat → Int} {G : Set (Sym2 Int)}
    (hG : Consistent p s marks G) :
    ∃ acc : Nat → RefSubdiv.Relaxation, (∀ r, r < p → (s r).relaxSweep (marks r) = .ok (acc r)) ∧
      (∀ r, r < p → (s r).edge.Marks01 (acc r).1) ∧
      ∀ r, r < p → Sweep (rankTets s r) ((s r).edge.keys (s r).grid.node ∩ G)
        ((s r).edge.markedKeys (s r).grid.node (acc r).1) (acc r).2 := by
  have hall : ∀ r, r < p → ∃ acc, (s r).relaxSweep (marks r) = .ok acc ∧
      (s r).edge.Marks01 acc.1 ∧ Sweep (rankTets s r) ((s r).edge.keys (s r).grid.node ∩ G)
        ((s r).edge.markedKeys (s r).grid.node acc.1) acc.2 := by
    intro r hr
    obtain ⟨acc, hrun, h01, hsweep⟩ := h.relaxSweep_sweep hr (hG.marks01 r hr)
    rw [hG.keys r hr] at hsweep
    exact ⟨acc, hrun, h01, hsweep⟩
  choose! acc hrun h01 hsweep using hall
  exact ⟨acc, hrun, h01, hsweep⟩

/-- **The rounds** end after at most as many as there are edges without a
mark, and one more. -/
theorem TetsMarked.relaxSweeps_run (h : TetsMarked p s) (hp : 0 < p)
    (hfit : p ≤ 1 ∨ EdgesFit p (fun r => (s r).grid.node) fun r => (s r).edge)
    (mem : Nat → Nat → RequestMemory Int) :
    ∀ fuel G marks, Consistent p s marks G → (edgeKeys p s \ G).ncard < fuel →
      ∃ G' final, Runs p (fun r => (s r).relaxSweeps p (mem r) fuel (marks r))
          (fun r => some (final r)) ∧
        Consistent p s final G' ∧ G ⊆ G' ∧ ClosedAll p (rankTets s) G' ∧
        ∀ S, ClosedAll p (rankTets s) S → G ⊆ S → G' ⊆ S := by
  intro fuel
  induction fuel with
  | zero => exact fun _ _ _ hlt => absurd hlt (Nat.not_lt_zero _)
  | succ fuel ih =>
      intro G marks hG hlt
      obtain ⟨acc, hrun, h01, hsweep⟩ := h.round hG
      obtain ⟨⟨out, hghost⟩, hvalues⟩ := h.edges.ghost_yields hp hfit .int (fun r => (acc r).1)
        fun r => mem r fuel
      have hout := h.consistent_of_ownersValue h01 (hvalues out hghost)
      have hsub := h.shared.subset hsweep hG.sub
      have hsound : ∀ S, ClosedAll p (rankTets s) S → G ⊆ S →
          ownersMarked p s (fun r => (acc r).1) ⊆ S := fun S hS hGS =>
        ofOwners_subset hsweep hS hGS
      -- what one round and the rest amount to
      have hprog : ∀ (b : Bool) (result : Nat → Option (Nat → Int)),
          (b = true ↔ ∃ q, q < p ∧ (acc q).2 = true) →
          Runs p (fun r => if b then (s r).relaxSweeps p (mem r) fuel (out r)
            else .ret (some (out r))) result →
          Runs p (fun r => (s r).relaxSweeps p (mem r) (fuel + 1) (marks r)) result := by
        intro b result hb hrest
        refine Runs.congr (hghost.bind (f := fun r mark => allOr (acc r).2 fun again =>
          if again then (s r).relaxSweeps p (mem r) fuel mark else .ret (some mark))
          (allOr_run hb hrest)) ?_
        intro r hr
        rw [RefSubdiv.relaxSweeps, hrun r hr, Prog.lift_ok, Prog.ret_bind]
        rfl
      by_cases hagain : ∃ q, q < p ∧ (acc q).2 = true
      · obtain ⟨q, hq, hflag⟩ := hagain
        obtain ⟨k, hk, hnew⟩ := h.shared.grows hsweep hq hflag
        have hless : (edgeKeys p s \ ownersMarked p s fun r => (acc r).1).ncard <
            (edgeKeys p s \ G).ncard := by
          apply Set.ncard_lt_ncard _ ((finite_edgeKeys p s).sdiff)
          refine ⟨Set.sdiff_subset_sdiff_right hsub, fun hback => ?_⟩
          exact (hback ⟨hout.sub hk, hnew⟩).2 hk
        obtain ⟨G', final, hruns, hfinal, hsub', hclosed, hleast⟩ := ih _ out hout (by omega)
        refine ⟨G', final, hprog true _ (by simpa using ⟨q, hq, hflag⟩) (by simpa using hruns),
          hfinal, hsub.trans hsub', hclosed, ?_⟩
        intro S hS hGS
        exact hleast S hS (hsound S hS hGS)
      · have hstill : ∀ r, r < p → (acc r).2 = false := flags_false hagain
        obtain ⟨hsame, hclosed⟩ := h.shared.still hsweep hstill
        have heq : ownersMarked p s (fun r => (acc r).1) = G := hsame.antisymm hsub
        rw [heq] at hout
        refine ⟨G, out, hprog false _ (by simpa using hagain) (.ret fun r _ => rfl), hout,
          subset_rfl, hclosed, fun S _ hGS => hGS⟩

end Rounds

/-! ## The maps that can be cut -/

namespace RefSubdiv

section Implemented

variable {s : RefSubdiv D}

theorem c2e_plain {refCell : RefCell} {cellEdge cell : Nat} {e : Status}
    (h : s.c2e refCell cellEdge cell = .error e) : e.Plain := by
  simp only [c2e] at h
  split at h
  · cases h
    decide
  · split at h
    · cases h
      decide
    · split at h <;> cases h
      decide

theorem nodeBetween_plain {a b : Int} {e : Status} (h : s.nodeBetween a b = .error e) :
    e.Plain := by
  rcases bind_eq_error.mp h with h | ⟨_, _, h⟩
  · simp only [RefEdge.edgeWith] at h
    split at h <;> cases h
    decide
  · cases h

theorem oneEdgeRows_plain {tet : RefCell} {cell : Nat} {nodes : Nat → Int} {e : Status}
    (h : s.oneEdgeRows tet cell nodes = .error e) : e.Plain := by
  rcases bind_eq_error.mp h with h | ⟨splitEdge, _, h⟩
  · obtain ⟨_, k, hstep⟩ := exists_of_foldlM_error h
    rcases bind_eq_error.mp hstep with h | ⟨_, _, h⟩
    · exact c2e_plain h
    · cases h
  · cases splitEdge with
    | none =>
        cases h
        decide
    | some k =>
        rcases bind_eq_error.mp h with h | ⟨_, _, h⟩
        · exact c2e_plain h
        · cases h

theorem fourRows_plain {nodes : Nat → Int} {e : Status} (h : s.fourRows nodes = .error e) :
    e.Plain := by
  simp only [fourRows, bind_eq_error, reduceCtorEq, and_false, exists_false, or_false] at h
  grind [nodeBetween_plain]

theorem eightRows_plain {nodes : Nat → Int} {e : Status} (h : s.eightRows nodes = .error e) :
    e.Plain := by
  simp only [eightRows, bind_eq_error, reduceCtorEq, and_false, exists_false, or_false] at h
  grind [nodeBetween_plain]

/-- Every map of the list has its case. -/
theorem tetRows_plain {tet : RefCell} {cell : Nat} {map : Int} {nodes : Nat → Int} {e : Status}
    (hmap : map ∈ [0, 1, 2, 4, 8, 16, 32, 11, 56, 38, 21, 63])
    (h : s.tetRows tet cell map nodes = .error e) : e.Plain := by
  simp only [List.mem_cons, List.not_mem_nil, or_false] at hmap
  rcases hmap with rfl | rfl | rfl | rfl | rfl | rfl | rfl | rfl | rfl | rfl | rfl | rfl
  · cases h
  all_goals first
    | exact oneEdgeRows_plain h
    | exact fourRows_plain h
    | exact eightRows_plain h

theorem addRows_plain {refCell : RefCell} {rows : List (Nat → Int)} {e : Status}
    (h : addRows refCell rows = .error e) : e.Plain := by
  obtain ⟨_, nodes, hstep⟩ := exists_of_foldlM_error h
  rcases bind_eq_error.mp hstep with h | ⟨_, _, h⟩
  · exact RefCell.add_plain h
  · cases h

theorem addLocalCells_plain {refCell split : RefCell} {e : Status}
    (h : s.addLocalCells refCell split = .error e) : e.Plain := by
  obtain ⟨_, cell, hstep⟩ := exists_of_foldlM_error h
  simp only [addLocalCell] at hstep
  split at hstep
  · rcases bind_eq_error.mp hstep with h | ⟨_, _, h⟩
    · exact RefCell.add_plain h
    · cases h
  · cases hstep

/-- When all tets have a map of the list, `ref_subdiv_split_tet` does not reach
its `map not implemented`. -/
theorem splitTet_ne_implement (hmap : ∀ cell map, s.cellMap (s.grid.cell .tet) cell = .ok map →
      map ∈ [0, 1, 2, 4, 8, 16, 32, 11, 56, 38, 21, 63]) (mem : RefCell) :
    s.splitTet mem ≠ .error .implement := by
  intro h
  refine absurd ?_ (show ¬ Status.implement.Plain by decide)
  rcases bind_eq_error.mp h with h | ⟨acc, _, h⟩
  · obtain ⟨_, cell, hstep⟩ := exists_of_foldlM_error h
    rcases bind_eq_error.mp hstep with h | ⟨map, hrun, h⟩
    · rcases bind_eq_error.mp h with h | ⟨_, _, h⟩
      · obtain ⟨_, k, hedge⟩ := exists_of_foldlM_error h
        rcases bind_eq_error.mp hedge with h | ⟨_, _, h⟩
        · exact c2e_plain h
        · cases h
      · cases h
    · rcases bind_eq_error.mp h with h | ⟨nodes, _, h⟩
      · exact RefCell.nodes_plain h
      · rcases bind_eq_error.mp h with h | ⟨rows, _, h⟩
        · exact tetRows_plain (hmap cell map hrun) h
        · rcases bind_eq_error.mp h with h | ⟨_, _, h⟩
          · exact addRows_plain h
          · cases h
  · rcases bind_eq_error.mp h with h | ⟨tet, _, h⟩
    · obtain ⟨_, cell, hstep⟩ := exists_of_foldlM_error h
      exact RefCell.remove_plain hstep
    · rcases bind_eq_error.mp h with h | ⟨_, _, h⟩
      · exact addLocalCells_plain h
      · cases h

end Implemented

end RefSubdiv

/-- The store of rank `r` with the marks of the relaxation. -/
def withMarks (s : Nat → RefSubdiv D) (marks : Nat → Nat → Int) (r : Nat) : RefSubdiv D :=
  { s r with mark := marks r }

section Maps

variable {p : Nat} {s : Nat → RefSubdiv D} {marks : Nat → Nat → Int} {G : Set (Sym2 Int)}

/-- A tet on which the marks are closed has one of the maps. -/
theorem TetsMarked.cellMap_mem (h : TetsMarked p s) (hG : Consistent p s marks G)
    (hclosed : ClosedAll p (rankTets s) G) {r c : Nat} (hr : r < p)
    (hlive : ((s r).grid.cell .tet).Live c) :
    ∃ map ∈ ([0, 1, 2, 4, 8, 16, 32, 11, 56, 38, 21, 63] : List Int),
      (withMarks s marks r).cellMap ((s r).grid.cell .tet) c = .ok map := by
  obtain ⟨e, hedges, hkeys⟩ := h.exists_tetEdges hr hlive
  have hcorners := h.corners hr hlive
  set g := ((s r).grid.cell .tet).nodeGlobal (s r).grid.node c with hg
  obtain ⟨x, hx, hshows⟩ := exists_shows g G
  have htetra : tetra g ∈ rankTets s r := by
    refine ⟨c, hlive, ?_⟩
    ext a
    rw [h.grids.mem_key hr, mem_tetra]
  have hbits := (hshows.closed_iff hcorners).mp (hclosed r hr _ htetra)
  have hlocal : Shows g x ((s r).edge.markedKeys (s r).grid.node (marks r)) := by
    intro a ha b hb hab
    have hkey : s(g a, g b) ∈ (s r).edge.keys (s r).grid.node :=
      ⟨_, (hedges _ (edgeBetween_lt a b)).2, hkeys a ha b hb hab⟩
    rw [hshows a ha b hb hab, hG.keys r hr]
    exact ⟨fun hmem => ⟨hkey, hmem⟩, fun hmem => hmem.2⟩
  have hmark := h.mark_eq_bit hr (hG.marks01 r hr) (fun i hi => (hedges i hi).2) hkeys hlocal
  refine ⟨x, ?_, ?_⟩
  · have hcase := (visited x hx).closed_cases hbits
    simp only [List.mem_cons, List.not_mem_nil, or_false] at hcase ⊢
    omega
  · have he : ∀ i < 6, (withMarks s marks r).c2e ((s r).grid.cell .tet) i c = .ok (e i) :=
      fun i hi => (hedges i hi).1
    have hmark' : ∀ i < 6, (withMarks s marks r).mark (e i) = ((x.testBit i).toNat : Int) := hmark
    have hsum : ∀ x : Nat, x < 64 → (x : Int) = (x.testBit 0).toNat + 2 * (x.testBit 1).toNat +
        4 * (x.testBit 2).toNat + 8 * (x.testBit 3).toNat + 16 * (x.testBit 4).toNat +
          32 * (x.testBit 5).toNat := by decide
    rw [RefSubdiv.cellMap, h.type hr,
      show List.range CellType.tet.e2n.length = [0, 1, 2, 3, 4, 5] from rfl]
    simp only [List.foldlM_cons, List.foldlM_nil, he 0 (by decide), he 1 (by decide),
      he 2 (by decide), he 3 (by decide), he 4 (by decide), he 5 (by decide),
      hmark' 0 (by decide), hmark' 1 (by decide), hmark' 2 (by decide), hmark' 3 (by decide),
      hmark' 4 (by decide), hmark' 5 (by decide), bind, Except.bind, pure, Except.pure]
    rw [hsum x hx]
    congr 1
    ring

end Maps

/-- What `ref_subdiv_mark_relax` leaves: marks on which all ranks agree, the
least that contain the marks of the owners and are closed on every tet, and
maps that `ref_subdiv_split_tet` implements. -/
structure Relaxed (p : Nat) (s : Nat → RefSubdiv D) (marks : Nat → Nat → Int) : Prop where
  marks01 : ∀ r, r < p → (s r).edge.Marks01 (marks r)
  agree : ∀ r q, r < p → q < p → ∀ e e', e < (s r).edge.n → e' < (s q).edge.n →
    (s r).edge.key (s r).grid.node e = (s q).edge.key (s q).grid.node e' → marks r e = marks q e'
  least : IsLeast {S | ownersMarked p s (fun r => (s r).mark) ⊆ S ∧ ClosedAll p (rankTets s) S}
    (markedEdges p s marks)
  maps : ∀ r, r < p → ∀ c, ((s r).grid.cell .tet).Live c →
    ∃ map ∈ ([0, 1, 2, 4, 8, 16, 32, 11, 56, 38, 21, 63] : List Int),
      (withMarks s marks r).cellMap ((s r).grid.cell .tet) c = .ok map
  implemented : ∀ r, r < p → ∀ mem, (withMarks s marks r).splitTet mem ≠ .error .implement

section Relaxed

variable {p : Nat} {s : Nat → RefSubdiv D} {marks : Nat → Nat → Int} {G : Set (Sym2 Int)}

theorem Consistent.markedEdges_eq (hG : Consistent p s marks G) : markedEdges p s marks = G := by
  ext k
  constructor
  · rintro ⟨r, hr, hk⟩
    rw [hG.keys r hr] at hk
    exact hk.2
  · intro hk
    obtain ⟨r, hr, hkey⟩ := hG.sub hk
    exact ⟨r, hr, by rw [hG.keys r hr]; exact ⟨hkey, hk⟩⟩

theorem Consistent.mark_iff (h : TetsMarked p s) (hG : Consistent p s marks G) {r e : Nat}
    (hr : r < p) (he : e < (s r).edge.n) :
    marks r e = 1 ↔ (s r).edge.key (s r).grid.node e ∈ G := by
  rw [← h.mem_markedKeys hr _ he, hG.keys r hr]
  exact ⟨fun hk => hk.2, fun hk => ⟨⟨e, he, rfl⟩, hk⟩⟩

/-- The copies of an edge have one mark. -/
theorem Consistent.agree (h : TetsMarked p s) (hG : Consistent p s marks G) {r q e e' : Nat}
    (hr : r < p) (hq : q < p) (he : e < (s r).edge.n) (he' : e' < (s q).edge.n)
    (hkey : (s r).edge.key (s r).grid.node e = (s q).edge.key (s q).grid.node e') :
    marks r e = marks q e' := by
  have hr1 := hG.mark_iff h hr he
  rw [hkey, ← hG.mark_iff h hq he'] at hr1
  rcases hG.marks01 r hr e he with h0 | h0 <;> rcases hG.marks01 q hq e' he' with h1 | h1 <;>
    simp [h0, h1] at hr1 ⊢

/-- Every tet with a map is one of those that are cut. -/
theorem TetsMarked.implemented (h : TetsMarked p s) (hG : Consistent p s marks G)
    (hclosed : ClosedAll p (rankTets s) G) {r : Nat} (hr : r < p) (mem : RefCell) :
    (withMarks s marks r).splitTet mem ≠ .error .implement := by
  apply RefSubdiv.splitTet_ne_implement
  intro c map hrun
  have hlive : ((s r).grid.cell .tet).Live c := by
    by_contra hdead
    obtain ⟨mapBit, hloop, _⟩ := bind_eq_ok.mp hrun
    rw [show ((withMarks s marks r).grid.cell .tet).cellType = .tet from h.type hr,
      show List.range CellType.tet.e2n.length = [0, 1, 2, 3, 4, 5] from rfl,
      List.foldlM_cons] at hloop
    obtain ⟨_, hfirst, _⟩ := bind_eq_ok.mp hloop
    obtain ⟨_, hc2e, _⟩ := bind_eq_ok.mp hfirst
    simp only [RefSubdiv.c2e] at hc2e
    split at hc2e
    · cases hc2e
    · rename_i hnot
      exact hnot hdead
  obtain ⟨map', hin, hrun'⟩ := h.cellMap_mem hG hclosed hr hlive
  rw [show (withMarks s marks r).grid.cell .tet = (s r).grid.cell .tet from rfl, hrun',
    Except.ok.injEq] at hrun
  rwa [← hrun]

theorem TetsMarked.relaxed (h : TetsMarked p s) (hG : Consistent p s marks G)
    (hsub : ownersMarked p s (fun r => (s r).mark) ⊆ G) (hclosed : ClosedAll p (rankTets s) G)
    (hleast : ∀ S, ClosedAll p (rankTets s) S → ownersMarked p s (fun r => (s r).mark) ⊆ S →
      G ⊆ S) : Relaxed p s marks := by
  refine ⟨hG.marks01, ?_, ?_, fun r hr c hlive => h.cellMap_mem hG hclosed hr hlive,
    fun r hr mem => h.implemented hG hclosed hr mem⟩
  · intro r q hr hq e e' he he' hkey
    exact hG.agree h hr hq he he' hkey
  · rw [hG.markedEdges_eq]
    exact ⟨⟨hsub, hclosed⟩, fun S hS => hleast S hS.2 hS.1⟩

end Relaxed

/-- **Marking reaches the least closed set.**  `ref_subdiv_mark_relax` ends on
all ranks after at most one sweep more than there are edges. -/
theorem marks_relaxed {p : Nat} {s : Nat → RefSubdiv D} (hp : 0 < p) (h : TetsMarked p s)
    (hfit : p ≤ 1 ∨ EdgesFit p (fun r => (s r).grid.node) fun r => (s r).edge)
    (mem : Nat → Nat → RequestMemory Int) {fuel : Nat} (hfuel : (edgeKeys p s).ncard < fuel) :
    Yields p (fun r => (s r).markRelax p fuel (mem r)) fun out =>
      ∃ marks : Nat → Nat → Int, (∀ r, r < p → out r = some (marks r)) ∧ Relaxed p s marks := by
  obtain ⟨⟨first, hghost⟩, hvalues⟩ := h.edges.ghost_yields hp hfit .int (fun r => (s r).mark)
    fun r => mem r fuel
  have hfirst := h.consistent_of_ownersValue h.marks (hvalues first hghost)
  have hcard : (edgeKeys p s \ ownersMarked p s fun r => (s r).mark).ncard < fuel :=
    (Set.ncard_le_ncard Set.sdiff_subset (finite_edgeKeys p s)).trans_lt hfuel
  obtain ⟨G, final, hrun, hfinal, hsub, hclosed, hleast⟩ :=
    h.relaxSweeps_run hp hfit mem fuel _ first hfirst hcard
  have hall : Runs p (fun r => (s r).markRelax p fuel (mem r)) fun r => some (final r) :=
    hghost.bind (f := fun r mark => (s r).relaxSweeps p (mem r) fuel mark) hrun
  apply hall.yields
  intro out hout
  exact ⟨final, hout, h.relaxed hfinal hsub hclosed hleast⟩

/-! ## One tet -/

/-- One tet. -/
def oneTetRows : CellType → List (List Int)
  | .tet => [[0, 1, 2, 3]]
  | _ => []

/-- The edges of one tet. -/
def oneTetEdges : RefEdge :=
  (RefEdge.create noEdges (RefGrid.ofRows (sharedStore 4 0) noGeom oneTetRows)).toOption.getD noEdges

/-- One tet over four nodes. -/
def oneTet (node : RefNode Int) (mark : Nat → Int) : RefSubdiv Int :=
  { grid := RefGrid.ofRows node noGeom oneTetRows
    edge := oneTetEdges
    mark := mark
    node := fun _ => refEmpty }

theorem oneTetRows_fit (t : CellType) : RefCell.RowsFit t (oneTetRows t) := by
  cases t <;> decide

theorem oneTet_live (node : RefNode Int) (mark : Nat → Int) {t : CellType} {c : Nat}
    (hlive : ((oneTet node mark).grid.cell t).Live c) :
    t = .tet ∧ ∀ l < 4, ((oneTet node mark).grid.cell t).c2n c l = l := by
  obtain ⟨row, hrow, hlist⟩ := RefGrid.exists_row_of_live (oneTetRows_fit t) hlive
  cases t with
  | tet =>
      refine ⟨rfl, ?_⟩
      rw [List.mem_singleton.mp hrow] at hlist
      change [_, _, _, _] = _ at hlist
      intro l hl
      interval_cases l <;> simp_all [CellType.nodePer, oneTet]
  | _ => cases hrow

/-- All ranks hold the tet. -/
theorem oneTet_marked {p : Nat} {node : Nat → RefNode Int} (hpart : Partitioned p node)
    (hnode : ∀ r, r < p → ∀ i < 4, (node r).Live i ∧ (node r).global i = i ∧ (node r).part i < p)
    {mark : Nat → Nat → Int} (h01 : ∀ r, r < p → ∀ e, mark r e = 0 ∨ mark r e = 1) :
    TetsMarked p fun r => oneTet (node r) (mark r) := by
  have hcovers : oneTetEdges.Covers
      (RefEdge.gridEdges (RefGrid.ofRows (sharedStore 4 0) noGeom oneTetRows)) := by
    obtain ⟨edge, hrun⟩ : ∃ edge, RefEdge.create noEdges
        (RefGrid.ofRows (sharedStore 4 0) noGeom oneTetRows) = .ok edge :=
      exists_ok_of_succeeds (by decide)
    have hedge : oneTetEdges = edge := by rw [oneTetEdges, hrun]; rfl
    rw [hedge]
    exact RefEdge.create_covers hrun
  refine { grids := { hpart with cells := ?_, nodes := ?_, parts_lt := ?_, held := ?_ },
           covers := fun r _ => hcovers, simple := ?_, tets := ?_, marks := ?_ }
  · exact fun r _ => RefGrid.ofRows_inv oneTetRows_fit
  · intro r hr t c hlive l hl
    obtain ⟨rfl, hnodes⟩ := oneTet_live _ _ hlive
    rw [hnodes l hl]
    exact ⟨Int.natCast_nonneg l, (hnode r hr l hl).1⟩
  · intro r hr t c hlive l hl
    obtain ⟨rfl, hnodes⟩ := oneTet_live _ _ hlive
    rw [hnodes l hl]
    exact (hnode r hr l hl).2.2
  · intro r hr t c hlive l hl
    obtain ⟨rfl, hnodes⟩ := oneTet_live _ _ hlive
    have hq : (node r).part (((oneTet (node r) (mark r)).grid.cell .tet).c2n c l).toNat < p := by
      rw [hnodes l hl]
      exact (hnode r hr l hl).2.2
    have hglobal : ∀ q, q < p → ∀ m < 4, ((oneTet (node q) (mark q)).grid.cell .tet).nodeGlobal
        (node q) c m = m := by
      intro q hq m hm
      rw [RefCell.nodeGlobal, (oneTet_live (node q) (mark q) hlive).2 m hm]
      exact (hnode q hq m hm).2.1
    exact ⟨c, hlive, fun m hm => (hglobal _ hq m hm).trans (hglobal r hr m hm).symm⟩
  · intro r _
    apply RefGrid.ofRows_simple (oneTetRows_fit .tet)
    decide
  · intro r _ t ht hne c hlive
    exact hne (oneTet_live _ _ hlive).1
  · intro r hr e _
    exact h01 r hr e

/-- Rank 0 owns two corners of the tet and rank 1 the others. -/
def halfStore (r : Nat) : RefNode Int :=
  { sharedStore 4 r with part := fun i => if i < 2 then 0 else 1 }

theorem halfStore_partitioned : Partitioned 2 halfStore := by
  refine ⟨fun r _ => ?_, fun r _ => rfl, ?_⟩
  · have h := (sharedStore_distributed (m := 4) (Nat.succ_pos r) (by decide)).inv r (Nat.lt_succ_self r)
    exact ⟨h.toSlotInv.congr rfl rfl rfl rfl, h.ascending, h.aligned, h.covers⟩
  · intro r q _ _ i j _ _ hglobal
    have hij : i = j := Int.ofNat.inj hglobal
    rw [hij]
    rfl

/-- The edge that a rank marks: each marks one of two opposite edges. -/
def halfMark (r e : Nat) : Int := if (r = 0 ∧ e = 0) ∨ (r = 1 ∧ e = 5) then 1 else 0

theorem half_marked : TetsMarked 2 fun r => oneTet (halfStore r) (halfMark r) := by
  apply oneTet_marked halfStore_partitioned
  · intro r _ i hi
    refine ⟨(sharedStore_live 4 r i).mpr hi, rfl, ?_⟩
    change (if i < 2 then 0 else 1) < 2
    split <;> decide
  · intro r _ e
    unfold halfMark
    split
    · exact Or.inr rfl
    · exact Or.inl rfl

theorem half_fit : EdgesFit 2 (fun r => (oneTet (halfStore r) (halfMark r)).grid.node)
    fun r => (oneTet (halfStore r) (halfMark r)).edge := by
  have hfit : ∀ r < 2, 2 * (oneTetEdges.ghostEdges (halfStore r)).length ≤ refIntMax ∧
      2 * ∑ q ∈ Finset.range 2, (Segments.group (oneTetEdges.edgePart (halfStore q))
        (oneTetEdges.ghostEdges (halfStore q)) r).length ≤ refIntMax := by decide
  exact hfit

theorem half_edges : (edgeKeys 2 fun r => oneTet (halfStore r) (halfMark r)).ncard < 13 := by
  have hn : oneTetEdges.n = 6 := by decide
  have hsub : edgeKeys 2 (fun r => oneTet (halfStore r) (halfMark r)) ⊆
      ((Finset.range 2 ×ˢ Finset.range 6).image fun k =>
        oneTetEdges.key (halfStore k.1) k.2 : Finset (Sym2 Int)) := by
    rintro k ⟨r, hr, e, he, rfl⟩
    rw [Finset.mem_coe, Finset.mem_image]
    refine ⟨(r, e), ?_, rfl⟩
    rw [Finset.mem_product, Finset.mem_range, Finset.mem_range]
    exact ⟨hr, hn ▸ he⟩
  have hcard := Set.ncard_le_ncard hsub (Finset.finite_toSet _)
  rw [Set.ncard_coe_finset] at hcard
  have himage := Finset.card_image_le (s := Finset.range 2 ×ˢ Finset.range 6)
    (f := fun k => oneTetEdges.key (halfStore k.1) k.2)
  rw [Finset.card_product, Finset.card_range, Finset.card_range] at himage
  omega

/-- Opposite edges with different owners. -/
theorem marks_relaxed_two_ranks :
    Yields 2 (fun r => (oneTet (halfStore r) (halfMark r)).markRelax 2 13 fun _ =>
      ⟨fun _ => 0, fun _ => 0, fun _ => 0, fun _ => 0, fun _ => 0⟩) fun out =>
      ∃ marks : Nat → Nat → Int, (∀ r, r < 2 → out r = some (marks r)) ∧
        Relaxed 2 (fun r => oneTet (halfStore r) (halfMark r)) marks := by
  exact marks_relaxed (by decide) half_marked (Or.inr half_fit) _ half_edges

theorem oneTet_part (mark : Nat → Nat → Int) (r e : Nat) :
    (oneTet (sharedStore 4 r) (mark r)).edge.edgePart (sharedStore 4 r) e = 0 := by
  unfold RefEdge.edgePart
  split <;> rfl

theorem oneTet_ghosts (r : Nat) :
    oneTetEdges.ghostEdges (sharedStore 4 r) = if r = 0 then [] else List.range 6 := by
  have hn : oneTetEdges.n = 6 := by decide
  have hpart : ∀ e, oneTetEdges.edgePart (sharedStore 4 r) e = 0 := oneTet_part (fun _ _ => 0) r
  rw [RefEdge.ghostEdges, hn]
  simp only [hpart]
  by_cases hr : r = 0
  · subst hr
    rfl
  · have hrank : ¬ 0 = (sharedStore 4 r).rank := fun e => hr e.symm
    simp [hr, hrank]

/-- With 178956972 ranks around one tet the owner's `2 * b_total` does not fit,
and no number of sweeps is reached. -/
theorem marks_relaxed_overflow :
    ¬ ∀ (p : Nat) (s : Nat → RefSubdiv Int) (mem : Nat → Nat → RequestMemory Int), 0 < p →
      TetsMarked p s → ∃ fuel, Yields p (fun r => (s r).markRelax p fuel (mem r)) fun out =>
        ∃ marks : Nat → Nat → Int, (∀ r, r < p → out r = some (marks r)) ∧ Relaxed p s marks := by
  intro h
  have hp : 0 < 178956971 + 1 := by decide
  have hmarked : TetsMarked (178956971 + 1) fun r => oneTet (sharedStore 4 r) fun _ => 0 := by
    have hstores := sharedStore_distributed (m := 4) hp (by decide)
    apply oneTet_marked ⟨hstores.inv, hstores.rank, ?_⟩ _ fun _ _ _ => Or.inl rfl
    · intro r q _ _ i j _ _ _
      rfl
    · intro r _ i hi
      exact ⟨(sharedStore_live 4 r i).mpr hi, rfl, hp⟩
  obtain ⟨fuel, ⟨out, hrun⟩, _⟩ := h (178956971 + 1) _
    (fun _ _ => ⟨fun _ => 0, fun _ => 0, fun _ => 0, fun _ => 0, fun _ => 0⟩) hp hmarked
  have hasked : ∑ q ∈ Finset.range (178956971 + 1), (Segments.group
      (oneTetEdges.edgePart (sharedStore 4 q)) (oneTetEdges.ghostEdges (sharedStore 4 q)) 0).length =
        178956971 * 6 := by
    refine (asked_of_shared (k := 6) (fun q e => oneTet_part (fun _ _ => 0) q e) ?_ ?_ 178956971
      0).trans (if_pos rfl)
    · rw [oneTet_ghosts, if_pos rfl]
    · intro q hq
      rw [oneTet_ghosts, if_neg hq]
      rfl
  have hover : refIntMax < 2 * (askedOrder (178956971 + 1)
      (fun r => oneTetEdges.edgePart (sharedStore 4 r))
      (fun r => oneTetEdges.ghostEdges (sharedStore 4 r)) 0).length := by
    rw [length_askedOrder]
    exact (show refIntMax < 2 * (178956971 * 6) by decide).trans_eq (congrArg _ hasked.symm)
  exact not_runs_askOwners_bind (t := .int) (by decide) hp hover hrun

end RefineMesh
