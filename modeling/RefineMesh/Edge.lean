import Mathlib.Tactic
import RefineMesh.ArrayLoops
import RefineMesh.CellInvariant
import RefineMesh.Grid

/-!
# The edge store

`REF_EDGE_STRUCT` keeps each edge of the cells of a grid once, with the
adjacency from nodes to edges.  `e2n edge node` is the entry that the source
writes `ref_edge_e2n(ref_edge, node, edge)`.
-/

namespace RefineMesh

open ArrayLoop

variable {D : Type}

/-- The cell types of `each_ref_grid_3d_ref_cell`. -/
def types3d : List CellType := [.tet, .pyr, .pri, .hex, .te2, .py2, .pr2, .he2]

/-- The cell types of `each_ref_grid_2d_ref_cell`. -/
def types2d : List CellType := [.tri, .tr2, .tr3, .qua, .qu2]

/-- The references of a node are those registered with it. -/
theorem Registers.mem_refs {adj : RefAdj} {reg : Nat → Int → Nat} (h : Registers adj reg) {v : Int}
    {c : Nat} : c ∈ (adj.refs v).map Int.toNat ↔ 0 < reg c v := by
  rw [← h.count, List.count_pos_iff, List.mem_map]
  constructor
  · intro hin
    obtain ⟨r, hr, rfl⟩ := hin
    rw [Int.toNat_of_nonneg (h.cells v r hr)]
    exact hr
  · intro hin
    exact ⟨c, hin, Int.toNat_natCast c⟩

/-- `REF_EDGE_STRUCT`, without the pointer to the nodes. -/
structure RefEdge where
  n : Nat
  max : Nat
  e2n : Nat → Nat → Int
  adj : RefAdj

namespace RefEdge

/-- The edge has the two nodes as its ends. -/
def Joins (s : RefEdge) (edge : Nat) (node0 node1 : Int) : Prop :=
  (s.e2n edge 0 = node0 ∧ s.e2n edge 1 = node1) ∨ (s.e2n edge 0 = node1 ∧ s.e2n edge 1 = node0)

instance (s : RefEdge) (edge : Nat) (node0 node1 : Int) : Decidable (s.Joins edge node0 node1) :=
  inferInstanceAs (Decidable (_ ∨ _))

/-- `ref_edge_with`. -/
def edgeWith (s : RefEdge) (node0 node1 : Int) : Except Status Nat :=
  match ((s.adj.refs node0).map Int.toNat).find? fun edge => s.Joins edge node0 node1 with
  | some edge => .ok edge
  | none => .error .notFound

/-- The reallocation of `ref_edge_uniq`; the length is computed in `REF_INT`. -/
def grow (s : RefEdge) : Except Status RefEdge :=
  if s.n < s.max then .ok s
  else
    let orig := s.max
    let chunk := Nat.max 5000 (3 * orig / 2)
    let max := orig + chunk
    if refIntMax < 2 * max then .error .undefined
    else .ok { s with
      max := max
      e2n := fun edge node => if orig ≤ edge ∧ edge < max then refEmpty else s.e2n edge node }

/-- `ref_edge_uniq`. -/
def uniq (s : RefEdge) (node0 node1 : Int) : Except Status RefEdge :=
  match s.edgeWith node0 node1 with
  | .ok _ => .ok s
  | .error .notFound => do
      let s ← s.grow
      let edge := s.n
      let row := Function.update (Function.update (s.e2n edge) 0 node0) 1 node1
      let adj ← s.adj.add node0 edge
      let adj ← adj.add node1 edge
      .ok { s with n := s.n + 1, e2n := Function.update s.e2n edge row, adj := adj }
  | .error status => .error status

/-- The ends of the edges of one cell store, cell by cell. -/
def cellEdges (s : RefCell) : List (Int × Int) :=
  s.validCells.flatMap fun cell => s.cellType.e2n.map fun e => (s.c2n cell e.1, s.c2n cell e.2)

/-- The pairs of nodes that `ref_edge_builder_uniq` passes to `ref_edge_uniq`. -/
def gridEdges (g : RefGrid D) : List (Int × Int) :=
  (types3d ++ types2d).flatMap fun t => cellEdges (g.cell t)

/-- `ref_edge_create`, over memory `mem` that the allocations do not clear. -/
def create (mem : RefEdge) (g : RefGrid D) : Except Status RefEdge :=
  let max := Nat.max 100 (8 * g.node.n)
  if refIntMax < 2 * max then .error .undefined
  else
    (gridEdges g).foldlM (fun s pair => s.uniq pair.1 pair.2)
      { n := 0
        max := max
        e2n := fun edge node => if edge < max then refEmpty else mem.e2n edge node
        adj := RefAdj.create mem.adj }

/-! ## The invariant -/

/-- How often an edge has a node. -/
def occupancy (s : RefEdge) (edge : Nat) (v : Int) : Nat :=
  if edge < s.n then [s.e2n edge 0, s.e2n edge 1].count v else 0

/-- The invariant of the edge store. -/
structure EdgeInv (s : RefEdge) : Prop where
  registers : Registers s.adj s.occupancy
  distinct : ∀ e e', e < s.n → e' < s.n → s.Joins e' (s.e2n e 0) (s.e2n e 1) → e' = e

theorem Joins.symm {s : RefEdge} {e : Nat} {a b : Int} (h : s.Joins e a b) : s.Joins e b a :=
  h.elim Or.inr Or.inl

theorem joins_comm {s : RefEdge} {e : Nat} {a b : Int} : s.Joins e a b ↔ s.Joins e b a :=
  ⟨Joins.symm, Joins.symm⟩

section Invariant

variable {s s' : RefEdge}

theorem EdgeInv.unique (h : s.EdgeInv) {e e' : Nat} {a b : Int} (he : e < s.n) (he' : e' < s.n)
    (hj : s.Joins e a b) (hj' : s.Joins e' a b) : e' = e := by
  apply h.distinct e e' he he'
  unfold Joins at *
  grind

theorem EdgeInv.mem_refs (h : s.EdgeInv) {v : Int} {e : Nat} :
    e ∈ (s.adj.refs v).map Int.toNat ↔ e < s.n ∧ (s.e2n e 0 = v ∨ s.e2n e 1 = v) := by
  rw [h.registers.mem_refs, occupancy]
  split
  · rename_i he
    simp only [List.count_pos_iff, List.mem_cons, List.not_mem_nil, or_false]
    grind
  · rename_i he
    simp [he]

/-- **`ref_edge_with`** answers the edge between two nodes, or
`REF_NOT_FOUND` when there is none. -/
theorem edgeWith_spec (h : s.EdgeInv) (a b : Int) :
    (∃ e, s.edgeWith a b = .ok e ∧ e < s.n ∧ s.Joins e a b) ∨
      s.edgeWith a b = .error .notFound ∧ ∀ e, e < s.n → ¬ s.Joins e a b := by
  cases hfind : ((s.adj.refs a).map Int.toNat).find? fun edge => s.Joins edge a b with
  | some e =>
      refine Or.inl ⟨e, by rw [edgeWith, hfind], ?_, ?_⟩
      · exact (h.mem_refs.mp (List.mem_of_find?_eq_some hfind)).1
      · simpa using List.find?_some hfind
  | none =>
      refine Or.inr ⟨by rw [edgeWith, hfind], ?_⟩
      intro e he hj
      have hin : e ∈ (s.adj.refs a).map Int.toNat := by
        rw [h.mem_refs]
        unfold Joins at hj
        grind
      exact List.find?_eq_none.mp hfind e hin (by simpa using hj)

theorem edgeWith_lt (h : s.EdgeInv) {e : Nat} {a b : Int} (hrun : s.edgeWith a b = .ok e) :
    e < s.n ∧ s.Joins e a b := by
  rcases edgeWith_spec h a b with ⟨e', hrun', he', hj'⟩ | ⟨hrun', _⟩
  · rw [hrun, Except.ok.injEq] at hrun'
    exact hrun' ▸ ⟨he', hj'⟩
  · rw [hrun] at hrun'
    cases hrun'

theorem edgeWith_of_joins (h : s.EdgeInv) {e : Nat} {a b : Int} (he : e < s.n)
    (hj : s.Joins e a b) : s.edgeWith a b = .ok e := by
  rcases edgeWith_spec h a b with ⟨e', hrun, he', hj'⟩ | ⟨_, hnone⟩
  · rw [hrun, h.unique he he' hj hj']
  · exact absurd hj (hnone e he)

theorem edgeWith_comm (h : s.EdgeInv) (a b : Int) : s.edgeWith a b = s.edgeWith b a := by
  rcases edgeWith_spec h b a with ⟨e, hrun, he, hj⟩ | ⟨hrun, hnone⟩
  · rw [hrun, edgeWith_of_joins h he hj.symm]
  · rcases edgeWith_spec h a b with ⟨e, _, he, hj⟩ | ⟨hrun', _⟩
    · exact absurd hj.symm (hnone e he)
    · rw [hrun, hrun']

/-! ## Filling the store -/

/-- Growing changes no edge. -/
theorem EdgeInv.grow (h : s.EdgeInv) (hle : s.n ≤ s.max) (hrun : s.grow = .ok s') :
    s'.EdgeInv ∧ s'.n = s.n ∧ s'.n < s'.max ∧ s'.adj = s.adj ∧
      ∀ e, e < s.n → s'.e2n e = s.e2n e := by
  simp only [RefEdge.grow] at hrun
  split at hrun
  · rename_i hlt
    obtain rfl : s = s' := Except.ok.inj hrun
    exact ⟨h, rfl, hlt, rfl, fun _ _ => rfl⟩
  · rename_i hfull
    split at hrun
    · cases hrun
    · obtain rfl := Except.ok.inj hrun
      have hold : ∀ e, e < s.n → (fun node : Nat => if s.max ≤ e ∧
          e < s.max + Nat.max 5000 (3 * s.max / 2) then refEmpty else s.e2n e node) = s.e2n e := by
        intro e he
        funext node
        rw [if_neg (by omega)]
      have hlt : s.n < s.max + Nat.max 5000 (3 * s.max / 2) := by
        have : 5000 ≤ Nat.max 5000 (3 * s.max / 2) := Nat.le_max_left _ _
        omega
      refine ⟨⟨h.registers.congr ?_, ?_⟩, rfl, hlt, rfl, hold⟩
      · intro e v
        simp only [occupancy]
        split
        · rename_i he
          rw [congrFun (hold e he) 0, congrFun (hold e he) 1]
        · rfl
      · intro e e' he he' hj
        apply h.distinct e e' he he'
        simp only [Joins, congrFun (hold e he), congrFun (hold e' he')] at hj ⊢
        exact hj

/-- **`ref_edge_uniq`** adds the edge unless it is there. -/
theorem EdgeInv.uniq (h : s.EdgeInv) (hle : s.n ≤ s.max) {a b : Int}
    (hrun : s.uniq a b = .ok s') :
    s'.EdgeInv ∧ s'.n ≤ s'.max ∧ s.n ≤ s'.n ∧ (∀ e, e < s.n → s'.e2n e = s.e2n e) ∧
      (∃ e, e < s'.n ∧ s'.Joins e a b) ∧ ∀ e, s.n ≤ e → e < s'.n → s'.Joins e a b := by
  rcases edgeWith_spec h a b with ⟨e, hwith, he, hj⟩ | ⟨hwith, hnone⟩
  · simp only [RefEdge.uniq, hwith] at hrun
    obtain rfl : s = s' := Except.ok.inj hrun
    exact ⟨h, hle, le_refl _, fun _ _ => rfl, ⟨e, he, hj⟩, fun e h1 h2 => absurd h2 (by omega)⟩
  · simp only [RefEdge.uniq, hwith, bind_eq_ok] at hrun
    obtain ⟨s1, hgrow, adj1, hadd0, adj2, hadd1, hret⟩ := hrun
    obtain ⟨h1, hn, hlt, hadj, hold⟩ := h.grow hle hgrow
    rw [hadj] at hadd0
    obtain ⟨_, hreg0⟩ := h.registers.add hadd0
    obtain ⟨_, hreg1⟩ := hreg0.add hadd1
    obtain rfl := Except.ok.inj hret
    have hnew : ∀ e, e < s.n → e ≠ s1.n := by
      intro e he
      omega
    have hrow : ∀ e, e < s.n → (Function.update s1.e2n s1.n
        (Function.update (Function.update (s1.e2n s1.n) 0 a) 1 b)) e = s.e2n e := by
      intro e he
      rw [Function.update_of_ne (hnew e he), hold e he]
    refine ⟨⟨?_, ?_⟩, hlt, by simp [hn], hrow, ⟨s1.n, by simp, ?_⟩, ?_⟩
    · refine hreg1.congr fun e v => ?_
      simp only [occupancy]
      by_cases he : e < s.n
      · have hne := hnew e he
        rw [if_pos (by omega), if_pos he, hrow e he]
        simp only [hn] at hne ⊢
        simp [hne]
      · by_cases heq : e = s.n
        · subst heq
          rw [if_pos (by omega), if_neg he]
          simp only [← hn, Function.update_self, List.count_cons, List.count_nil,
            true_and, beq_iff_eq]
          simp [eq_comm, Nat.add_comm]
        · rw [if_neg (by omega), if_neg he]
          simp [hn, heq]
    · intro e e' he he' hj
      have hends : ∀ e, e < s.n → ¬ s.Joins e a b := hnone
      by_cases hes : e < s.n
      · by_cases hes' : e' < s.n
        · apply h.distinct e e' hes hes'
          simp only [Joins, hrow e hes, hrow e' hes'] at hj ⊢
          exact hj
        · have heq : e' = s1.n := by
            simp only at he'
            omega
          subst heq
          simp only [Joins, hrow e hes, Function.update_self, Function.update_of_ne
            (show (0 : Nat) ≠ 1 by decide)] at hj
          apply absurd _ (hends e hes)
          unfold Joins
          grind
      · have heq : e = s1.n := by
          simp only at he
          omega
        subst heq
        by_cases hes' : e' < s.n
        · simp only [Joins, hrow e' hes', Function.update_self, Function.update_of_ne
            (show (0 : Nat) ≠ 1 by decide)] at hj
          exact absurd hj (hends e' hes')
        · simp only at he'
          omega
    · exact Or.inl ⟨by simp, by simp⟩
    · intro e hge hlt'
      have heq : e = s1.n := by
        simp only at hlt'
        omega
      subst heq
      exact Or.inl ⟨by simp, by simp⟩

/-- The edges of the store are those of a list of pairs. -/
structure Covers (s : RefEdge) (pairs : List (Int × Int)) : Prop where
  inv : s.EdgeInv
  joins : ∀ e, e < s.n → ∃ pair ∈ pairs, s.Joins e pair.1 pair.2
  found : ∀ pair ∈ pairs, ∃ e, e < s.n ∧ s.Joins e pair.1 pair.2

theorem empty_inv (mem : RefAdj) {e2n : Nat → Nat → Int} {max : Nat} :
    (RefEdge.mk 0 max e2n (RefAdj.create mem)).EdgeInv := by
  have hcreate := RefAdj.create_inv mem
  refine ⟨⟨hcreate.1, fun v c => ?_, fun v r hr => ?_⟩, fun e e' he => absurd he (Nat.not_lt_zero e)⟩
  · rw [RefAdj.refs, hcreate.2 v]
    simp [occupancy]
  · rw [RefAdj.refs, hcreate.2 v] at hr
    cases hr

/-- **`ref_edge_create`** stores each edge of the grid once. -/
theorem create_covers {mem : RefEdge} {g : RefGrid D} (hrun : create mem g = .ok s') :
    s'.Covers (gridEdges g) := by
  simp only [create] at hrun
  split at hrun
  · cases hrun
  · have hloop := foldlM_inv
      (fun done _ s => RefEdge.Covers s done ∧ RefEdge.n s ≤ RefEdge.max s)
      (by
        intro done pair rest s s' h hstep
        obtain ⟨h, hle⟩ := h
        obtain ⟨hinv, hle', hmono, hold, ⟨e, he, hj⟩, hnew⟩ := h.inv.uniq hle hstep
        refine ⟨⟨hinv, ?_, ?_⟩, hle'⟩
        · intro e he
          by_cases hes : e < s.n
          · obtain ⟨p, hp, hj⟩ := h.joins e hes
            refine ⟨p, List.mem_append_left _ hp, ?_⟩
            simp only [Joins, hold e hes] at hj ⊢
            exact hj
          · exact ⟨pair, by simp, hnew e (by omega) he⟩
        · intro p hp
          rcases List.mem_append.mp hp with hp | hp
          · obtain ⟨e, he, hj⟩ := h.found p hp
            refine ⟨e, by omega, ?_⟩
            simp only [Joins, hold e he] at hj ⊢
            exact hj
          · rw [List.mem_singleton.mp hp]
            exact ⟨e, he, hj⟩)
      ⟨⟨empty_inv mem.adj, fun e he => absurd he (Nat.not_lt_zero e),
        fun p hp => absurd hp List.not_mem_nil⟩, Nat.zero_le _⟩ hrun
    exact hloop.1

/-- `ref_edge_uniq` succeeds away from the limits of `REF_INT`. -/
theorem EdgeInv.uniq_ok (h : s.EdgeInv) (hle : s.n ≤ s.max) (hstock : s.adj.Stocked (2 * s.n))
    (hfit : 2 * (s.n + Nat.max 5000 (3 * s.n / 2)) ≤ refIntMax) {a b : Int}
    (ha : 0 ≤ a ∧ a + 100 ≤ refIntMax) (hb : 0 ≤ b ∧ b + 100 ≤ refIntMax) :
    ∃ s', s.uniq a b = .ok s' ∧ s'.adj.Stocked (2 * s'.n) ∧ s'.n ≤ s.n + 1 := by
  rcases edgeWith_spec h a b with ⟨e, hwith, _, _⟩ | ⟨hwith, _⟩
  · exact ⟨s, by simp [RefEdge.uniq, hwith], hstock, by omega⟩
  · have hgrow : ∃ s1, s.grow = .ok s1 ∧ s1.n = s.n ∧ s1.adj = s.adj := by
      by_cases hlt : s.n < s.max
      · exact ⟨s, by simp [RefEdge.grow, hlt], rfl, rfl⟩
      · have hmax : s.max = s.n := by omega
        simp only [RefEdge.grow, hlt, if_false]
        rw [if_neg (by rw [hmax]; omega)]
        exact ⟨_, rfl, rfl, rfl⟩
    obtain ⟨s1, hrun1, hn, hadj⟩ := hgrow
    have hused : 2 * s.n + 1 < refIntMax := by
      have : 5000 ≤ Nat.max 5000 (3 * s.n / 2) := Nat.le_max_left _ _
      omega
    obtain ⟨adj1, hadd1, hstock1⟩ := hstock.add (by omega) (s.n : Int) ha.1 (by omega)
    obtain ⟨adj2, hadd2, hstock2⟩ := hstock1.add (by omega) (s.n : Int) hb.1 (by omega)
    simp only [RefEdge.uniq, hwith, bind_eq_ok, hrun1, Except.ok.injEq, exists_eq_left', hn, hadj,
      hadd1, hadd2]
    exact ⟨hstock2, le_rfl⟩

/-- **`ref_edge_create` succeeds** when four bytes for each end of an edge of
each cell are counted in a `REF_INT`. -/
theorem create_ok (mem : RefEdge) {g : RefGrid D} (hnodes : 16 * g.node.n ≤ refIntMax)
    (hedges : 15 * (gridEdges g).length ≤ refIntMax)
    (hrange : ∀ pair ∈ gridEdges g, (0 ≤ pair.1 ∧ pair.1 + 100 ≤ refIntMax) ∧
      0 ≤ pair.2 ∧ pair.2 + 100 ≤ refIntMax) :
    ∃ s', create mem g = .ok s' ∧ s'.n ≤ (gridEdges g).length := by
  have hmax : ¬ refIntMax < 2 * Nat.max 100 (8 * g.node.n) := by
    rcases Nat.le_total 100 (8 * g.node.n) with hle | hle
    · rw [show Nat.max 100 (8 * g.node.n) = 8 * g.node.n from Nat.max_eq_right hle]
      omega
    · rw [show Nat.max 100 (8 * g.node.n) = 100 from Nat.max_eq_left hle]
      decide
  rw [create, if_neg hmax]
  -- the number of stored edges is at most the number of pairs already visited
  suffices hloop : ∀ (rest : List (Int × Int)) (s : RefEdge), s.EdgeInv → s.n ≤ s.max →
      s.adj.Stocked (2 * s.n) → s.n + rest.length ≤ (gridEdges g).length →
      (∀ pair ∈ rest, pair ∈ gridEdges g) →
      ∃ s', rest.foldlM (fun s pair => s.uniq pair.1 pair.2) s = .ok s' ∧
        s'.n ≤ (gridEdges g).length by
    apply hloop
    · exact empty_inv mem.adj
    · exact Nat.zero_le _
    · exact RefAdj.create_stocked mem.adj
    · exact Nat.le_of_eq (Nat.zero_add _)
    · exact fun _ => id
  intro rest
  induction rest with
  | nil =>
      intro s _ _ _ hlen _
      exact ⟨s, rfl, by simpa using hlen⟩
  | cons pair rest ih =>
      intro s hinv hle hstock hlen hsub
      rw [List.length_cons] at hlen
      obtain ⟨ha, hb⟩ := hrange pair (hsub pair List.mem_cons_self)
      have hfit : 2 * (s.n + Nat.max 5000 (3 * s.n / 2)) ≤ refIntMax := by
        have hmax : Nat.max 5000 (3 * s.n / 2) ≤ 5000 + 3 * s.n / 2 :=
          Nat.max_le.mpr ⟨by omega, by omega⟩
        unfold refIntMax at *
        omega
      obtain ⟨s1, hrun, hstock1, hn⟩ := hinv.uniq_ok hle hstock hfit ha hb
      obtain ⟨hinv1, hle1, _, _, _, _⟩ := hinv.uniq hle hrun
      obtain ⟨s2, hrun2, hn2⟩ := ih s1 hinv1 hle1 hstock1 (by omega)
        fun p hp => hsub p (List.mem_cons_of_mem pair hp)
      refine ⟨s2, ?_, hn2⟩
      rw [List.foldlM_cons, bind_eq_ok]
      exact ⟨s1, hrun, hrun2⟩

theorem Covers.exists_iff {pairs : List (Int × Int)} (h : s.Covers pairs) {a b : Int} :
    (∃ e, e < s.n ∧ s.Joins e a b) ↔ (a, b) ∈ pairs ∨ (b, a) ∈ pairs := by
  constructor
  · intro hex
    obtain ⟨e, he, hj⟩ := hex
    obtain ⟨⟨x, y⟩, hp, hj'⟩ := h.joins e he
    unfold Joins at hj hj'
    grind
  · intro hin
    rcases hin with hp | hp
    · exact h.found _ hp
    · obtain ⟨e, he, hj⟩ := h.found _ hp
      exact ⟨e, he, hj.symm⟩

end Invariant

theorem mem_cellEdges {s : RefCell} {a b : Int} :
    (a, b) ∈ cellEdges s ↔
      ∃ c, s.Live c ∧ ∃ e ∈ s.cellType.e2n, s.c2n c e.1 = a ∧ s.c2n c e.2 = b := by
  simp [cellEdges, RefCell.mem_validCells]

theorem mem_gridEdges {g : RefGrid D} {t : CellType} (ht : t ∈ types3d ++ types2d) {a b : Int}
    (h : (a, b) ∈ cellEdges (g.cell t)) : (a, b) ∈ gridEdges g :=
  List.mem_flatMap.mpr ⟨t, ht, h⟩

end RefEdge

/-- A store of edges without any. -/
def noEdges : RefEdge := { n := 0, max := 0, e2n := fun _ _ => 0, adj := noGeom.adj }

end RefineMesh
