import Mathlib.Tactic
import RefineMesh.ShardLayers

/-!
# The front of the kept layers

A grid is conforming in its quads when every quadrilateral face of a cell has a
cell on its other side, or one qua.  The cells that `ref_shard_prism_into_tet`
keeps are conforming again when no prism decides otherwise than its quads.
-/

namespace RefineMesh

open Spmd

variable {D : Type}

/-- The faces of a type with `n` corners, three or four. -/
def CellType.sides (t : CellType) (n : Nat) : List (Nat × Nat × Nat × Nat) :=
  t.f2n.filter fun face => (if face.1 = face.2.2.2 then 3 else 4) = n

/-- The globals of a face. -/
def faceKey (g : RefGrid D) (t : CellType) (c : Nat) (face : Nat × Nat × Nat × Nat) :
    Finset Int :=
  (cornerGlobals g t c [face.1, face.2.1, face.2.2.1, face.2.2.2]).toFinset

/-- The faces of the cells of one type on a set of globals. -/
def sidesOn (g : RefGrid D) (t : CellType) (n : Nat) (F : Finset Int) : Nat :=
  ((g.cell t).validCells.flatMap fun c =>
    (t.sides n).filter fun face => faceKey g t c face = F).length

/-- The faces of the volume cells on a set of globals. -/
def volumeSides (g : RefGrid D) (n : Nat) (F : Finset Int) : Nat :=
  sidesOn g .tet n F + sidesOn g .pyr n F + sidesOn g .pri n F + sidesOn g .hex n F

/-- The rank owns a node of the face, so it holds all cells at it. -/
def SeesFace (g : RefGrid D) (F : Finset Int) : Prop :=
  ∃ k, g.node.Live k ∧ g.node.Owned k ∧ g.node.global k ∈ F

/-- Every face of `n` corners of a volume cell has another side or one boundary
cell of the type, and every boundary cell is the face of a volume cell. -/
def ConformingFaces (g : RefGrid D) (n : Nat) (boundary : CellType) : Prop :=
  ∀ F, SeesFace g F → volumeSides g n F = 2 ∧ sidesOn g boundary n F = 0 ∨
    volumeSides g n F = 1 ∧ sidesOn g boundary n F = 1 ∨
    volumeSides g n F = 0 ∧ sidesOn g boundary n F = 0

/-- The nodes that decide whether a cell is kept. -/
def testedNodes : CellType → List Nat
  | .pri => [0, 3]
  | .pyr => [0, 1, 3, 4]
  | .qua => [0, 1, 2, 3]
  | _ => []

/-- The numbers of one rank fit a `REF_INT`. -/
structure ShardFits (g : RefGrid D) : Prop where
  tets : (g.cell .tet).validCells.length + 3 * (g.cell .pri).validCells.length +
    2 * (g.cell .pyr).validCells.length ≤ refIntMax / 4
  tris : (g.cell .tri).validCells.length + 2 * (g.cell .qua).validCells.length ≤ refIntMax / 4
  nodes : ∀ k, g.node.Live k → k + 100 ≤ refIntMax

section OneRank

variable {g : RefGrid D}

theorem RefGrid.CellsInv.filled (hinv : g.CellsInv) {t : CellType} (ht : t.sizePer = 4) :
    RefCell.Filled t ((g.cell t).validCells.map (g.cell t).cellRow) (g.cell t) := by
  have hfilled := (hinv.inv t).filled (by rw [RefCell.sizePer, hinv.type, ht])
  rw [hinv.type] at hfilled
  exact hfilled

theorem ShardFits.inRange (hfit : ShardFits g) (hvalid : ValidCorners g) {t : CellType} {c : Nat}
    (hlive : (g.cell t).Live c) : ∀ i, i < t.nodePer → InRange ((g.cell t).c2n c i) := by
  intro i hi
  obtain ⟨hpos, hnode⟩ := hvalid t c hlive i hi
  have hmax := hfit.nodes _ hnode
  exact ⟨hpos, by omega⟩

/-- What one loop leaves of a type. -/
structure KeepsMarked (g : RefGrid D) (mark : Nat → Int) (t : CellType) (left : RefCell) : Prop where
  inv : left.CellInv
  type : left.cellType = t
  valid : left.validCells = (g.cell t).validCells.filter
    (fun c => KeepsCell mark ((g.cell t).c2n c) (testedNodes t))
  nodes : ∀ c, left.Live c → left.c2n c = (g.cell t).c2n c

/-- One loop over the cells of a type. -/
theorem shardUnkept_ok (mark : Nat → Int) (t : CellType) {t' : CellType} {k : Nat}
    {cut : (Nat → Int) → List (List Int)} (hcut : Splitter t' t.nodePer k cut)
    (ht : t'.sizePer ≤ 4) (hinv : g.CellsInv) (hvalid : ValidCorners g) (hfit : ShardFits g)
    {into : RefCell} {rows : List (List Int)} (hinto : RefCell.Filled t' rows into)
    (hlen : rows.length + k * (g.cell t).validCells.length ≤ refIntMax / 4) :
    ∃ left filled rows', shardUnkept g.node (testedNodes t) cut mark (g.cell t) into =
        .ok (left, filled) ∧ KeepsMarked g mark t left ∧ RefCell.Filled t' rows' filled ∧
      rows'.length ≤ rows.length + k * (g.cell t).validCells.length := by
  obtain ⟨left, filled, hrun, hinv', htype, hleft, hnodes, hfilled⟩ :=
    shardUnkept_spec g.node (testedNodes t) mark hcut ht (hinv.inv t) hinto
      (fun c hc => hfit.inRange hvalid hc) hlen
  refine ⟨left, filled, _, hrun, ⟨hinv', htype.trans (hinv.type t), hleft, hnodes⟩, hfilled, ?_⟩
  rw [List.length_append]
  refine Nat.add_le_add_left ((length_localRows_le _ _ _).trans
    ((hcut.length_flatMap _ _).trans (Nat.mul_le_mul_left k ?_))) _
  exact List.length_filter_le _ _

/-- The grid after the loops. -/
structure ShardedGrid (g : RefGrid D) (mark : Nat → Int) (out : RefGrid D) : Prop where
  pri : KeepsMarked g mark .pri (out.cell .pri)
  pyr : KeepsMarked g mark .pyr (out.cell .pyr)
  qua : KeepsMarked g mark .qua (out.cell .qua)
  hex : out.cell .hex = g.cell .hex
  cells : out.CellsInv
  node : g.node.Kept out.node fun k => ¬ HangsFrom out [.tet, .pyr, .pri, .hex] k

/-- **The loops of `ref_shard_prism_into_tet`** succeed and keep what is
marked. -/
theorem shardMarked_ok (hinv : g.CellsInv) (hnode : g.node.Inv) (hvalid : ValidCorners g)
    (hfit : ShardFits g) (mark : Nat → Int) :
    ∃ out, shardMarked g mark = .ok out ∧ ShardedGrid g mark out := by
  have htets := hfit.tets
  obtain ⟨pri, tet1, rows1, hpriRun, hpri, htet1, hlen1⟩ := shardUnkept_ok mark .pri
    (pri_splitter g.node) (by decide) hinv hvalid hfit (hinv.filled (t := .tet) rfl) (by
      rw [List.length_map]
      omega)
  rw [List.length_map] at hlen1
  obtain ⟨pyr, tet2, rows2, hpyrRun, hpyr, htet2, _⟩ := shardUnkept_ok mark .pyr
    (pyr_splitter g.node) (by decide) hinv hvalid hfit htet1 (by omega)
  obtain ⟨qua, tri, rows3, hquaRun, hqua, htri, _⟩ := shardUnkept_ok mark .qua
    (qua_splitter g.node) (by decide) hinv hvalid hfit (hinv.filled (t := .tri) rfl) (by
      rw [List.length_map]
      exact hfit.tris)
  set cut := ((((g.setCell .pri pri).setCell .pyr pyr).setCell .tet tet2).setCell .qua qua).setCell
    .tri tri with hcut
  have hcells : cut.CellsInv :=
    ((((hinv.setCell hpri.type hpri.inv).setCell hpyr.type hpyr.inv).setCell htet2.type
      htet2.inv).setCell hqua.type hqua.inv).setCell htri.type htri.inv
  obtain ⟨node, hrun, hkept⟩ := removeHanging_spec cut [.tet, .pyr, .pri, .hex] hnode
  refine ⟨{ cut with node := node }, ?_, ?_⟩
  · have hpriRun' : shardUnkept g.node [0, 3] (priAsTet g.node) mark (g.cell .pri) (g.cell .tet) =
        .ok (pri, tet1) := hpriRun
    have hpyrRun' : shardUnkept g.node [0, 1, 3, 4] (pyrAsTet g.node) mark (g.cell .pyr) tet1 =
        .ok (pyr, tet2) := hpyrRun
    have hquaRun' : shardUnkept g.node [0, 1, 2, 3] (quaAsTri g.node) mark (g.cell .qua)
        (g.cell .tri) = .ok (qua, tri) := hquaRun
    simp only [shardMarked, hpriRun', hpyrRun', hquaRun', bind, Except.bind]
    exact hrun
  · exact ⟨hpri, hpyr, hqua, rfl, ⟨hcells.type, hcells.inv⟩, hkept⟩

end OneRank

/-! ## Both sides decide alike -/

section Front

variable {g out : RefGrid D} {mark : Nat → Int} {R : Int → Prop}

/-- Nodes 0 and 3 of every prism are in the set exactly when its other nodes
are. -/
def EvenFront (g : RefGrid D) (R : Int → Prop) : Prop :=
  ∀ c, (g.cell .pri).Live c →
    ((∀ i ∈ [0, 3], R ((g.cell .pri).nodeGlobal g.node c i)) ↔
      ∀ i ∈ [1, 2, 4, 5], R ((g.cell .pri).nodeGlobal g.node c i))

theorem keepsCell_iff (hmark : MarksAre g mark R) (hvalid : ValidCorners g) {t : CellType} {c : Nat}
    (hlive : (g.cell t).Live c) {tested : List Nat} (htested : ∀ i ∈ tested, i < t.nodePer) :
    KeepsCell mark ((g.cell t).c2n c) tested ↔
      ∀ i ∈ tested, R ((g.cell t).nodeGlobal g.node c i) :=
  forall₂_congr fun i hi => hmark.iff _ (hvalid t c hlive i (htested i hi)).2

theorem forall_faceKey {t : CellType} {c : Nat} {face : Nat × Nat × Nat × Nat} :
    (∀ x ∈ faceKey g t c face, R x) ↔
      ∀ i ∈ [face.1, face.2.1, face.2.2.1, face.2.2.2],
        R ((g.cell t).nodeGlobal g.node c i) := by
  simp only [faceKey, cornerGlobals, List.mem_toFinset, List.forall_mem_map]

/-- **A cell is kept exactly when each of its quads is marked.** -/
theorem keepsCell_iff_face (hmark : MarksAre g mark R) (hvalid : ValidCorners g)
    (heven : EvenFront g R) {t : CellType} (ht : t ∈ [CellType.pri, .pyr, .qua]) {c : Nat}
    (hlive : (g.cell t).Live c) {face : Nat × Nat × Nat × Nat} (hface : face ∈ t.sides 4) :
    KeepsCell mark ((g.cell t).c2n c) (testedNodes t) ↔ ∀ x ∈ faceKey g t c face, R x := by
  have htested : ∀ i ∈ testedNodes t, i < t.nodePer := by cases t <;> decide
  rw [keepsCell_iff hmark hvalid hlive htested, forall_faceKey]
  simp only [List.mem_cons, List.not_mem_nil, or_false] at ht
  rcases ht with rfl | rfl | rfl
  · have hfront := heven c hlive
    simp only [CellType.sides, CellType.f2n, List.mem_filter, List.mem_cons, List.not_mem_nil,
      or_false] at hface hfront
    rcases hface.1 with rfl | rfl | rfl | rfl | rfl
    all_goals simp only [testedNodes, List.forall_mem_cons] at hface ⊢
    all_goals grind
  · simp only [CellType.sides, CellType.f2n, List.mem_filter, List.mem_cons, List.not_mem_nil,
      or_false] at hface
    rcases hface.1 with rfl | rfl | rfl | rfl | rfl
    all_goals simp only [testedNodes, List.forall_mem_cons] at hface ⊢
    all_goals grind
  · simp only [CellType.sides, CellType.f2n, List.mem_filter, List.mem_cons, List.not_mem_nil,
      or_false] at hface
    rw [hface.1]
    rfl

theorem flatMap_filter_of_nil {α β : Type} (l : List α) (P : α → Prop) [DecidablePred P]
    (f : α → List β) (h : ∀ a ∈ l, ¬ P a → f a = []) :
    (l.filter fun a => P a).flatMap f = l.flatMap f := by
  induction l with
  | nil => rfl
  | cons a l ih =>
      have hrest := ih fun b hb => h b (List.mem_cons_of_mem a hb)
      by_cases ha : P a
      · rw [List.filter_cons_of_pos (by simpa using ha), List.flatMap_cons, List.flatMap_cons, hrest]
      · rw [List.filter_cons_of_neg (by simpa using ha), List.flatMap_cons,
          h a List.mem_cons_self ha, List.nil_append, hrest]

/-- The quads that are left: all on a marked face, none on another one. -/
theorem sidesOn_kept (hmark : MarksAre g mark R) (hvalid : ValidCorners g)
    (heven : EvenFront g R) {t : CellType} (ht : t ∈ [CellType.pri, .pyr, .qua])
    (hkept : KeepsMarked g mark t (out.cell t)) {F : Finset Int}
    (hkey : ∀ c, (out.cell t).Live c → ∀ face ∈ t.sides 4,
      (faceKey out t c face = F ↔ faceKey g t c face = F)) :
    ((∀ x ∈ F, R x) → sidesOn out t 4 F = sidesOn g t 4 F) ∧
      (¬ (∀ x ∈ F, R x) → sidesOn out t 4 F = 0) := by
  have hsame : ∀ c ∈ (out.cell t).validCells,
      ((t.sides 4).filter fun face => faceKey out t c face = F) =
        (t.sides 4).filter fun face => faceKey g t c face = F := by
    intro c hc
    apply List.filter_congr
    intro face hface
    rw [Bool.eq_iff_iff, decide_eq_true_eq, decide_eq_true_eq]
    exact hkey c (RefCell.mem_validCells.mp hc) face hface
  have hside : ∀ c ∈ (g.cell t).validCells, ∀ face ∈ t.sides 4, faceKey g t c face = F →
      (KeepsCell mark ((g.cell t).c2n c) (testedNodes t) ↔ ∀ x ∈ F, R x) := by
    intro c hc face hface hF
    rw [← hF]
    exact keepsCell_iff_face hmark hvalid heven ht (RefCell.mem_validCells.mp hc) hface
  unfold sidesOn
  rw [List.flatMap_congr hsame, hkept.valid]
  constructor
  · intro hall
    rw [flatMap_filter_of_nil]
    intro c hc hdrop
    apply List.filter_eq_nil_iff.mpr
    intro face hface hF
    exact hdrop ((hside c hc face hface (of_decide_eq_true hF)).mpr hall)
  · intro hall
    rw [List.length_eq_zero_iff, List.flatMap_eq_nil_iff]
    intro c hc
    obtain ⟨hc, hkeep⟩ := List.mem_filter.mp hc
    apply List.filter_eq_nil_iff.mpr
    intro face hface hF
    exact hall ((hside c hc face hface (of_decide_eq_true hF)).mp (of_decide_eq_true hkeep))

theorem sidesOn_pos {t : CellType} {F : Finset Int} (h : 0 < sidesOn g t 4 F) :
    ∃ c, (g.cell t).Live c ∧ ∃ face ∈ t.sides 4, faceKey g t c face = F := by
  obtain ⟨face, hin⟩ := List.exists_mem_of_length_pos h
  obtain ⟨c, hc, hface⟩ := List.mem_flatMap.mp hin
  obtain ⟨hface, hF⟩ := List.mem_filter.mp hface
  exact ⟨c, RefCell.mem_validCells.mp hc, face, hface, of_decide_eq_true hF⟩

theorem sidesOn_eq_zero_of_empty {t : CellType} (hnone : ∀ c, ¬ (g.cell t).Live c)
    (F : Finset Int) : sidesOn g t 4 F = 0 := by
  by_contra h
  obtain ⟨c, hlive, _⟩ := sidesOn_pos (Nat.pos_of_ne_zero h)
  exact hnone c hlive

theorem CellType.sides_lt {t : CellType} {n : Nat} {face : Nat × Nat × Nat × Nat}
    (hface : face ∈ t.sides n) :
    ∀ i ∈ [face.1, face.2.1, face.2.2.1, face.2.2.2], i < t.nodePer := by
  have hall : ∀ t : CellType, ∀ face ∈ t.f2n,
      ∀ i ∈ [face.1, face.2.1, face.2.2.1, face.2.2.2], i < t.nodePer := by
    intro t
    cases t <;> decide
  exact hall t face (List.mem_filter.mp hface).1

/-- Tets have no quads. -/
theorem sidesOn_tet (g : RefGrid D) (F : Finset Int) : sidesOn g .tet 4 F = 0 := by
  have hnone : CellType.tet.sides 4 = [] := by decide
  simp [sidesOn, hnone]

/-- A left cell is one of the grid before. -/
theorem KeepsMarked.live {t : CellType} {left : RefCell} (h : KeepsMarked g mark t left) {c : Nat}
    (hlive : left.Live c) :
    (g.cell t).Live c ∧ KeepsCell mark ((g.cell t).c2n c) (testedNodes t) := by
  have hin := RefCell.mem_validCells.mpr hlive
  rw [h.valid] at hin
  obtain ⟨hc, hkeep⟩ := List.mem_filter.mp hin
  exact ⟨RefCell.mem_validCells.mp hc, of_decide_eq_true hkeep⟩

/-- The nodes of the left cells are left. -/
theorem ShardedGrid.node_live (h : ShardedGrid g mark out) (hvalid : ValidCorners g)
    {t : CellType} (ht : t ∈ [CellType.pri, .pyr]) {c l : Nat} (hlive : (out.cell t).Live c)
    (hl : l < t.nodePer) : out.node.Live ((g.cell t).c2n c l).toNat := by
  have hkept : KeepsMarked g mark t (out.cell t) := by
    simp only [List.mem_cons, List.not_mem_nil, or_false] at ht
    rcases ht with rfl | rfl
    · exact h.pri
    · exact h.pyr
  obtain ⟨hold, _⟩ := hkept.live hlive
  obtain ⟨hpos, hnode⟩ := hvalid t c hold l hl
  refine (h.node.live _).mpr ⟨hnode, fun hhangs => ?_⟩
  have htypes : t ∈ [CellType.tet, .pyr, .pri, .hex] := by
    revert ht
    cases t <;> decide
  refine (hangsFrom_iff h.cells).mp hhangs t htypes c hlive ?_
  rw [Int.toNat_of_nonneg hpos, ← hkept.nodes c hlive]
  exact RefCell.c2n_mem_nodeList _ c (by rw [RefCell.nodePer, h.cells.type]; exact hl)

/-- A left cell with left nodes has the faces it had. -/
theorem ShardedGrid.faceKey_eq (h : ShardedGrid g mark out) {t : CellType}
    (hkept : KeepsMarked g mark t (out.cell t)) {c : Nat} (hlive : (out.cell t).Live c)
    {face : Nat × Nat × Nat × Nat}
    (hnodes : ∀ i ∈ [face.1, face.2.1, face.2.2.1, face.2.2.2],
      out.node.Live ((g.cell t).c2n c i).toNat) :
    faceKey out t c face = faceKey g t c face := by
  rw [faceKey, faceKey, cornerGlobals_congr]
  intro m hm
  rw [RefCell.nodeGlobal, RefCell.nodeGlobal, hkept.nodes c hlive, h.node.global _ (hnodes m hm)]

theorem mem_faceKey {t : CellType} {c : Nat} {face : Nat × Nat × Nat × Nat} {x : Int} :
    x ∈ faceKey g t c face ↔ ∃ i ∈ [face.1, face.2.1, face.2.2.1, face.2.2.2],
      (g.cell t).nodeGlobal g.node c i = x := by
  rw [faceKey, List.mem_toFinset, cornerGlobals, List.mem_map]

/-- The nodes of a left qua are left: the cell behind it is kept too. -/
theorem ShardedGrid.qua_live (h : ShardedGrid g mark out) (hmark : MarksAre g mark R)
    (hvalid : ValidCorners g) (heven : EvenFront g R) (hconf : ConformingFaces g 4 .qua)
    (hnode : g.node.Inv) (hhex : ∀ c, ¬ (g.cell .hex).Live c) {c : Nat}
    (hlive : (out.cell .qua).Live c) (hsees : SeesFace g (faceKey g .qua c (0, 1, 2, 3))) :
    ∀ i ∈ [0, 1, 2, 3], out.node.Live ((g.cell .qua).c2n c i).toNat := by
  obtain ⟨hold, hkeep⟩ := h.qua.live hlive
  have hquads : (0, 1, 2, 3) ∈ CellType.qua.sides 4 := by decide
  set F := faceKey g .qua c (0, 1, 2, 3) with hF
  have hR : ∀ x ∈ F, R x :=
    (keepsCell_iff_face hmark hvalid heven (by decide) hold hquads).mp hkeep
  have hqua : 0 < sidesOn g .qua 4 F := by
    refine List.length_pos_of_mem (a := (0, 1, 2, 3)) (List.mem_flatMap.mpr
      ⟨c, RefCell.mem_validCells.mpr hold, List.mem_filter.mpr ⟨hquads, ?_⟩⟩)
    exact decide_eq_true hF.symm
  have hsides : 0 < sidesOn g .pyr 4 F ∨ 0 < sidesOn g .pri 4 F := by
    have hzero := sidesOn_eq_zero_of_empty hhex F
    have hcount := hconf F hsees
    rw [volumeSides, sidesOn_tet] at hcount
    omega
  -- the cell behind the qua
  obtain ⟨t, ht, c', hold', face, hface, hkey, hlive'⟩ : ∃ t ∈ [CellType.pri, .pyr], ∃ c',
      (g.cell t).Live c' ∧ ∃ face ∈ t.sides 4, faceKey g t c' face = F ∧ (out.cell t).Live c' := by
    have hleft : ∀ t ∈ [CellType.pri, .pyr], KeepsMarked g mark t (out.cell t) → ∀ c',
        (g.cell t).Live c' → ∀ face ∈ t.sides 4, faceKey g t c' face = F → (out.cell t).Live c' := by
      intro t ht hkept c' hold' face hface hkey
      refine RefCell.mem_validCells.mp ?_
      rw [hkept.valid]
      refine List.mem_filter.mpr ⟨RefCell.mem_validCells.mpr hold', decide_eq_true ?_⟩
      have ht' : t ∈ [CellType.pri, .pyr, .qua] := by
        revert ht
        cases t <;> decide
      rw [keepsCell_iff_face hmark hvalid heven ht' hold' hface, hkey]
      exact hR
    rcases hsides with hpos | hpos
    · obtain ⟨c', hold', face, hface, hkey⟩ := sidesOn_pos hpos
      exact ⟨.pyr, by decide, c', hold', face, hface, hkey,
        hleft .pyr (by decide) h.pyr c' hold' face hface hkey⟩
    · obtain ⟨c', hold', face, hface, hkey⟩ := sidesOn_pos hpos
      exact ⟨.pri, by decide, c', hold', face, hface, hkey,
        hleft .pri (by decide) h.pri c' hold' face hface hkey⟩
  intro i hi
  have hin : (g.cell .qua).nodeGlobal g.node c i ∈ faceKey g t c' face := by
    rw [hkey, hF]
    exact mem_faceKey.mpr ⟨i, hi, rfl⟩
  obtain ⟨m, hm, hglobal⟩ := mem_faceKey.mp hin
  have hmlt := CellType.sides_lt hface m hm
  have hilt : i < CellType.qua.nodePer := CellType.sides_lt hquads i hi
  rw [← hnode.distinct _ _ (hvalid t c' hold' m hmlt).2 (hvalid .qua c hold i hilt).2 hglobal]
  exact h.node_live hvalid ht hlive' hmlt

/-- A face that is seen after the loops was seen before. -/
theorem ShardedGrid.sees (h : ShardedGrid g mark out) {F : Finset Int} (hsees : SeesFace out F) :
    SeesFace g F := by
  obtain ⟨k, hk, howned, hin⟩ := hsees
  refine ⟨k, ((h.node.live k).mp hk).1, ?_, ?_⟩
  · rw [RefNode.Owned, ← h.node.rank, ← h.node.part]
    exact howned
  · rw [← h.node.global k hk]
    exact hin

/-- The left quas on a seen face are those that were there. -/
theorem ShardedGrid.qua_faceKey (h : ShardedGrid g mark out) (hmark : MarksAre g mark R)
    (hvalid : ValidCorners g) (heven : EvenFront g R) (hconf : ConformingFaces g 4 .qua)
    (hnode : g.node.Inv) (hhex : ∀ c, ¬ (g.cell .hex).Live c) {F : Finset Int}
    (hsees : SeesFace out F) {c : Nat} (hlive : (out.cell .qua).Live c) :
    faceKey out .qua c (0, 1, 2, 3) = F ↔ faceKey g .qua c (0, 1, 2, 3) = F := by
  have hsame : SeesFace g (faceKey g .qua c (0, 1, 2, 3)) →
      faceKey out .qua c (0, 1, 2, 3) = faceKey g .qua c (0, 1, 2, 3) := fun hs =>
    h.faceKey_eq h.qua hlive
      (h.qua_live hmark hvalid heven hconf hnode hhex hlive hs)
  constructor
  · intro hF
    have hquads : (0, 1, 2, 3) ∈ CellType.qua.sides 4 := by decide
    -- the node that is seen is a node of the qua
    obtain ⟨k, hk, howned, hin⟩ := hsees
    rw [← hF] at hin
    obtain ⟨i, hi, hglobal⟩ := mem_faceKey.mp hin
    have hold := (h.qua.live hlive).1
    have hnodeLive := (hvalid .qua c hold i (CellType.sides_lt hquads i hi)).2
    rw [RefCell.nodeGlobal, h.qua.nodes c hlive] at hglobal
    have hleft : out.node.Live ((g.cell .qua).c2n c i).toNat := by
      refine ⟨by rw [h.node.max]; exact hnodeLive.1, ?_⟩
      rw [hglobal]
      exact hk.2
    have heq := h.node.inv.distinct _ k hleft hk hglobal
    rw [← hsame, hF]
    refine h.sees ⟨k, hk, howned, ?_⟩
    refine mem_faceKey.mpr ⟨i, hi, ?_⟩
    rw [RefCell.nodeGlobal, heq, h.node.global k hk]
  · intro hF
    rw [hsame (hF ▸ h.sees hsees), hF]

/-- **What is left is conforming in its quads.** -/
theorem ShardedGrid.conforming (h : ShardedGrid g mark out) (hmark : MarksAre g mark R)
    (hvalid : ValidCorners g) (heven : EvenFront g R) (hconf : ConformingFaces g 4 .qua)
    (hnode : g.node.Inv) (hhex : ∀ c, ¬ (g.cell .hex).Live c) : ConformingFaces out 4 .qua := by
  intro F hsees
  have hkey : ∀ t ∈ [CellType.pri, .pyr], KeepsMarked g mark t (out.cell t) → ∀ c,
      (out.cell t).Live c → ∀ face ∈ t.sides 4,
        (faceKey out t c face = F ↔ faceKey g t c face = F) := by
    intro t ht hkept c hlive face hface
    rw [h.faceKey_eq hkept hlive fun i hi => h.node_live hvalid ht hlive (CellType.sides_lt hface i hi)]
  have hpri := sidesOn_kept (F := F) hmark hvalid heven (by decide) h.pri
    (hkey .pri (by decide) h.pri)
  have hpyr := sidesOn_kept (F := F) hmark hvalid heven (by decide) h.pyr
    (hkey .pyr (by decide) h.pyr)
  have hqua := sidesOn_kept (F := F) hmark hvalid heven (by decide) h.qua (by
    intro c hlive face hface
    have hone : face = (0, 1, 2, 3) := by
      revert hface
      revert face
      decide
    rw [hone]
    exact h.qua_faceKey hmark hvalid heven hconf hnode hhex hsees hlive)
  have hhexOut : sidesOn out .hex 4 F = 0 :=
    sidesOn_eq_zero_of_empty (fun c => by rw [h.hex]; exact hhex c) F
  have hhexIn : sidesOn g .hex 4 F = 0 := sidesOn_eq_zero_of_empty hhex F
  have hcount := hconf F (h.sees hsees)
  rw [volumeSides, sidesOn_tet] at hcount ⊢
  by_cases hall : ∀ x ∈ F, R x
  · rw [hpri.1 hall, hpyr.1 hall, hqua.1 hall, hhexOut]
    rw [hhexIn] at hcount
    exact hcount
  · rw [hpri.2 hall, hpyr.2 hall, hqua.2 hall, hhexOut]
    exact Or.inr (Or.inr ⟨rfl, rfl⟩)

end Front

/-! ## All ranks -/

/-- A conforming grid of tets, pyramids and prisms with tris and quas, whose
numbers fit a `REF_INT`. -/
structure PrismMesh (p : Nat) (grid : Nat → RefGrid D) : Prop extends GridDistributed p grid where
  stores : Distributed p fun r => (grid r).node
  tris : ∀ r, r < p → ConformingFaces (grid r) 3 .tri
  quads : ∀ r, r < p → ConformingFaces (grid r) 4 .qua
  ids : TriIdsAgree p grid
  noHex : ∀ r, r < p → ∀ c, ¬ ((grid r).cell .hex).Live c
  ghosts : p ≤ 1 ∨ GhostFits p (fun r => (grid r).node) 1
  fits : ∀ r, r < p → ShardFits (grid r)

/-- **`ref_shard_prism_into_tet`**: as long as no prism decides otherwise than
its quads, what is left of a conforming grid is conforming in its quads. -/
theorem prismIntoTet_conforming {p : Nat} (hp : 0 < p) {grid : Nat → RefGrid D}
    (hmesh : PrismMesh p grid) (keepingNLayers : Int) (ofFaceid : Option RefDict)
    (heven : ∀ r, r < p → EvenFront (grid r)
      (Reached p grid (LayerSeed p grid keepingNLayers ofFaceid) keepingNLayers.toNat))
    (mem : Nat → Nat → GhostMemory Int) :
    Yields p (fun r => prismIntoTet p (grid r) keepingNLayers ofFaceid (mem r)) fun out =>
      ∀ r, r < p → ConformingFaces (out r) 4 .qua := by
  have hgrid := hmesh.toGridDistributed
  refine (layerMarks_run hp hgrid hmesh.stores hmesh.ghosts hmesh.ids keepingNLayers ofFaceid
    mem).bind hp ?_
  intro mark hmark
  have hrank : ∀ r, ∃ out, r < p → shardMarked (grid r) (mark r) = .ok out ∧
      ConformingFaces out 4 .qua := by
    intro r
    by_cases hr : r < p
    · obtain ⟨out, hrun, hout⟩ := shardMarked_ok (hgrid.cells r hr) (hgrid.inv r hr)
        (hgrid.validCorners hr) (hmesh.fits r hr) (mark r)
      exact ⟨out, fun _ => ⟨hrun, hout.conforming (hmark r hr) (hgrid.validCorners hr)
        (heven r hr) (hmesh.quads r hr) (hgrid.inv r hr) (hmesh.noHex r hr)⟩⟩
    · exact ⟨grid r, fun h => absurd h hr⟩
  choose out hout using hrank
  have hrun : Runs p (fun r => (Prog.lift (shardMarked (grid r) (mark r)) : RankProg D _)) out :=
    (runs_lift_iff hp).mpr fun r hr => (hout r hr).1
  apply hrun.yields
  intro out' hout' r hr
  rw [hout' r hr]
  exact (hout r hr).2

/-! ## One rank with few cells -/

/-- The sets of globals that are a face. -/
def faceKeys (g : RefGrid D) (n : Nat) (t : CellType) : List (Finset Int) :=
  (g.cell t).validCells.flatMap fun c => (t.sides n).map (faceKey g t c)

theorem sidesOn_of_notMem {g : RefGrid D} {n : Nat} {t : CellType} {F : Finset Int}
    (h : F ∉ faceKeys g n t) : sidesOn g t n F = 0 := by
  rw [sidesOn, List.length_eq_zero_iff, List.flatMap_eq_nil_iff]
  intro c hc
  apply List.filter_eq_nil_iff.mpr
  intro face hface hF
  exact h (List.mem_flatMap.mpr ⟨c, hc, List.mem_map.mpr ⟨face, hface, of_decide_eq_true hF⟩⟩)

/-- Only the faces at hand have to be counted. -/
theorem conformingFaces_of_keys {g : RefGrid D} {n : Nat} {boundary : CellType}
    (h : ∀ t ∈ [CellType.tet, .pyr, .pri, .hex, boundary], ∀ F ∈ faceKeys g n t,
      volumeSides g n F = 2 ∧ sidesOn g boundary n F = 0 ∨
        volumeSides g n F = 1 ∧ sidesOn g boundary n F = 1) :
    ConformingFaces g n boundary := by
  intro F _
  by_cases hin : ∃ t ∈ [CellType.tet, .pyr, .pri, .hex, boundary], F ∈ faceKeys g n t
  · obtain ⟨t, ht, hF⟩ := hin
    rcases h t ht F hF with h2 | h1
    · exact Or.inl h2
    · exact Or.inr (Or.inl h1)
  · have hzero : ∀ t ∈ [CellType.tet, .pyr, .pri, .hex, boundary], sidesOn g t n F = 0 :=
      fun t ht => sidesOn_of_notMem fun hF => hin ⟨t, ht, hF⟩
    refine Or.inr (Or.inr ⟨?_, hzero boundary (by simp)⟩)
    rw [volumeSides, hzero .tet (by simp), hzero .pyr (by simp), hzero .pri (by simp),
      hzero .hex (by simp)]

/-- A grid on one rank. -/
def gridOnRank0 (m : Nat) (rows : CellType → List (List Int)) : RefGrid Int :=
  RefGrid.ofRows (sharedStore m 0) noGeom rows

/-- The rows of a small mesh. -/
structure RowsOnRank0 (m : Nat) (rows : CellType → List (List Int)) : Prop where
  few : m ≤ 1000
  fit : ∀ t, RefCell.RowsFit t (rows t)
  range : ∀ t, ∀ row ∈ rows t, ∀ x ∈ row.take t.nodePer, 0 ≤ x ∧ x < m
  noHex : rows .hex = []
  tris : ((rows .tri).map fun row => (row.take 3).toFinset).Nodup

section OnRank0

variable {m : Nat} {rows : CellType → List (List Int)}

theorem RowsOnRank0.validCorners (h : RowsOnRank0 m rows) : ValidCorners (gridOnRank0 m rows) := by
  intro t c hlive l hl
  obtain ⟨row, hrow, hlist⟩ := RefGrid.exists_row_of_live (h.fit t) hlive
  have hin : ((gridOnRank0 m rows).cell t).c2n c l ∈ ((gridOnRank0 m rows).cell t).nodeList c := by
    refine RefCell.c2n_mem_nodeList _ c ?_
    rw [RefCell.nodePer, gridOnRank0, (RefGrid.ofRows_inv h.fit).type]
    exact hl
  rw [gridOnRank0, hlist] at hin
  obtain ⟨h0, hm⟩ := h.range t row hrow _ hin
  exact ⟨h0, (sharedStore_live m 0 _).mpr (by rw [gridOnRank0]; omega)⟩

theorem RowsOnRank0.distributed (h : RowsOnRank0 m rows) :
    GridDistributed 1 fun _ => gridOnRank0 m rows := by
  have hfew := h.few
  have hstore := sharedStore_distributed (m := m) (p := 1) one_pos (by unfold refIntMax; omega)
  refine ⟨⟨fun _ _ => hstore.inv 0 one_pos, fun r hr => ?_, fun _ _ _ _ _ _ _ _ _ => rfl⟩,
    fun _ _ => RefGrid.ofRows_inv h.fit, fun _ _ => h.validCorners, fun _ _ _ _ _ _ _ => one_pos, ?_⟩
  · obtain rfl : r = 0 := by omega
    rfl
  · intro r _ t c hlive l _
    exact ⟨c, hlive, fun _ _ => rfl⟩

theorem RowsOnRank0.length_validCells (h : RowsOnRank0 m rows) (t : CellType) :
    ((gridOnRank0 m rows).cell t).validCells.length = (rows t).length := by
  have hcells : ((gridOnRank0 m rows).cell t).cells = rows t := RefGrid.cells_ofRows (h.fit t)
  have hcard := congrArg Multiset.card hcells
  rw [RefCell.cells, Multiset.coe_card, List.length_map, Multiset.coe_card] at hcard
  exact hcard

theorem RowsOnRank0.noHex_live (h : RowsOnRank0 m rows) (c : Nat) :
    ¬ ((gridOnRank0 m rows).cell .hex).Live c := by
  intro hlive
  have hlen := h.length_validCells .hex
  rw [h.noHex, List.length_nil, List.length_eq_zero_iff] at hlen
  have hin := RefCell.mem_validCells.mpr hlive
  rw [hlen] at hin
  cases hin

theorem RowsOnRank0.shardFits (h : RowsOnRank0 m rows) : ShardFits (gridOnRank0 m rows) := by
  have hlen := fun t => (h.fit t).1
  have htet := hlen .tet
  have hpri := hlen .pri
  have hpyr := hlen .pyr
  have htri := hlen .tri
  have hqua := hlen .qua
  have hfew := h.few
  constructor
  · rw [h.length_validCells, h.length_validCells, h.length_validCells]
    unfold refIntMax
    omega
  · rw [h.length_validCells, h.length_validCells]
    unfold refIntMax
    omega
  · intro k hk
    have := (sharedStore_live m 0 k).mp hk
    unfold refIntMax
    omega

theorem RowsOnRank0.triIds (h : RowsOnRank0 m rows) :
    TriIdsAgree 1 fun _ => gridOnRank0 m rows := by
  intro r q _ _ t t' hlive hlive' hsame
  have hinv : (gridOnRank0 m rows).CellsInv := RefGrid.ofRows_inv h.fit
  have hslot : (gridOnRank0 m rows).node.SlotInv := (h.distributed.inv 0 one_pos).toSlotInv
  have hdiff : ((gridOnRank0 m rows).cell .tri).DistinctSets :=
    RefGrid.ofRows_distinctSets (h.fit .tri) h.tris
  rw [triGlobals_eq hinv, triGlobals_eq hinv] at hsame
  rw [hdiff t t' hlive hlive' ((sameGlobals_iff hslot (h.validCorners.nodeList hinv hlive)
    (h.validCorners.nodeList hinv hlive')).mpr hsame)]

/-- Small conforming rows are a mesh. -/
theorem RowsOnRank0.prismMesh (h : RowsOnRank0 m rows)
    (htris : ConformingFaces (gridOnRank0 m rows) 3 .tri)
    (hquads : ConformingFaces (gridOnRank0 m rows) 4 .qua) :
    PrismMesh 1 fun _ => gridOnRank0 m rows where
  toGridDistributed := h.distributed
  stores := by
    have hfew := h.few
    have hstore := sharedStore_distributed (m := m) (p := 1) one_pos (by unfold refIntMax; omega)
    refine ⟨fun _ _ => hstore.inv 0 one_pos, fun r hr => ?_, fun r hr => ?_⟩
    · obtain rfl : r = 0 := by omega
      rfl
    · obtain rfl : r = 0 := by omega
      exact hstore.owner 0 one_pos
  tris := fun _ _ => htris
  quads := fun _ _ => hquads
  ids := h.triIds
  noHex := fun _ _ => h.noHex_live
  ghosts := Or.inl le_rfl
  fits := fun _ _ => h.shardFits

end OnRank0

/-- Two prisms side by side, the tri under the first with id 10. -/
def twoPrisms : CellType → List (List Int)
  | .pri => [[0, 1, 2, 3, 4, 5], [6, 2, 1, 7, 5, 4]]
  | .tri => [[0, 1, 2, 10], [3, 5, 4, 30], [6, 2, 1, 20], [7, 4, 5, 30]]
  | .qua => [[0, 3, 4, 1, 40], [0, 2, 5, 3, 40], [6, 7, 5, 2, 40], [6, 1, 4, 7, 40]]
  | _ => []

/-- One prism, the tri under it with id 10. -/
def onePrism : CellType → List (List Int)
  | .pri => [[0, 1, 2, 3, 4, 5]]
  | .tri => [[0, 1, 2, 10], [3, 5, 4, 30]]
  | .qua => [[0, 3, 4, 1, 40], [0, 2, 5, 3, 40], [1, 4, 5, 2, 40]]
  | _ => []

/-- The dictionary of one face id. -/
def dict10 : RefDict := { n := 1, max := 10, key := fun _ => 10, value := fun _ => 0 }

/-- Cleared memory. -/
def ghostZero : GhostMemory Int := ⟨fun _ => 0, fun _ => 0, fun _ => 0, fun _ => 0⟩

theorem twoPrisms_rows : RowsOnRank0 8 twoPrisms where
  few := by decide
  fit := by intro t; cases t <;> decide
  range := by intro t; cases t <;> decide
  noHex := rfl
  tris := by decide

theorem onePrism_rows : RowsOnRank0 6 onePrism where
  few := by decide
  fit := by intro t; cases t <;> decide
  range := by intro t; cases t <;> decide
  noHex := rfl
  tris := by decide

/-- The prism over the tri with id 10 is kept, the other one is not: the quad
between them has one side and no qua. -/
theorem prismIntoTet_tears :
    PrismMesh 1 (fun _ => gridOnRank0 8 twoPrisms) ∧
    ∃ out, Runs 1 (fun _ => prismIntoTet 1 (gridOnRank0 8 twoPrisms) 1 (some dict10)
      fun _ => ghostZero) out ∧ ¬ ConformingFaces (out 0) 4 .qua := by
  constructor
  · apply twoPrisms_rows.prismMesh
    · apply conformingFaces_of_keys
      decide +kernel
    · apply conformingFaces_of_keys
      decide +kernel
  · have hcheck : ((prismIntoTet 1 (gridOnRank0 8 twoPrisms) 1 (some dict10)
        fun _ => ghostZero).alone.map fun out => decide (out.node.Live 1 ∧ out.node.Owned 1 ∧
          out.node.global 1 = 1 ∧ volumeSides out 4 {1, 2, 4, 5} = 1 ∧
          sidesOn out .qua 4 {1, 2, 4, 5} = 0)) = some true := by
      decide +kernel
    obtain ⟨out, hrun, htorn⟩ := Option.map_eq_some_iff.mp hcheck
    obtain ⟨hlive, howned, hglobal, hsides, hqua⟩ := of_decide_eq_true htorn
    refine ⟨fun _ => out, Prog.runs_of_alone hrun, fun hconf => ?_⟩
    have hcount := hconf {1, 2, 4, 5} ⟨1, hlive, howned, by rw [hglobal]; decide⟩
    rw [hsides, hqua] at hcount
    omega

/-- A prism on a tri with id 10 satisfies the hypotheses and is kept. -/
theorem prismIntoTet_conforming_one_prism :
    Yields 1 (fun _ => prismIntoTet 1 (gridOnRank0 6 onePrism) 1 (some dict10) fun _ => ghostZero)
      fun out => ∀ r, r < 1 → ConformingFaces (out r) 4 .qua := by
  refine prismIntoTet_conforming one_pos (onePrism_rows.prismMesh ?_ ?_) 1 (some dict10) ?_
    fun _ _ => ghostZero
  · apply conformingFaces_of_keys
    decide +kernel
  · apply conformingFaces_of_keys
    decide +kernel
  · intro r _ c hlive
    set grid : Nat → RefGrid Int := fun _ => gridOnRank0 6 onePrism with hgrid
    set seeds := LayerSeed 1 grid 1 (some dict10) with hseeds
    have hvalid : ((gridOnRank0 6 onePrism).cell .pri).validCells = [0] := by decide +kernel
    obtain rfl : c = 0 := by
      have hin := RefCell.mem_validCells.mpr hlive
      rw [hvalid] at hin
      exact List.mem_singleton.mp hin
    have hpri : cornerGlobals (grid 0) .pri 0 [0, 1, 2] = [0, 1, 2] := by decide +kernel
    have htri : cornerGlobals (grid 0) .tri 0 [0, 1, 2] = [0, 1, 2] := by decide +kernel
    have hbottom : ∀ i ∈ [0, 1, 2], Reached 1 grid seeds 0
        (((grid 0).cell .pri).nodeGlobal (grid 0).node 0 i) := by
      intro i hi
      refine .seed ⟨by decide, dict10, rfl, 0, one_pos, 0, hlive, [0, 1, 2], by decide,
        List.mem_map_of_mem hi, 0, by decide +kernel, fun y => by rw [hpri, htri],
        by decide +kernel⟩
    have hstay : ∀ i ∈ [0, 1, 2], Reached 1 grid seeds 1
        (((grid 0).cell .pri).nodeGlobal (grid 0).node 0 i) := fun i hi => .stay (hbottom i hi)
    have htop : ∀ i ∈ [0, 1, 2], Reached 1 grid seeds 1
        (((grid 0).cell .pri).nodeGlobal (grid 0).node 0 (i + 3)) := by
      intro i hi
      refine Reached.column (i := i) one_pos hlive ?_ (hbottom i hi)
      revert hi
      revert i
      decide
    have hall : ∀ i, i < 6 → Reached 1 grid seeds 1
        (((grid 0).cell .pri).nodeGlobal (grid 0).node 0 i) := by
      intro i hi
      by_cases hlow : i < 3
      · exact hstay i (by interval_cases i <;> decide)
      · have hup := htop (i - 3) (by interval_cases i <;> decide)
        rw [Nat.sub_add_cancel (by omega)] at hup
        exact hup
    refine iff_of_true (fun i hi => hall i ?_) fun i hi => hall i ?_
    · simp only [List.mem_cons, List.not_mem_nil, or_false] at hi
      omega
    · simp only [List.mem_cons, List.not_mem_nil, or_false] at hi
      omega

end RefineMesh
