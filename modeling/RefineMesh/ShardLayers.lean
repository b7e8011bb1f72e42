import Mathlib.Tactic
import RefineMesh.GridParts
import RefineMesh.ShardRuns

/-!
# Layers that are kept

`ref_shard_prism_into_tet` marks the nodes of some prism tris and passes the
marks on along the columns of the prisms, one layer in each relaxation.  The
marks of all ranks are the nodes that a walk along the columns reaches.  A cell
is kept when the nodes it tests are marked, so both sides of a quad decide alike
as long as the two nodes that a prism tests speak for its other four.
-/

namespace RefineMesh

open Spmd

variable {D : Type}

/-- The tri faces of a prism. -/
def priTriFaces : List (List Nat) := [[0, 1, 2], [3, 5, 4]]

/-- The ways along the columns of a prism. -/
def priColumns : List (Nat × Nat) := [(3, 0), (0, 3), (4, 1), (1, 4), (5, 2), (2, 5)]

/-- The globals of some nodes of a cell. -/
def cornerGlobals (g : RefGrid D) (t : CellType) (c : Nat) (corners : List Nat) : List Int :=
  corners.map ((g.cell t).nodeGlobal g.node c)

/-! ## The marks of one rank -/

section Local

variable {g : RefGrid D}

/-- The nodes are those of a tri with an id of the dictionary. -/
def OnTri (g : RefGrid D) (dict : RefDict) (nodes : List Int) : Prop :=
  ∃ t, (g.cell .tri).Live t ∧ (∀ x, x ∈ nodes ↔ x ∈ (g.cell .tri).nodeList t) ∧
    dict.hasKey ((g.cell .tri).c2n t 3)

/-- Tris on the same nodes have the same id. -/
def TrisAgree (g : RefGrid D) : Prop :=
  ∀ t t', (g.cell .tri).Live t → (g.cell .tri).Live t' →
    (∀ x, x ∈ (g.cell .tri).nodeList t ↔ x ∈ (g.cell .tri).nodeList t') →
    (g.cell .tri).c2n t 3 = (g.cell .tri).c2n t' 3

theorem foldl_update_zero (nodes : List Int) (mark : Nat → Int) (k : Nat) :
    nodes.foldl (fun mark node => Function.update mark node.toNat 0) mark k =
      if k ∈ nodes.map Int.toNat then 0 else mark k := by
  induction nodes generalizing mark with
  | nil => simp
  | cons node nodes ih =>
      rw [List.foldl_cons, ih]
      by_cases hin : k ∈ nodes.map Int.toNat
      · simp [hin]
      · by_cases hk : k = node.toNat
        · subst hk
          simp
        · simp [hin, hk]

theorem exists_nodeArray {n : Nat} {row : List Int} (hlen : row.length = n) (x : Int) :
    (∃ i, i < n ∧ nodeArray row i = x) ↔ x ∈ row := by
  constructor
  · intro h
    obtain ⟨i, hi, rfl⟩ := h
    rw [nodeArray, List.getD_eq_getElem _ _ (hlen ▸ hi)]
    exact List.getElem_mem _
  · intro hx
    obtain ⟨i, hi, rfl⟩ := List.mem_iff_getElem.mp hx
    exact ⟨i, hlen ▸ hi, by simp [nodeArray, hi]⟩

open Classical in
/-- One tri face marks its nodes, or nothing. -/
theorem markPriTri_spec (dict : RefDict) (hinv : g.CellsInv) (hagree : TrisAgree g)
    (nodes : List Int) (hlen : nodes.length = 3) (mark : Nat → Int) :
    ∃ mark', markPriTri g dict nodes mark = .ok mark' ∧ ∀ k, mark' k =
      if OnTri g dict nodes ∧ k ∈ nodes.map Int.toNat then 0 else mark k := by
  have hper : (g.cell .tri).nodePer = 3 := by rw [RefCell.nodePer, hinv.type]; rfl
  rcases RefCell.cellWith_spec (hinv.inv .tri) (nodeArray nodes) with
    ⟨t, hrun, hlive, hset⟩ | ⟨hrun, hnone⟩
  · have hnodes : ∀ x, x ∈ nodes ↔ x ∈ (g.cell .tri).nodeList t := by
      intro x
      rw [← hset x, hper, exists_nodeArray hlen]
    have hon : OnTri g dict nodes ↔ dict.hasKey ((g.cell .tri).c2n t 3) = true := by
      constructor
      · intro h
        obtain ⟨t', hlive', hnodes', hkey⟩ := h
        have hid := hagree t t' hlive hlive' fun x => by rw [← hnodes x, hnodes' x]
        rw [hid]
        exact hkey
      · intro hkey
        exact ⟨t, hlive, hnodes, hkey⟩
    by_cases hkey : dict.hasKey ((g.cell .tri).c2n t 3) = true
    · refine ⟨_, by rw [markPriTri, hrun]; exact if_pos hkey, fun k => ?_⟩
      rw [foldl_update_zero]
      simp [hon.mpr hkey]
    · refine ⟨mark, by rw [markPriTri, hrun]; exact if_neg hkey, fun k => ?_⟩
      rw [if_neg fun h => hkey (hon.mp h.1)]
  · refine ⟨mark, by rw [markPriTri, hrun], fun k => ?_⟩
    rw [if_neg]
    intro h
    obtain ⟨t, hlive, hnodes, _⟩ := h.1
    refine hnone t hlive fun x => ?_
    rw [hper, exists_nodeArray hlen]
    exact hnodes x

/-- The node is on a tri face of one of the prisms, and that face is a tri with
an id of the dictionary. -/
def SeedOf (g : RefGrid D) (dict : RefDict) (cells : List Nat) (k : Nat) : Prop :=
  ∃ c ∈ cells, ∃ face ∈ priTriFaces, OnTri g dict (face.map ((g.cell .pri).c2n c)) ∧
    k ∈ (face.map ((g.cell .pri).c2n c)).map Int.toNat

open Classical in
/-- **The loop over prism tris** marks the nodes of those with an id of the
dictionary. -/
theorem markPriTris_spec (dict : RefDict) (hinv : g.CellsInv) (hagree : TrisAgree g) (mark : Nat → Int) :
    ∃ mark', markPriTris g dict mark = .ok mark' ∧ ∀ k, mark' k =
      if SeedOf g dict (g.cell .pri).validCells k then 0 else mark k := by
  obtain ⟨mark', hrun, hlist, hmark⟩ := ArrayLoop.foldlM_exists
    (l := (g.cell .pri).validCells) (b := mark)
    (f := fun mark cell => do
      let orig := (g.cell .pri).c2n cell
      let mark ← markPriTri g dict [orig 0, orig 1, orig 2] mark
      markPriTri g dict [orig 3, orig 5, orig 4] mark)
    (fun done rest m => done ++ rest = (g.cell .pri).validCells ∧
      ∀ k, m k = if SeedOf g dict done k then 0 else mark k)
    (by
      intro done c rest m hP
      obtain ⟨hlist, hm⟩ := hP
      set orig := (g.cell .pri).c2n c with horig
      obtain ⟨m1, hrun1, hm1⟩ := markPriTri_spec dict hinv hagree [orig 0, orig 1, orig 2] rfl m
      obtain ⟨m2, hrun2, hm2⟩ := markPriTri_spec dict hinv hagree [orig 3, orig 5, orig 4]
        rfl m1
      refine ⟨m2, by simp only [hrun1, hrun2, bind, Except.bind], by simpa using hlist, ?_⟩
      intro k
      rw [hm2 k, hm1 k, hm k]
      have hsplit : SeedOf g dict (done ++ [c]) k ↔ SeedOf g dict done k ∨
          (OnTri g dict [orig 0, orig 1, orig 2] ∧ k ∈ [orig 0, orig 1, orig 2].map Int.toNat) ∨
          (OnTri g dict [orig 3, orig 5, orig 4] ∧ k ∈ [orig 3, orig 5, orig 4].map Int.toNat) := by
        simp only [SeedOf, List.mem_append, priTriFaces, List.mem_cons,
          List.not_mem_nil, or_false, or_and_right, exists_or, exists_eq_left, List.map_cons,
          List.map_nil, horig]
      grind)
    ⟨rfl, fun k => by simp [SeedOf]⟩
  rw [List.append_nil] at hlist
  refine ⟨mark', hrun, fun k => ?_⟩
  rw [hmark k, hlist]

/-- The marks of valid nodes are numbers of layers. -/
def Marks (valid : Nat → Prop) (mark : Nat → Int) : Prop :=
  ∀ k, valid k → mark k = refEmpty ∨ 0 ≤ mark k

/-- What one transfer does. -/
theorem passMark_spec {valid : Nat → Prop} {copy mark : Nat → Int} {source : Nat} (target : Nat)
    (hcopy : Marks valid copy) (hsource : valid source) (hmark : Marks valid mark) :
    Marks valid (passMark copy mark source target) ∧
      ∀ k, passMark copy mark source target k ≠ refEmpty ↔ mark k ≠ refEmpty ∨
        copy k = refEmpty ∧ k = target ∧ copy source ≠ refEmpty := by
  unfold passMark
  split
  · rename_i hcond
    have hpos : 0 ≤ copy source := (hcopy source hsource).resolve_left hcond.2
    have hne : copy source + 1 ≠ refEmpty := by
      unfold refEmpty
      omega
    constructor
    · intro k hk
      by_cases htarget : k = target
      · subst htarget
        exact Or.inr (by rw [Function.update_self]; omega)
      · rw [Function.update_of_ne htarget]
        exact hmark k hk
    · intro k
      by_cases htarget : k = target
      · subst htarget
        simp [hne, hcond]
      · simp [htarget]
  · rename_i hcond
    refine ⟨hmark, fun k => ?_⟩
    grind

/-- What a list of transfers does. -/
theorem passMarks_spec {valid : Nat → Prop} {copy : Nat → Int} (hcopy : Marks valid copy)
    (pairs : List (Nat × Nat)) (hpairs : ∀ pair ∈ pairs, valid pair.1) :
    ∀ mark : Nat → Int, Marks valid mark →
      Marks valid (pairs.foldl (fun mark pair => passMark copy mark pair.1 pair.2) mark) ∧
      ∀ k, pairs.foldl (fun mark pair => passMark copy mark pair.1 pair.2) mark k ≠ refEmpty ↔
        mark k ≠ refEmpty ∨
          copy k = refEmpty ∧ ∃ source, (source, k) ∈ pairs ∧ copy source ≠ refEmpty := by
  induction pairs with
  | nil =>
      intro mark hmark
      exact ⟨hmark, fun k => by simp⟩
  | cons pair pairs ih =>
      intro mark hmark
      obtain ⟨source, target⟩ := pair
      obtain ⟨hfirst, hstep⟩ := passMark_spec target hcopy
        (hpairs (source, target) List.mem_cons_self) hmark
      obtain ⟨hmarks, hrest⟩ := ih (fun pair h => hpairs pair (List.mem_cons_of_mem _ h)) _ hfirst
      rw [List.foldl_cons]
      refine ⟨hmarks, fun k => ?_⟩
      rw [hrest k, hstep k]
      simp only [List.mem_cons, Prod.mk.injEq]
      grind

/-- The transfers of the columns of prisms. -/
def columnPairs (pri : RefCell) (cells : List Nat) : List (Nat × Nat) :=
  cells.flatMap fun c => priColumns.map fun column =>
    ((pri.c2n c column.1).toNat, (pri.c2n c column.2).toNat)

theorem relaxPris_eq (pri : RefCell) (mark : Nat → Int) :
    relaxPris pri mark = (columnPairs pri pri.validCells).foldl
      (fun acc pair => passMark mark acc pair.1 pair.2) mark := by
  rw [relaxPris, columnPairs, List.foldl_flatMap]
  simp only [List.foldl_map]
  rfl

/-- **One relaxation** marks what the columns join to a marked node. -/
theorem relaxPris_spec {valid : Nat → Prop} (pri : RefCell) {mark : Nat → Int}
    (hvalid : ∀ c, pri.Live c → ∀ i, i < 6 → valid (pri.c2n c i).toNat) (hmark : Marks valid mark) :
    Marks valid (relaxPris pri mark) ∧ ∀ k, relaxPris pri mark k ≠ refEmpty ↔
      mark k ≠ refEmpty ∨ ∃ c, pri.Live c ∧ ∃ column ∈ priColumns,
        mark (pri.c2n c column.1).toNat ≠ refEmpty ∧ (pri.c2n c column.2).toNat = k := by
  have hcolumns : ∀ column ∈ priColumns, column.1 < 6 := by decide
  have hpairs : ∀ pair, pair ∈ columnPairs pri pri.validCells ↔ ∃ c, pri.Live c ∧
      ∃ column ∈ priColumns, (pri.c2n c column.1).toNat = pair.1 ∧
        (pri.c2n c column.2).toNat = pair.2 := by
    intro pair
    simp only [columnPairs, List.mem_flatMap, List.mem_map, RefCell.mem_validCells, Prod.ext_iff]
  obtain ⟨hmarks, hrest⟩ := passMarks_spec hmark (columnPairs pri pri.validCells) (by
    intro pair hpair
    obtain ⟨c, hlive, column, hcolumn, h1, _⟩ := (hpairs pair).mp hpair
    rw [← h1]
    exact hvalid c hlive _ (hcolumns column hcolumn)) mark hmark
  rw [relaxPris_eq]
  refine ⟨hmarks, fun k => ?_⟩
  rw [hrest k]
  constructor
  · intro h
    rcases h with h | ⟨_, source, hin, hsource⟩
    · exact Or.inl h
    · obtain ⟨c, hlive, column, hcolumn, h1, h2⟩ := (hpairs _).mp hin
      exact Or.inr ⟨c, hlive, column, hcolumn, by rw [h1]; exact hsource, h2⟩
  · intro h
    rcases h with h | ⟨c, hlive, column, hcolumn, h1, h2⟩
    · exact Or.inl h
    · by_cases hk : mark k = refEmpty
      · exact Or.inr ⟨hk, _, (hpairs _).mpr ⟨c, hlive, column, hcolumn, rfl, h2⟩, h1⟩
      · exact Or.inl hk

end Local

/-! ## The marks of all ranks -/

/-- A walk along the columns of the prisms of all ranks, at most one layer in
each step. -/
inductive Reached (p : Nat) (grid : Nat → RefGrid D) (seeds : Int → Prop) : Nat → Int → Prop
  | seed {x : Int} : seeds x → Reached p grid seeds 0 x
  | stay {n : Nat} {x : Int} : Reached p grid seeds n x → Reached p grid seeds (n + 1) x
  | column {n r c i j : Nat} : r < p → ((grid r).cell .pri).Live c → (i, j) ∈ priColumns →
      Reached p grid seeds n (((grid r).cell .pri).nodeGlobal (grid r).node c i) →
      Reached p grid seeds (n + 1) (((grid r).cell .pri).nodeGlobal (grid r).node c j)

/-- The global is on a tri face of a prism of the rank, and that face is a tri
with an id of the dictionary. -/
def SeededOn (g : RefGrid D) (dict : RefDict) (x : Int) : Prop :=
  ∃ c, (g.cell .pri).Live c ∧ ∃ face ∈ priTriFaces, x ∈ cornerGlobals g .pri c face ∧
    ∃ t, (g.cell .tri).Live t ∧
      (∀ y, y ∈ cornerGlobals g .pri c face ↔ y ∈ cornerGlobals g .tri t [0, 1, 2]) ∧
      dict.hasKey ((g.cell .tri).c2n t 3)

/-- The globals from which the layers start. -/
def LayerSeed (p : Nat) (grid : Nat → RefGrid D) (keepingNLayers : Int)
    (ofFaceid : Option RefDict) (x : Int) : Prop :=
  0 < keepingNLayers ∧ ∃ dict, ofFaceid = some dict ∧ ∃ r, r < p ∧ SeededOn (grid r) dict x

/-- Tris of any ranks on the same nodes have the same id. -/
def TriIdsAgree (p : Nat) (grid : Nat → RefGrid D) : Prop :=
  ∀ r q, r < p → q < p → ∀ t t', ((grid r).cell .tri).Live t → ((grid q).cell .tri).Live t' →
    (∀ y, y ∈ cornerGlobals (grid r) .tri t [0, 1, 2] ↔
      y ∈ cornerGlobals (grid q) .tri t' [0, 1, 2]) →
    ((grid r).cell .tri).c2n t 3 = ((grid q).cell .tri).c2n t' 3

/-- Marks that are exactly the globals of a set. -/
structure MarksAre (g : RefGrid D) (mark : Nat → Int) (R : Int → Prop) : Prop where
  marks : Marks g.node.Live mark
  iff : ∀ k, g.node.Live k → (mark k ≠ refEmpty ↔ R (g.node.global k))

section OneGrid

variable {g : RefGrid D}

/-- A local index of a valid node. -/
def ValidNode (g : RefGrid D) (x : Int) : Prop := 0 ≤ x ∧ g.node.Live x.toNat

theorem mem_globals_iff (hslot : g.node.SlotInv) {nodes : List Int} {x : Int}
    (hnodes : ∀ y ∈ nodes, ValidNode g y) (hx : ValidNode g x) :
    g.node.global x.toNat ∈ nodes.map (fun y => g.node.global y.toNat) ↔ x ∈ nodes := by
  constructor
  · intro hin
    obtain ⟨y, hy, heq⟩ := List.mem_map.mp hin
    have hvalid := hnodes y hy
    have hsame := hslot.distinct y.toNat x.toNat hvalid.2 hx.2 heq
    have : y = x := by
      have := hvalid.1
      have := hx.1
      omega
    exact this ▸ hy
  · intro hin
    exact List.mem_map_of_mem hin

theorem sameGlobals_iff (hslot : g.node.SlotInv) {nodes nodes' : List Int}
    (hnodes : ∀ y ∈ nodes, ValidNode g y) (hnodes' : ∀ y ∈ nodes', ValidNode g y) :
    (∀ x, x ∈ nodes ↔ x ∈ nodes') ↔
      ∀ y, y ∈ nodes.map (fun y => g.node.global y.toNat) ↔
        y ∈ nodes'.map (fun y => g.node.global y.toNat) := by
  constructor
  · intro hsame y
    simp only [List.mem_map, hsame]
  · intro hsame x
    constructor
    · intro hx
      exact (mem_globals_iff hslot hnodes' (hnodes x hx)).mp
        ((hsame _).mp (List.mem_map_of_mem hx))
    · intro hx
      exact (mem_globals_iff hslot hnodes (hnodes' x hx)).mp
        ((hsame _).mpr (List.mem_map_of_mem hx))

theorem cornerGlobals_eq (g : RefGrid D) (t : CellType) (c : Nat) (corners : List Nat) :
    cornerGlobals g t c corners =
      (corners.map ((g.cell t).c2n c)).map fun y => g.node.global y.toNat := by
  rw [List.map_map]
  rfl

theorem triGlobals_eq (hinv : g.CellsInv) (t : Nat) :
    cornerGlobals g .tri t [0, 1, 2] =
      ((g.cell .tri).nodeList t).map fun y => g.node.global y.toNat := by
  rw [cornerGlobals_eq, RefCell.nodeList, RefCell.nodePer, hinv.type]
  rfl

/-- Cells of valid nodes. -/
def ValidCorners (g : RefGrid D) : Prop :=
  ∀ t c, (g.cell t).Live c → ∀ l, l < t.nodePer → ValidNode g ((g.cell t).c2n c l)

theorem ValidCorners.nodeList (h : ValidCorners g) (hinv : g.CellsInv) {t : CellType} {c : Nat}
    (hlive : (g.cell t).Live c) : ∀ y ∈ (g.cell t).nodeList c, ValidNode g y := by
  intro y hy
  obtain ⟨l, hl, rfl⟩ := RefCell.mem_nodeList.mp hy
  rw [RefCell.nodePer, hinv.type] at hl
  exact h t c hlive l hl

theorem ValidCorners.map (h : ValidCorners g) {t : CellType} {c : Nat}
    (hlive : (g.cell t).Live c) {corners : List Nat} (hcorners : ∀ l ∈ corners, l < t.nodePer) :
    ∀ y ∈ corners.map ((g.cell t).c2n c), ValidNode g y := by
  intro y hy
  obtain ⟨l, hl, rfl⟩ := List.mem_map.mp hy
  exact h t c hlive l (hcorners l hl)

theorem priTriFaces_lt : ∀ face ∈ priTriFaces, ∀ l ∈ face, l < CellType.pri.nodePer := by decide

/-- The seeds of a rank by their globals. -/
theorem seedOf_iff (hinv : g.CellsInv) (hslot : g.node.SlotInv) (hvalid : ValidCorners g)
    (dict : RefDict) {k : Nat} (hk : g.node.Live k) :
    SeedOf g dict (g.cell .pri).validCells k ↔ SeededOn g dict (g.node.global k) := by
  have hnode : ValidNode g (k : Int) := ⟨by omega, by simpa using hk⟩
  apply exists_congr
  intro c
  rw [RefCell.mem_validCells]
  apply and_congr_right
  intro hlive
  apply exists_congr
  intro face
  apply and_congr_right
  intro hface
  have hcorners := hvalid.map hlive (priTriFaces_lt face hface)
  rw [and_comm]
  refine and_congr ?_ ?_
  · rw [cornerGlobals_eq]
    have hmem := mem_globals_iff hslot hcorners hnode
    rw [Int.toNat_natCast] at hmem
    rw [hmem]
    constructor
    · intro h
      obtain ⟨y, hy, hyk⟩ := List.mem_map.mp h
      have := (hcorners y hy).1
      have hy' : y = (k : Int) := by omega
      exact hy' ▸ hy
    · intro h
      exact List.mem_map.mpr ⟨_, h, Int.toNat_natCast k⟩
  · apply exists_congr
    intro t
    apply and_congr_right
    intro htri
    rw [sameGlobals_iff hslot hcorners (hvalid.nodeList hinv htri), cornerGlobals_eq,
      triGlobals_eq hinv]

end OneGrid

section AllRanks

variable {p : Nat} {grid : Nat → RefGrid D}

theorem GridDistributed.validCorners (h : GridDistributed p grid) {r : Nat} (hr : r < p) :
    ValidCorners (grid r) := h.nodes r hr

theorem TriIdsAgree.local (h : TriIdsAgree p grid) (hgrid : GridDistributed p grid) {r : Nat}
    (hr : r < p) : TrisAgree (grid r) := by
  intro t t' hlive hlive' hsame
  have hvalid := hgrid.validCorners hr
  have hinv := hgrid.cells r hr
  apply h r r hr hr t t' hlive hlive'
  rw [triGlobals_eq hinv, triGlobals_eq hinv]
  exact (sameGlobals_iff (hgrid.inv r hr).toSlotInv (hvalid.nodeList hinv hlive)
    (hvalid.nodeList hinv hlive')).mp hsame

/-- The owner of a node has a copy of every cell at the node. -/
theorem GridDistributed.copy (h : GridDistributed p grid) {r q k c l : Nat} {t : CellType}
    (hr : r < p) (hq : q < p) (hlive : ((grid r).cell t).Live c) (hl : l < t.nodePer)
    (hk : (grid q).node.Live k) (howned : (grid q).node.Owned k)
    (hglobal : ((grid r).cell t).nodeGlobal (grid r).node c l = (grid q).node.global k) :
    ∃ c', ((grid q).cell t).Live c' ∧ ∀ m, m < t.nodePer →
      ((grid q).cell t).nodeGlobal (grid q).node c' m =
        ((grid r).cell t).nodeGlobal (grid r).node c m := by
  have hpart : (grid r).node.part (((grid r).cell t).c2n c l).toNat = q := by
    rw [h.parts r q hr hq _ k (h.nodes r hr t c hlive l hl).2 hk hglobal]
    exact howned.symm.trans (h.rank q hq)
  have hheld := h.held r hr t c hlive l hl
  rw [hpart] at hheld
  exact hheld

theorem cornerGlobals_congr {g g' : RefGrid D} {t : CellType} {c c' : Nat} {corners : List Nat}
    (h : ∀ m ∈ corners, (g'.cell t).nodeGlobal g'.node c' m = (g.cell t).nodeGlobal g.node c m) :
    cornerGlobals g' t c' corners = cornerGlobals g t c corners := List.map_congr_left h

/-- A seed of any rank is one of its owner. -/
theorem GridDistributed.seeded_owner (h : GridDistributed p grid) (hids : TriIdsAgree p grid)
    {dict : RefDict} {r q k : Nat} (hr : r < p) (hq : q < p) (hk : (grid q).node.Live k)
    (howned : (grid q).node.Owned k) (hseed : SeededOn (grid r) dict ((grid q).node.global k)) :
    SeededOn (grid q) dict ((grid q).node.global k) := by
  obtain ⟨c, hlive, face, hface, hx, t, htri, hsame, hkey⟩ := hseed
  have hlt := priTriFaces_lt face hface
  obtain ⟨l, hl, hglobal⟩ := List.mem_map.mp hx
  obtain ⟨c', hlive', hcopy⟩ := h.copy hr hq hlive (hlt l hl) hk howned hglobal
  obtain ⟨m, hm, hglobal'⟩ := List.mem_map.mp ((hsame _).mp hx)
  have htriLt : ∀ m ∈ [0, 1, 2], m < CellType.tri.nodePer := by decide
  obtain ⟨t', htri', hcopy'⟩ := h.copy hr hq htri (htriLt m hm) hk howned hglobal'
  have hpri : cornerGlobals (grid q) .pri c' face = cornerGlobals (grid r) .pri c face :=
    cornerGlobals_congr fun m hm => hcopy m (hlt m hm)
  have htris : cornerGlobals (grid q) .tri t' [0, 1, 2] =
      cornerGlobals (grid r) .tri t [0, 1, 2] :=
    cornerGlobals_congr fun m hm => hcopy' m (htriLt m hm)
  refine ⟨c', hlive', face, hface, by rw [hpri]; exact hx, t', htri', ?_, ?_⟩
  · rw [hpri, htris]
    exact hsame
  · rw [← hids r q hr hq t t' htri htri' fun y => by rw [htris]]
    exact hkey

/-- **The exchange of marks**: what the owners know is known to all ranks. -/
theorem ghostMarks_run (hp : 0 < p) (hgrid : GridDistributed p grid)
    (hdist : Distributed p fun r => (grid r).node)
    (hfit : p ≤ 1 ∨ GhostFits p (fun r => (grid r).node) 1) {R : Int → Prop}
    {mark : Nat → Nat → Int} (mem : Nat → GhostMemory Int)
    (hmarks : ∀ r, r < p → Marks (grid r).node.Live (mark r))
    (howned : ∀ r, r < p → ∀ k, (grid r).node.Live k → (grid r).node.Owned k →
      (mark r k ≠ refEmpty ↔ R ((grid r).node.global k))) :
    Yields p (fun r => ghostInt p (grid r).node (mark r) 1 (mem r)) fun out =>
      ∀ r, r < p → MarksAre (grid r) (out r) R := by
  obtain ⟨hexists, hgood⟩ := (ghost_exchange hp hdist .int 1 mark mem).1.mpr
    (hfit.imp id fun h => ⟨h, Or.inl rfl⟩)
  refine ⟨hexists, fun out hout r hr => ?_⟩
  have hrefreshed := hgood out hout r hr
  have hentry : ∀ k, (grid r).node.Live k →
      ∃ q k', q < p ∧ (grid q).node.Live k' ∧ (grid q).node.Owned k' ∧
        (grid q).node.global k' = (grid r).node.global k ∧ out r k = mark q k' := by
    intro k hk
    obtain ⟨hself, hghost⟩ := hrefreshed k hk 0 one_pos
    rw [Nat.zero_add, Nat.one_mul] at hself
    by_cases ho : (grid r).node.Owned k
    · exact ⟨r, k, hr, hk, ho, rfl, hself ho⟩
    · obtain ⟨hq, k', hk', hglobal⟩ := hdist.owner r hr k (RefNode.mem_ghosts.mpr ⟨hk, ho⟩)
      have hout' := hghost ho k' hk' hglobal
      rw [Nat.zero_add, Nat.one_mul, Nat.zero_add, Nat.one_mul] at hout'
      refine ⟨_, k', hq, hk', ?_, hglobal, hout'⟩
      rw [RefNode.Owned, hgrid.rank _ hq]
      exact (hgrid.parts _ r hq hr k' k hk' hk hglobal).symm
  constructor
  · intro k hk
    obtain ⟨q, k', hq, hk', _, _, hout'⟩ := hentry k hk
    rw [hout']
    exact hmarks q hq k' hk'
  · intro k hk
    obtain ⟨q, k', hq, hk', ho', hglobal, hout'⟩ := hentry k hk
    rw [hout', ← hglobal]
    exact howned q hq k' hk' ho'

/-- One relaxation takes the owners one layer further. -/
theorem relaxPris_owned (hgrid : GridDistributed p grid) {seeds : Int → Prop} {n : Nat}
    {mark : Nat → Nat → Int}
    (hmark : ∀ r, r < p → MarksAre (grid r) (mark r) (Reached p grid seeds n)) {r k : Nat}
    (hr : r < p) (hk : (grid r).node.Live k) (howned : (grid r).node.Owned k) :
    relaxPris ((grid r).cell .pri) (mark r) k ≠ refEmpty ↔
      Reached p grid seeds (n + 1) ((grid r).node.global k) := by
  have hvalid := hgrid.nodes r hr .pri
  have hcolumns : ∀ column ∈ priColumns, column.1 < 6 ∧ column.2 < 6 := by decide
  rw [(relaxPris_spec ((grid r).cell .pri) (fun c hc i hi => (hvalid c hc i hi).2)
    (hmark r hr).marks).2 k]
  constructor
  · intro h
    rcases h with h | ⟨c, hlive, column, hcolumn, hsource, htarget⟩
    · exact .stay (((hmark r hr).iff k hk).mp h)
    · obtain ⟨hi, _⟩ := hcolumns column hcolumn
      have hreached := ((hmark r hr).iff _ (hvalid c hlive _ hi).2).mp hsource
      have hnext := Reached.column (i := column.1) (j := column.2) hr hlive hcolumn hreached
      rw [RefCell.nodeGlobal, htarget] at hnext
      exact hnext
  · intro h
    generalize hx : (grid r).node.global k = x at h
    cases h with
    | stay h => exact Or.inl (((hmark r hr).iff k hk).mpr (hx ▸ h))
    | @column _ r' c i j hr' hlive hcolumn h =>
        obtain ⟨hi, hj⟩ := hcolumns (i, j) hcolumn
        obtain ⟨c', hlive', hcopy⟩ := hgrid.copy hr' hr hlive hj hk howned hx.symm
        refine Or.inr ⟨c', hlive', (i, j), hcolumn, ?_, ?_⟩
        · rw [(hmark r hr).iff _ (hvalid c' hlive' i hi).2]
          have hsame := hcopy i hi
          rw [RefCell.nodeGlobal] at hsame
          rw [hsame]
          exact h
        · have hsame := hcopy j hj
          rw [← hx] at hsame
          exact (hgrid.inv r hr).distinct _ k (hvalid c' hlive' j hj).2 hk hsame

/-- **The relaxations** reach one layer more each. -/
theorem relaxLayers_run (hp : 0 < p) (hgrid : GridDistributed p grid)
    (hdist : Distributed p fun r => (grid r).node)
    (hfit : p ≤ 1 ∨ GhostFits p (fun r => (grid r).node) 1) {seeds : Int → Prop} :
    ∀ (layers n : Nat) (mem : Nat → Nat → GhostMemory Int) (mark : Nat → Nat → Int),
      (∀ r, r < p → MarksAre (grid r) (mark r) (Reached p grid seeds n)) →
      Yields p (fun r => relaxLayers p (grid r) layers (mem r) (mark r)) fun out =>
        ∀ r, r < p → MarksAre (grid r) (out r) (Reached p grid seeds (n + layers)) := by
  intro layers
  induction layers with
  | zero =>
      intro n mem mark hmark
      have hrun : Runs p (fun r => relaxLayers p (grid r) 0 (mem r) (mark r)) mark :=
        .ret fun r _ => rfl
      apply hrun.yields
      intro out hout r hr
      rw [hout r hr]
      exact hmark r hr
  | succ layers ih =>
      intro n mem mark hmark
      have hstep := ghostMarks_run hp hgrid hdist hfit (fun r => mem r 0)
        (fun r hr => (relaxPris_spec ((grid r).cell .pri)
          (fun c hc i hi => (hgrid.nodes r hr .pri c hc i hi).2) (hmark r hr).marks).1)
        fun r hr k hk howned => relaxPris_owned hgrid hmark hr hk howned
      refine hstep.bind hp fun next hnext => ?_
      have hrest := ih (n + 1) (fun r i => mem r (i + 1)) next hnext
      rw [Nat.add_right_comm, Nat.add_assoc] at hrest
      exact hrest

/-- The marks of one rank before the first exchange. -/
theorem firstMarks_spec (hgrid : GridDistributed p grid) (hids : TriIdsAgree p grid)
    (keepingNLayers : Int) (ofFaceid : Option RefDict) {r : Nat} (hr : r < p) :
    ∃ mark, firstMarks (grid r) keepingNLayers ofFaceid = .ok mark ∧
      Marks (grid r).node.Live mark ∧
      ∀ k, (grid r).node.Live k → (grid r).node.Owned k →
        (mark k ≠ refEmpty ↔ LayerSeed p grid keepingNLayers ofFaceid ((grid r).node.global k)) := by
  by_cases hkeep : 0 < keepingNLayers ∧ ∃ dict, ofFaceid = some dict
  · obtain ⟨hpos, dict, rfl⟩ := hkeep
    obtain ⟨mark, hrun, hmark⟩ := markPriTris_spec dict (hgrid.cells r hr)
      (hids.local hgrid hr) fun _ => refEmpty
    have hseed : ∀ k, (mark k = refEmpty ∨ 0 ≤ mark k) ∧
        (mark k ≠ refEmpty ↔ SeedOf (grid r) dict ((grid r).cell .pri).validCells k) := by
      intro k
      rw [hmark k]
      split
      · rename_i hin
        exact ⟨Or.inr le_rfl, iff_of_true (by decide) hin⟩
      · rename_i hin
        exact ⟨Or.inl rfl, iff_of_false (fun h => h rfl) hin⟩
    refine ⟨mark, by rw [firstMarks, if_pos hpos, hrun], fun k _ => (hseed k).1, ?_⟩
    intro k hk howned
    rw [(hseed k).2, seedOf_iff (hgrid.cells r hr) (hgrid.inv r hr).toSlotInv
      (hgrid.validCorners hr) dict hk]
    constructor
    · exact fun h => ⟨hpos, dict, rfl, r, hr, h⟩
    · intro h
      obtain ⟨_, dict', hdict, r', hr', h'⟩ := h
      cases hdict
      exact hgrid.seeded_owner hids hr' hr hk howned h'
  · refine ⟨fun _ => refEmpty, ?_, fun k _ => Or.inl rfl, ?_⟩
    · cases ofFaceid with
      | none => rfl
      | some dict => exact if_neg fun h => hkeep ⟨h, dict, rfl⟩
    · intro k _ _
      refine iff_of_false (fun h => h rfl) fun h => ?_
      obtain ⟨hpos, dict, hdict, _⟩ := h
      exact hkeep ⟨hpos, dict, hdict⟩

/-- **The marks** are the globals within the kept layers. -/
theorem layerMarks_run (hp : 0 < p) (hgrid : GridDistributed p grid)
    (hdist : Distributed p fun r => (grid r).node)
    (hfit : p ≤ 1 ∨ GhostFits p (fun r => (grid r).node) 1) (hids : TriIdsAgree p grid)
    (keepingNLayers : Int) (ofFaceid : Option RefDict) (mem : Nat → Nat → GhostMemory Int) :
    Yields p (fun r => layerMarks p (grid r) keepingNLayers ofFaceid (mem r)) fun out =>
      ∀ r, r < p → MarksAre (grid r) (out r)
        (Reached p grid (LayerSeed p grid keepingNLayers ofFaceid) keepingNLayers.toNat) := by
  set seeds := LayerSeed p grid keepingNLayers ofFaceid with hseeds
  have hzero : ∀ x, Reached p grid seeds 0 x ↔ seeds x := by
    intro x
    constructor
    · intro h
      cases h with
      | seed h => exact h
    · exact .seed
  have hrank : ∀ r, ∃ mark, r < p → firstMarks (grid r) keepingNLayers ofFaceid = .ok mark ∧
      Marks (grid r).node.Live mark ∧
      ∀ k, (grid r).node.Live k → (grid r).node.Owned k →
        (mark k ≠ refEmpty ↔ Reached p grid seeds 0 ((grid r).node.global k)) := by
    intro r
    by_cases hr : r < p
    · obtain ⟨mark, hmark⟩ := firstMarks_spec hgrid hids keepingNLayers ofFaceid hr
      exact ⟨mark, fun _ => by simpa only [hzero] using hmark⟩
    · exact ⟨fun _ => 0, fun h => absurd h hr⟩
  choose mark hmark using hrank
  refine yields_lift_bind hp (fun r hr => (hmark r hr).1) ?_
  refine (ghostMarks_run hp hgrid hdist hfit (fun r => mem r 0) (fun r hr => (hmark r hr).2.1)
    fun r hr => (hmark r hr).2.2).bind hp ?_
  intro next hnext
  have hrest := relaxLayers_run hp hgrid hdist hfit keepingNLayers.toNat 0
    (fun r i => mem r (i + 1)) next hnext
  rw [Nat.zero_add] at hrest
  exact hrest

end AllRanks

end RefineMesh
