import Mathlib.Tactic
import RefineMesh.Node
import RefineMesh.CellRows
import RefineMesh.Chains

/-!
# Grids

`REF_GRID_STRUCT` with the node store, one cell store for each type and the
geometry records that the mesh operations look up and remove.  The tets and
triangles of a grid are read as collections of oriented simplices over node
indices.
-/

namespace RefineMesh

open Chains

/-- `REF_GEOM_NODE`, `REF_GEOM_EDGE`, `REF_GEOM_FACE` and `REF_GEOM_BODY`. -/
inductive GeomType
  | node | edge | face | body
  deriving DecidableEq, Repr

/-- The type as it stands in the table. -/
def GeomType.code : GeomType → Int
  | node => 0
  | edge => 1
  | face => 2
  | body => 3

/-- `REF_GEOM_STRUCT`, without the parameters and the CAD model.
`descr geom attribute` is `ref_geom_descr(ref_geom, attribute, geom)`. -/
structure RefGeom where
  n : Nat
  max : Nat
  blank : Int
  descr : Nat → Nat → Int
  adj : RefAdj

namespace RefGeom

/-- `REF_GEOM_DESCR_TYPE`. -/
def descrType : Nat := 0

/-- `REF_GEOM_DESCR_ID`. -/
def descrId : Nat := 1

/-- `REF_GEOM_DESCR_NODE`. -/
def descrNode : Nat := 5

/-- `ref_geom_is_a`. -/
def isA (s : RefGeom) (node : Int) (type : GeomType) : Bool :=
  (s.adj.refs node).any fun geom => type.code = s.descr geom.toNat descrType

/-- `ref_geom_remove`. -/
def remove (s : RefGeom) (geom : Int) : Except Status RefGeom :=
  if geom < 0 ∨ (s.max : Int) ≤ geom then .error .invalid
  else if s.descr geom.toNat descrType = refEmpty then .error .invalid
  else do
    let adj ← s.adj.remove (s.descr geom.toNat descrNode) geom
    let row := Function.update (Function.update (s.descr geom.toNat) descrType refEmpty)
      descrId s.blank
    .ok { s with
      n := s.n - 1
      descr := Function.update s.descr geom.toNat row
      blank := geom
      adj := adj }

/-- The `while` of `ref_geom_remove_all`, cut off after `fuel` rounds. -/
def removeAll (node : Int) : Nat → RefGeom → Option (Except Status RefGeom)
  | 0, _ => none
  | fuel+1, s =>
      let item := s.adj.firstItem node
      if item = refEmpty then some (.ok s)
      else
        match s.remove (s.adj.itemRef item.toNat) with
        | .ok s => removeAll node fuel s
        | .error status => some (.error status)

end RefGeom

/-- A geometry without records. -/
def noGeom : RefGeom :=
  { n := 0, max := 0, blank := refEmpty, descr := fun _ _ => 0,
    adj := { nnode := 0, nitem := 0, first := fun _ => 0, itemNext := fun _ => 0,
             itemRef := fun _ => 0, blank := refEmpty } }

/-- `REF_GRID_STRUCT`. -/
structure RefGrid (D : Type) where
  node : RefNode D
  cell : CellType → RefCell
  geom : RefGeom

/-- The tet in a row. -/
def tetOf (row : List Int) : Tet Int := (row.getD 0 0, row.getD 1 0, row.getD 2 0, row.getD 3 0)

/-- The triangle in a row. -/
def triOf (row : List Int) : Tri Int := (row.getD 0 0, row.getD 1 0, row.getD 2 0)

namespace RefGrid

variable {D : Type}

/-- One cell store replaced. -/
def setCell (g : RefGrid D) (t : CellType) (s : RefCell) : RefGrid D :=
  { g with cell := Function.update g.cell t s }

@[simp] theorem setCell_cell_self (g : RefGrid D) (t : CellType) (s : RefCell) :
    (g.setCell t s).cell t = s := Function.update_self _ _ _

theorem setCell_cell_of_ne (g : RefGrid D) {t t' : CellType} (s : RefCell) (h : t' ≠ t) :
    (g.setCell t s).cell t' = g.cell t' := Function.update_of_ne h _ _

@[simp] theorem setCell_node (g : RefGrid D) (t : CellType) (s : RefCell) :
    (g.setCell t s).node = g.node := rfl

@[simp] theorem setCell_geom (g : RefGrid D) (t : CellType) (s : RefCell) :
    (g.setCell t s).geom = g.geom := rfl

/-- The tets of a grid. -/
def tets (g : RefGrid D) : Multiset (Tet Int) := (g.cell .tet).cells.map tetOf

/-- The triangles of a grid. -/
def tris (g : RefGrid D) : Multiset (Tri Int) := (g.cell .tri).cells.map triOf

/-- Cell stores that satisfy their invariant, each of its own type. -/
structure CellsInv (g : RefGrid D) : Prop where
  type : ∀ t, (g.cell t).cellType = t
  inv : ∀ t, (g.cell t).CellInv

theorem CellsInv.setCell {g : RefGrid D} (h : g.CellsInv) {t : CellType} {s : RefCell}
    (htype : s.cellType = t) (hinv : s.CellInv) : (g.setCell t s).CellsInv := by
  constructor
  · intro t'
    by_cases ht : t' = t
    · subst ht
      rw [setCell_cell_self]
      exact htype
    · rw [setCell_cell_of_ne g s ht]
      exact h.type t'
  · intro t'
    by_cases ht : t' = t
    · subst ht
      rw [setCell_cell_self]
      exact hinv
    · rw [setCell_cell_of_ne g s ht]
      exact h.inv t'

/-- No cell of the grid uses the node. -/
def Unused (g : RefGrid D) (v : Int) : Prop :=
  ∀ t c, (g.cell t).Live c → v ∉ (g.cell t).nodeList c

/-- A grid of proper tets, triangles and edgs in which the triangles are the
unshared faces of the tets. -/
structure Conforming (g : RefGrid D) : Prop where
  inv : g.CellsInv
  simple : ∀ t ∈ [CellType.tet, .tri, .edg], (g.cell t).Simple
  faces : Unshared g.tets g.tris

/-- No edge lies in three triangles. -/
def EdgesInTwoTris (g : RefGrid D) : Prop :=
  ∀ u v, u ≠ v → (g.tris.filter fun f => u ∈ f.corners ∧ v ∈ f.corners).card ≤ 2

end RefGrid

/-! ## Rows and simplices -/

theorem tetOf_cellRow {s : RefCell} (htype : s.cellType = .tet) (c : Nat) :
    tetOf (s.cellRow c) = (s.c2n c 0, s.c2n c 1, s.c2n c 2, s.c2n c 3) := by
  have hsize : s.sizePer = 4 := by unfold RefCell.sizePer; rw [htype]; rfl
  simp [tetOf, RefCell.cellRow, hsize, List.getD_eq_getElem?_getD]

theorem triOf_cellRow {s : RefCell} (htype : s.cellType = .tri) (c : Nat) :
    triOf (s.cellRow c) = (s.c2n c 0, s.c2n c 1, s.c2n c 2) := by
  have hsize : s.sizePer = 4 := by unfold RefCell.sizePer; rw [htype]; rfl
  simp [triOf, RefCell.cellRow, hsize, List.getD_eq_getElem?_getD]

theorem corners_tetOf {s : RefCell} (htype : s.cellType = .tet) (c : Nat) :
    (tetOf (s.cellRow c)).corners = s.nodeList c := by
  have hper : s.nodePer = 4 := by unfold RefCell.nodePer; rw [htype]; rfl
  rw [tetOf_cellRow htype, RefCell.nodeList, hper]
  rfl

theorem corners_triOf {s : RefCell} (htype : s.cellType = .tri) (c : Nat) :
    (triOf (s.cellRow c)).corners = s.nodeList c := by
  have hper : s.nodePer = 3 := by unfold RefCell.nodePer; rw [htype]; rfl
  rw [triOf_cellRow htype, RefCell.nodeList, hper]
  rfl

/-- The loops that overwrite one node of a row by another. -/
def substitute (nodePer : Nat) (old new : Int) (nodes : Nat → Int) : Nat → Int :=
  fun node => if node < nodePer ∧ old = nodes node then new else nodes node

/-- The same on a row as a list: the id behind the nodes is kept. -/
def substituteRow (nodePer : Nat) (old new : Int) (row : List Int) : List Int :=
  (row.take nodePer).map (fun x => if old = x then new else x) ++ row.drop nodePer

theorem map_substitute {nodePer size : Nat} (hle : nodePer ≤ size) (old new : Int)
    (nodes : Nat → Int) :
    (List.range size).map (substitute nodePer old new nodes) =
      substituteRow nodePer old new ((List.range size).map nodes) := by
  apply List.ext_getElem
  · simp [substituteRow]
    omega
  · intro i hi hi'
    simp only [List.length_map, List.length_range] at hi
    simp only [substituteRow, List.getElem_map, List.getElem_range, substitute,
      List.getElem_append, List.length_map, List.length_take, List.length_range, List.getElem_take,
      List.getElem_drop]
    by_cases hin : i < nodePer
    · have : i < min nodePer size := by omega
      simp [this, hin]
    · have : ¬ i < min nodePer size := by omega
      have hplace : nodePer + (i - min nodePer size) = i := by omega
      simp [this, hin, hplace]

/-- A substituted tet is the tet with a corner moved. -/
theorem tetOf_substituteRow {row : List Int} (hlen : row.length = 4) (old new : Int) :
    tetOf (substituteRow 4 old new row) = (tetOf row).move old new := by
  match row, hlen with
  | [a, b, c, d], _ =>
      simp [tetOf, substituteRow, Tet.move, Chains.move, List.getD_eq_getElem?_getD, eq_comm]

/-- A substituted triangle is the triangle with a corner moved. -/
theorem triOf_substituteRow {row : List Int} (hlen : row.length = 4) (old new : Int) :
    triOf (substituteRow 3 old new row) = (triOf row).move old new := by
  match row, hlen with
  | [a, b, c, d], _ =>
      simp [triOf, substituteRow, Tri.move, Chains.move, List.getD_eq_getElem?_getD, eq_comm]

namespace RefGrid

variable {D : Type} {g : RefGrid D}

theorem CellsInv.simple_tets (hinv : g.CellsInv) (hsimple : (g.cell .tet).Simple) :
    ∀ t ∈ g.tets, t.corners.Nodup := by
  intro t ht
  obtain ⟨row, hrow, rfl⟩ := Multiset.mem_map.mp ht
  obtain ⟨c, hlive, rfl⟩ := RefCell.mem_cells.mp hrow
  rw [corners_tetOf (hinv.type .tet)]
  exact hsimple c hlive

theorem CellsInv.simple_tris (hinv : g.CellsInv) (hsimple : (g.cell .tri).Simple) :
    ∀ f ∈ g.tris, f.corners.Nodup := by
  intro f hf
  obtain ⟨row, hrow, rfl⟩ := Multiset.mem_map.mp hf
  obtain ⟨c, hlive, rfl⟩ := RefCell.mem_cells.mp hrow
  rw [corners_triOf (hinv.type .tri)]
  exact hsimple c hlive

/-! ## Grids from rows -/

/-- The grid with the given rows in its cell stores. -/
def ofRows (node : RefNode D) (geom : RefGeom) (rows : CellType → List (List Int)) : RefGrid D :=
  { node := node, cell := fun t => RefCell.ofRows t (rows t), geom := geom }

section OfRows

variable {node : RefNode D} {geom : RefGeom} {rows : CellType → List (List Int)}

theorem ofRows_inv (hfit : ∀ t, RefCell.RowsFit t (rows t)) : (ofRows node geom rows).CellsInv :=
  ⟨fun t => (RefCell.ofRows_spec (hfit t)).type, fun t => (RefCell.ofRows_spec (hfit t)).inv⟩

theorem cells_ofRows {t : CellType} (hfit : RefCell.RowsFit t (rows t)) :
    ((ofRows node geom rows).cell t).cells = rows t := (RefCell.ofRows_spec hfit).cells

theorem exists_row_of_live {t : CellType} (hfit : RefCell.RowsFit t (rows t)) {c : Nat}
    (hlive : ((ofRows node geom rows).cell t).Live c) :
    ∃ row ∈ rows t, ((ofRows node geom rows).cell t).nodeList c = row.take t.nodePer := by
  have hspec := RefCell.ofRows_spec hfit
  have hrow : (RefCell.ofRows t (rows t)).cellRow c ∈ (RefCell.ofRows t (rows t)).cells :=
    RefCell.mem_cells.mpr ⟨c, hlive, rfl⟩
  rw [hspec.cells, Multiset.mem_coe] at hrow
  refine ⟨_, hrow, ?_⟩
  have hper : (RefCell.ofRows t (rows t)).nodePer = t.nodePer := by
    rw [RefCell.nodePer, hspec.type]
  rw [← hper, RefCell.take_cellRow]
  rfl

/-- What holds of the nodes of every row holds of the nodes of every cell. -/
theorem nodeList_ofRows {t : CellType} (hfit : RefCell.RowsFit t (rows t)) (p : List Int → Prop)
    (hrows : ∀ row ∈ rows t, p (row.take t.nodePer)) {c : Nat}
    (hlive : ((ofRows node geom rows).cell t).Live c) :
    p (((ofRows node geom rows).cell t).nodeList c) := by
  obtain ⟨row, hrow, hlist⟩ := exists_row_of_live hfit hlive
  rw [hlist]
  exact hrows row hrow

theorem ofRows_simple {t : CellType} (hfit : RefCell.RowsFit t (rows t))
    (hrows : ∀ row ∈ rows t, (row.take t.nodePer).Nodup) :
    ((ofRows node geom rows).cell t).Simple :=
  fun _ hlive => nodeList_ofRows hfit List.Nodup hrows hlive

theorem ofRows_distinctSets {t : CellType} (hfit : RefCell.RowsFit t (rows t))
    (hrows : ((rows t).map fun row => (row.take t.nodePer).toFinset).Nodup) :
    ((ofRows node geom rows).cell t).DistinctSets := by
  apply RefCell.distinctSets_of_nodup
  have hper : ((ofRows node geom rows).cell t).nodePer = t.nodePer := by
    rw [RefCell.nodePer, show ((ofRows node geom rows).cell t).cellType = t from
      (RefCell.ofRows_spec hfit).type]
  rw [cells_ofRows hfit, hper]
  exact hrows

theorem ofRows_unused (hfit : ∀ t, RefCell.RowsFit t (rows t)) {v : Int}
    (hrows : ∀ t, ∀ row ∈ rows t, v ∉ row.take t.nodePer) : (ofRows node geom rows).Unused v := by
  intro t c hlive
  obtain ⟨row, hrow, hlist⟩ := exists_row_of_live (hfit t) hlive
  rw [hlist]
  exact hrows t row hrow

theorem ofRows_conforming (hfit : ∀ t, RefCell.RowsFit t (rows t))
    (hrows : ∀ t ∈ [CellType.tet, .tri, .edg], ∀ row ∈ rows t, (row.take t.nodePer).Nodup)
    (hfaces : Unshared ((rows .tet).map tetOf : Multiset (Tet Int))
      ((rows .tri).map triOf : Multiset (Tri Int))) :
    (ofRows node geom rows).Conforming := by
  constructor
  · exact ofRows_inv hfit
  · intro t ht
    exact ofRows_simple (hfit t) (hrows t ht)
  · rw [tets, tris, cells_ofRows (hfit .tet), cells_ofRows (hfit .tri)]
    exact hfaces

/-- To have no edge in three triangles is a condition on the rows at hand. -/
theorem ofRows_edgesInTwoTris (hfit : RefCell.RowsFit .tri (rows .tri))
    (hrows : ∀ f ∈ (rows .tri).map triOf, ∀ u ∈ f.corners, ∀ v ∈ f.corners, u ≠ v →
      (((rows .tri).map triOf : Multiset (Tri Int)).filter
        fun f => u ∈ f.corners ∧ v ∈ f.corners).card ≤ 2) :
    (ofRows node geom rows).EdgesInTwoTris := by
  intro u v huv
  rw [tris, cells_ofRows hfit, Multiset.map_coe]
  by_cases hboth : ∃ f ∈ (rows .tri).map triOf, u ∈ f.corners ∧ v ∈ f.corners
  · obtain ⟨f, hf, hu, hv⟩ := hboth
    exact hrows f hf u hu v hv huv
  · have hnone : (((rows .tri).map triOf : Multiset (Tri Int)).filter
        fun f => u ∈ f.corners ∧ v ∈ f.corners) = 0 := by
      apply Multiset.filter_eq_nil.mpr
      intro f hf hin
      exact hboth ⟨f, hf, hin⟩
    rw [hnone]
    exact Nat.zero_le 2

end OfRows

end RefGrid

end RefineMesh
