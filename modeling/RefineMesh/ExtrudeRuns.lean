import Mathlib.Tactic
import RefineMesh.Extrude

/-!
# The cells of an extruded grid

The cells that the extrusion adds, as rows.  A prism or hex is a triangle or
quadrilateral between two planes: its faces are the cell in the lower plane, the
cell in the upper plane read the other way, and its sides.
-/

namespace RefineMesh

open Spmd
open scoped List

variable {D : Type}

/-! ## Added rows -/

/-- The rows of one type among the items. -/
def rowsOf (t : CellType) (items : List (CellType × List Int)) : List (List Int) :=
  (items.filter fun item => item.1 = t).map Prod.snd

@[simp] theorem rowsOf_nil (t : CellType) : rowsOf t [] = [] := rfl

@[simp] theorem rowsOf_append (t : CellType) (items items' : List (CellType × List Int)) :
    rowsOf t (items ++ items') = rowsOf t items ++ rowsOf t items' := by
  simp [rowsOf]

theorem mem_rowsOf {t : CellType} {items : List (CellType × List Int)} {row : List Int} :
    row ∈ rowsOf t items ↔ (t, row) ∈ items := by
  simp [rowsOf]

theorem rowsOf_cons (t : CellType) (item : CellType × List Int)
    (items : List (CellType × List Int)) :
    rowsOf t (item :: items) = if item.1 = t then item.2 :: rowsOf t items else rowsOf t items := by
  unfold rowsOf
  by_cases h : item.1 = t <;> simp [h]

theorem rowsOf_flatMap {α : Type} (t : CellType) (l : List α)
    (items : α → List (CellType × List Int)) :
    rowsOf t (l.flatMap items) = l.flatMap fun a => rowsOf t (items a) := by
  unfold rowsOf
  rw [List.filter_flatMap, List.map_flatMap]

theorem rowsOf_map {α : Type} (t u : CellType) (l : List α) (row : α → List Int) :
    rowsOf t (l.map fun a => (u, row a)) = if u = t then l.map row else [] := by
  unfold rowsOf
  rw [List.filter_map, List.map_map]
  by_cases h : u = t
  · simp [h, Function.comp_def]
  · simp [h, Function.comp_def]

/-- The second grid is the first with more cells. -/
structure Adds (g g' : RefGrid D) (items : List (CellType × List Int)) : Prop where
  inv : g'.CellsInv
  cells : ∀ t, (g'.cell t).cells = (g.cell t).cells + (rowsOf t items : Multiset (List Int))
  node : g'.node = g.node
  geom : g'.geom = g.geom

theorem Adds.refl {g : RefGrid D} (h : g.CellsInv) : Adds g g [] :=
  ⟨h, fun t => by simp, rfl, rfl⟩

theorem Adds.trans {g g' g'' : RefGrid D} {items items' : List (CellType × List Int)}
    (h : Adds g g' items) (h' : Adds g' g'' items') : Adds g g'' (items ++ items') := by
  refine ⟨h'.inv, fun t => ?_, h'.node.trans h.node, h'.geom.trans h.geom⟩
  rw [h'.cells, h.cells, rowsOf_append, ← Multiset.coe_add, add_assoc]

theorem addRow_adds {g g' : RefGrid D} {t : CellType} {row : List Int} (h : g.CellsInv)
    (hlength : row.length = t.sizePer) (hrun : g.addRow t row = .ok g') :
    Adds g g' [(t, row)] := by
  rw [RefGrid.addRow, bind_eq_ok] at hrun
  obtain ⟨⟨s, cell⟩, hadd, hret⟩ := hrun
  obtain rfl := Except.ok.inj hret
  have hsize : row.length = (g.cell t).sizePer := by
    rw [hlength, RefCell.sizePer, h.type]
  have hreplaced := (RefCell.Replaced.refl (h.inv t)).addRow hsize hadd
  refine ⟨h.setCell (hreplaced.type.trans (h.type t)) hreplaced.inv, fun u => ?_, rfl, rfl⟩
  by_cases hu : u = t
  · subst hu
    have hcells := hreplaced.cells
    rw [g.setCell_cell_self]
    simpa [rowsOf_cons] using hcells
  · rw [g.setCell_cell_of_ne _ hu, rowsOf_cons, if_neg (Ne.symm hu)]
    simp

/-- A loop of additions, with what each round ensures. -/
theorem adds_loop_ensures {f : RefGrid D → Nat → Except Status (RefGrid D)}
    {items : Nat → List (CellType × List Int)} {P : Nat → Prop} {l : List Nat}
    {g g' : RefGrid D} (h : g.CellsInv)
    (hstep : ∀ a ∈ l, ∀ g g', g.CellsInv → f g a = .ok g' → P a ∧ Adds g g' (items a))
    (hrun : l.foldlM f g = .ok g') : (∀ a ∈ l, P a) ∧ Adds g g' (l.flatMap items) := by
  induction l generalizing g with
  | nil =>
      cases hrun
      exact ⟨fun a ha => by simp at ha, .refl h⟩
  | cons a l ih =>
      rw [List.foldlM_cons, bind_eq_ok] at hrun
      obtain ⟨g1, hfirst, hrest⟩ := hrun
      obtain ⟨hgood, h1⟩ := hstep a List.mem_cons_self g g1 h hfirst
      obtain ⟨hall, h2⟩ := ih h1.inv (fun b hb => hstep b (List.mem_cons_of_mem a hb)) hrest
      exact ⟨List.forall_mem_cons.mpr ⟨hgood, hall⟩, h1.trans h2⟩

/-- A loop of additions. -/
theorem adds_loop {f : RefGrid D → Nat → Except Status (RefGrid D)}
    {items : Nat → List (CellType × List Int)} {l : List Nat} {g g' : RefGrid D}
    (h : g.CellsInv)
    (hstep : ∀ a ∈ l, ∀ g g', g.CellsInv → f g a = .ok g' → Adds g g' (items a))
    (hrun : l.foldlM f g = .ok g') : Adds g g' (l.flatMap items) :=
  (adds_loop_ensures (P := fun _ => True) h
    (fun a ha g g' hg hf => ⟨trivial, hstep a ha g g' hg hf⟩) hrun).2

/-- A loop that adds a row in each round. -/
theorem adds_rows {t : CellType} {row : Nat → List Int} {l : List Nat} {g g' : RefGrid D}
    (h : g.CellsInv) (hlength : ∀ a, (row a).length = t.sizePer)
    (hrun : l.foldlM (fun g a => g.addRow t (row a)) g = .ok g') :
    Adds g g' (l.map fun a => (t, row a)) := by
  rw [List.map_eq_flatMap]
  exact adds_loop h (fun a _ g g' hg hadd => addRow_adds hg (hlength a) hadd) hrun

/-! ## The rows of the extrusion -/

/-- Nodes in the plane with the given offset. -/
def shiftRow (offset : Int) (row : List Int) : List Int := row.map (· + offset)

/-- The side of an edge between two planes. -/
def sideRow (n : Int) (nodes : Nat → Int) (plane : Nat) : List Int :=
  [nodes 1 + plane * n, nodes 0 + plane * n, nodes 0 + (plane + 1) * n, nodes 1 + (plane + 1) * n,
    nodes 2]

/-- A cell between two planes. -/
def layerRow (n : Int) (corners : List Int) (plane : Nat) : List Int :=
  shiftRow (plane * n) corners ++ shiftRow ((plane + 1) * n) corners

/-- What an edge gives. -/
def edgItems (n : Int) (nPlanes : Nat) (nodes : Nat → Int) : List (CellType × List Int) :=
  (List.range (nPlanes - 1)).map fun plane => (.qua, sideRow n nodes plane)

/-- What a triangle gives. -/
def triItems (n : Int) (nPlanes : Nat) (faceid1 faceid2 : Int) (nodes : Nat → Int) :
    List (CellType × List Int) :=
  [(.tri, [nodes 0, nodes 1, nodes 2, faceid1])] ++
    [(.tri, shiftRow ((nPlanes - 1) * n) [nodes 0, nodes 2, nodes 1] ++ [faceid2])] ++
  (List.range (nPlanes - 1)).map fun plane =>
    (.pri, layerRow n [nodes 0, nodes 1, nodes 2] plane)

/-- What a quadrilateral gives. -/
def quaItems (n : Int) (nPlanes : Nat) (faceid1 faceid2 : Int) (nodes : Nat → Int) :
    List (CellType × List Int) :=
  [(.qua, [nodes 3, nodes 2, nodes 1, nodes 0, faceid1])] ++
    [(.qua, shiftRow ((nPlanes - 1) * n) [nodes 0, nodes 1, nodes 2, nodes 3] ++ [faceid2])] ++
  (List.range (nPlanes - 1)).map fun plane =>
    (.hex, layerRow n [nodes 0, nodes 1, nodes 2, nodes 3] plane)

/-- The oriented nodes of an edge. -/
def edgSide (twod : RefGrid D) (cell : Nat) : Nat → Int :=
  match twod.orientEdg ((twod.cell .edg).c2n cell) with
  | .ok nodes => nodes
  | .error _ => (twod.cell .edg).c2n cell

variable {twod : RefGrid D} {nPlanes : Nat}

theorem extrudeEdg_adds {g g' : RefGrid D} (h : g.CellsInv) {cell : Nat}
    (hrun : RefGrid.extrudeEdg twod nPlanes g cell = .ok g') :
    twod.orientEdg ((twod.cell .edg).c2n cell) = .ok (edgSide twod cell) ∧
      Adds g g' (edgItems twod.node.n nPlanes (edgSide twod cell)) := by
  rw [RefGrid.extrudeEdg, bind_eq_ok] at hrun
  obtain ⟨nodes, horient, hloop⟩ := hrun
  have hside : edgSide twod cell = nodes := by
    rw [edgSide, horient]
  rw [hside]
  refine ⟨horient, adds_rows h (fun _ => rfl) ?_⟩
  rw [← hloop]
  congr 1
  funext g plane
  simp only [sideRow, Nat.zero_add]
  push_cast
  rw [add_comm (1 : Int) plane]

theorem extrudeTri_adds {faceid1 faceid2 : Int} {g g' : RefGrid D} (h : g.CellsInv) {cell : Nat}
    (hrun : RefGrid.extrudeTri twod nPlanes faceid1 faceid2 g cell = .ok g') :
    Adds g g' (triItems twod.node.n nPlanes faceid1 faceid2 ((twod.cell .tri).c2n cell)) := by
  rw [RefGrid.extrudeTri] at hrun
  simp only [bind_eq_ok] at hrun
  obtain ⟨g1, hlow, g2, hhigh, hloop⟩ := hrun
  have h1 := addRow_adds h rfl hlow
  have h2 := addRow_adds h1.inv rfl hhigh
  refine (h1.trans h2).trans (adds_rows h2.inv (fun _ => rfl) ?_)
  rw [← hloop]
  congr 1
  funext g plane
  simp only [layerRow, shiftRow, List.map_cons, List.map_nil, List.cons_append, List.nil_append,
    Nat.zero_add]
  push_cast
  rw [add_comm (1 : Int) plane]

theorem extrudeQua_adds {faceid1 faceid2 : Int} {g g' : RefGrid D} (h : g.CellsInv) {cell : Nat}
    (hrun : RefGrid.extrudeQua twod nPlanes faceid1 faceid2 g cell = .ok g') :
    Adds g g' (quaItems twod.node.n nPlanes faceid1 faceid2 ((twod.cell .qua).c2n cell)) := by
  rw [RefGrid.extrudeQua] at hrun
  simp only [bind_eq_ok] at hrun
  obtain ⟨g1, hlow, g2, hhigh, hloop⟩ := hrun
  have h1 := addRow_adds h rfl hlow
  have h2 := addRow_adds h1.inv rfl hhigh
  refine (h1.trans h2).trans (adds_rows h2.inv (fun _ => rfl) ?_)
  rw [← hloop]
  congr 1
  funext g plane
  simp only [layerRow, shiftRow, List.map_cons, List.map_nil, List.cons_append, List.nil_append,
    Nat.zero_add]
  push_cast
  rw [add_comm (1 : Int) plane]

/-- The cells of an extruded grid. -/
structure Extruded (twod : RefGrid D) (nPlanes : Nat) (faceid1 faceid2 : Int) (g : RefGrid D) :
    Prop where
  inv : g.CellsInv
  /-- Every edge is a side of one cell. -/
  oriented : ∀ c ∈ (twod.cell .edg).validCells,
    twod.orientEdg ((twod.cell .edg).c2n c) = .ok (edgSide twod c)
  cells : ∀ t, (g.cell t).cells = (rowsOf t
    ((twod.cell .edg).validCells.flatMap (fun c =>
        edgItems twod.node.n nPlanes (edgSide twod c)) ++
      ((twod.cell .tri).validCells.flatMap (fun c =>
        triItems twod.node.n nPlanes faceid1 faceid2 ((twod.cell .tri).c2n c)) ++
      (twod.cell .qua).validCells.flatMap (fun c =>
        quaItems twod.node.n nPlanes faceid1 faceid2 ((twod.cell .qua).c2n c)))) :
    Multiset (List Int))

theorem create_cellsInv (mem : RefGrid D) (rank : Nat) : (RefGrid.create mem rank).CellsInv :=
  ⟨fun _ => rfl, fun t => RefCell.create_inv (mem.cell t) t⟩

/-- The local parts of the extrusion. -/
theorem extrude_cells [RefPlaneDbl D] {mem g g' : RefGrid D} {maxFaceid : Int}
    (hsides : RefGrid.extrudeSides mem nPlanes twod = .ok g)
    (hcells : RefGrid.extrudeCells nPlanes twod maxFaceid g = .ok g') :
    Extruded twod nPlanes (maxFaceid + 1) (maxFaceid + 2) g' ∧ g'.node = g.node ∧
      RefGrid.extrudeNodes twod.node nPlanes (RefNode.create mem.node twod.node.rank) =
        .ok g.node := by
  rw [RefGrid.extrudeSides] at hsides
  simp only [bind_eq_ok] at hsides
  obtain ⟨node, hnode, hloop⟩ := hsides
  set start : RefGrid D := { RefGrid.create mem twod.node.rank with node := node } with hstart
  have hinv : start.CellsInv := ⟨(create_cellsInv mem twod.node.rank).type,
    (create_cellsInv mem twod.node.rank).inv⟩
  have h1 := adds_loop_ensures hinv (fun c _ g g' hg hrun => extrudeEdg_adds hg hrun) hloop
  rw [RefGrid.extrudeCells] at hcells
  split at hcells
  · cases hcells
  simp only [bind_eq_ok] at hcells
  obtain ⟨g2, htri, hqua⟩ := hcells
  have h2 := adds_loop h1.2.inv (fun c _ g g' hg hrun => extrudeTri_adds hg hrun) htri
  have h3 := adds_loop h2.inv (fun c _ g g' hg hrun => extrudeQua_adds hg hrun) hqua
  have hall := h1.2.trans (h2.trans h3)
  have hempty : ∀ t, (start.cell t).cells = 0 := fun t => RefCell.cells_create (mem.cell t) t
  refine ⟨⟨hall.inv, h1.1, fun t => ?_⟩, hall.node.trans h1.2.node.symm, ?_⟩
  · rw [hall.cells, hempty, zero_add]
  · rw [h1.2.node]
    exact hnode

/-! ## Runs -/

/-- The maximum over the ranks. -/
def maxOfRanks (p : Nat) (x : Nat → Int) : Int := combined intMax x (p - 1)

theorem mpiMaxInt_run {p : Nat} (hp : 0 < p) (x : Nat → Int) :
    ∃ y : Nat → Int, y 0 = maxOfRanks p x ∧
      Runs p (fun r => (mpiMaxInt p (x r) : RankProg D Int)) y :=
  ⟨_, if_pos ⟨rfl, Nat.one_pos⟩,
    (mpiSum_run hp .int intMax 1 (fun r _ => x r) fun r _ => x r).bind (.ret fun _ _ => rfl)⟩

/-- A run of the extrusion. -/
theorem extrudeTwod_runs_iff [RefPlaneDbl D] {p : Nat} (hp : 0 < p) {mem twod out : Nat → RefGrid D}
    {nPlanes : Nat} :
    Runs p (fun r => RefGrid.extrudeTwod p (mem r) true nPlanes (twod r)) out ↔
      ∃ g : Nat → RefGrid D,
        (∀ r, r < p → RefGrid.extrudeSides (mem r) nPlanes (twod r) = .ok (g r)) ∧
        ∀ r, r < p → RefGrid.extrudeCells nPlanes (twod r)
          (maxOfRanks p fun q => (twod q).maxFaceid) (g r) = .ok (out r) := by
  refine (runs_lift_bind_iff hp).trans (exists_congr fun g => and_congr_right fun _ => ?_)
  obtain ⟨y, hy, hmax⟩ := mpiMaxInt_run (D := D) hp fun q => (twod q).maxFaceid
  rw [Runs.bind_iff hp hmax, Runs.bind_iff hp (bcastInt_run hp y), runs_lift_iff hp, hy]

end RefineMesh
