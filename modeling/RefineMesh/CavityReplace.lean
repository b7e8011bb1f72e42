import Mathlib.Tactic
import RefineMesh.CavityGrowth
import RefineMesh.ChainPeel
import RefineMesh.CollapseRuns

/-!
# Replacing a cavity

`ref_cavity_replace` joins the faces of a cavity to its node, and its segments
to the node on the surface, and removes the tets and the triangles of the
cavity.  The new tets are the cones over the faces, so that the boundary of the
mesh stays what it was.
-/

namespace RefineMesh

open SlotList Chains

variable {D : Type}

namespace RefCavity

section Model

variable (c : RefCavity)

/-- `ref_node_valid`. -/
def validNode (g : RefGrid D) (node : Int) : Bool := 0 ≤ node ∧ g.node.Live node.toNat

/-- One new cell: its nodes are valid and owned. -/
def addNew (g : RefGrid D) (nodePer : Nat) (s : RefCell) (nodes : Nat → Int) :
    Except Status RefCell :=
  if ¬ (List.range nodePer).all fun i => validNode g (nodes i) && owned g (nodes i) then
    .error .failure
  else do
    let added ← s.add nodes
    .ok added.1

/-- One cell of the cavity goes away; its nodes are listed. -/
def removeOld (g : RefGrid D) (nodePer : Nat) (r : RefCell × List Int) (cell : Nat) :
    Except Status (RefCell × List Int) := do
  let nodes ← r.1.nodes cell
  let list := (List.range nodePer).map nodes
  if ¬ list.all fun node => validNode g node && owned g node then .error .failure
  else do
    let s ← r.1.remove cell
    .ok (s, r.2 ++ list)

/-- The loop of `ref_cavity_replace` over the nodes of the removed cells: what
has no cell any more loses its geometry and goes away. -/
def removeUnused (fuel : Nat) : List Int → RefGrid D → Option (Except Status (RefGrid D))
  | [], g => some (.ok g)
  | node :: rest, g =>
      if ¬ validNode g node then removeUnused fuel rest g
      else
        let noTri : Bool := (g.cell .tri).adj.firstItem node = refEmpty
        let noTet : Bool := (g.cell .tet).adj.firstItem node = refEmpty
        andThen (if noTri then g.geom.removeAll node fuel else some (.ok g.geom)) fun geom =>
        let g := { g with geom := geom }
        andThen (some (if noTri && noTet then removeNode g.node node else .ok g.node)) fun store =>
        removeUnused fuel rest { g with node := store }

/-- The edge between `split_node0` and `split_node1` is split at the node. -/
def replaceSplitEdg (s : RefCell) : Except Status RefCell :=
  if c.splitNode0 ≠ refEmpty ∧ c.splitNode1 ≠ refEmpty then
    match s.cellWith (nodeRow c.splitNode0 c.splitNode1 0) with
    | .error .notFound => .ok s
    | .error status => .error status
    | .ok cell => do
        let nodes ← s.nodes cell
        let s ← s.remove cell
        let added ← s.add fun i =>
          if i = 0 then c.splitNode0 else if i = 1 then c.segNode else nodes i
        let added ← added.1.add fun i =>
          if i = 0 then c.segNode else if i = 1 then c.splitNode1 else nodes i
        .ok added.1
  else .ok s

/-- The edge between `collapse_node0` and `collapse_node1` is collapsed. -/
def replaceCollapseEdg (fuel : Nat) (s : RefCell) : Option (Except Status RefCell) :=
  if c.collapseNode0 ≠ refEmpty ∧ c.collapseNode1 ≠ refEmpty then
    match s.cellWith (nodeRow c.collapseNode0 c.collapseNode1 0) with
    | .error .notFound => some (.ok s)
    | .error status => some (.error status)
    | .ok cell =>
        andThen (some (s.remove cell)) fun s =>
        s.replaceNode c.collapseNode1 c.collapseNode0 fuel
  else some (.ok s)

/-- The self checks at the end: the tets of the node have valid nodes, and every
valid node of the removed cells has a cell. -/
def replaceCheck (shell : Bool) (removed : List Int) (g : RefGrid D) : Except Status Unit := do
  ((g.cell .tet).having c.node).foldlM (fun _ cell => do
    let nodes ← (g.cell .tet).nodes cell
    if ¬ (List.range 4).all fun i => validNode g (nodes i) then .error .failure else .ok ()) ()
  let s := if shell then g.cell .tri else g.cell .tet
  if ¬ removed.all fun node => ¬ validNode g node ∨ s.adj.firstItem node ≠ refEmpty then
    .error .failure
  else .ok ()

/-- The part of `ref_cavity_replace` that changes the tets and the triangles;
the second result lists the nodes of the removed ones. -/
def replaceCells (g : RefGrid D) : Except Status (RefGrid D × List Int) := do
  let tet ← c.newTets.foldlM (addNew g 4) (g.cell .tet)
  let tri ← c.newTris.foldlM (addNew g 3) (g.cell .tri)
  let tet ← c.tetList.foldlM (removeOld g 4) (tet, [])
  let tri ← c.triList.foldlM (removeOld g 3) (tri, [])
  .ok ((g.setCell .tet tet.1).setCell .tri tri.1, tet.2 ++ tri.2)

/-- The checks at the start of `ref_cavity_replace`. -/
def replaceReady : Except Status Unit := do
  if c.state ≠ .visible then .error .failure
  else do
    let c ← c.verifyFaceManifold
    let c ← c.verifySegManifold
    if c.state ≠ .visible then .error .failure
    else if c.segs.n = 0 ∧ c.faces.n = 0 ∧ c.triList = [] ∧ c.tetList = [] then .error .failure
    else .ok ()

/-- `ref_cavity_replace`; `shell` is `ref_grid_twod || ref_grid_surf`. -/
def replace (shell : Bool) (g : RefGrid D) (fuel : Nat) : Option (Except Status (RefGrid D)) :=
  andThen (some c.replaceReady) fun _ =>
  andThen (some (c.replaceCells g)) fun replaced =>
  andThen (removeUnused fuel replaced.2 replaced.1) fun g =>
  andThen (some (c.replaceSplitEdg (g.cell .edg))) fun edg =>
  let g := g.setCell .edg edg
  andThen (c.replaceCollapseEdg fuel (g.cell .edg)) fun edg =>
  let g := g.setCell .edg edg
  andThen (some (c.replaceCheck shell replaced.2 g)) fun _ =>
  some (.ok g)

end Model

variable {g g' : RefGrid D} {c : RefCavity}

/-! ## The cells that are replaced -/

theorem addNew_ok {nodePer : Nat} {s s' : RefCell} {nodes : Nat → Int}
    (hrun : addNew g nodePer s nodes = .ok s') : ∃ cell, s.add nodes = .ok (s', cell) := by
  rw [addNew] at hrun
  split at hrun
  · cases hrun
  · obtain ⟨added, hadd, hrest⟩ := bind_eq_ok.mp hrun
    rw [← Except.ok.inj hrest]
    exact ⟨added.2, hadd⟩

/-- New cells are new rows. -/
theorem addNew_loop {nodePer : Nat} {s s1 s' : RefCell} {l : List (Nat → Int)}
    {gone : List Nat} {fresh : Multiset (List Int)} (h : RefCell.Replaced s s1 gone fresh)
    (hrun : l.foldlM (addNew g nodePer) s1 = .ok s') :
    RefCell.Replaced s s' gone
      ((l.map fun nodes => (List.range s.sizePer).map nodes : Multiset (List Int)) + fresh) := by
  induction l generalizing s1 fresh with
  | nil =>
      obtain rfl : s1 = s' := Except.ok.inj hrun
      simpa using h
  | cons nodes rest ih =>
      rw [List.foldlM_cons, bind_eq_ok] at hrun
      obtain ⟨s2, hadd, hrest⟩ := hrun
      obtain ⟨cell, hadd⟩ := addNew_ok hadd
      have hall := ih (h.add hadd) hrest
      rw [List.map_cons, ← Multiset.cons_coe, Multiset.cons_add, ← Multiset.add_cons]
      exact hall

/-- The loop over the cells of the cavity removes them. -/
theorem removeOld_loop {nodePer : Nat} {r r' : RefCell × List Int} {l : List Nat}
    (hrun : l.foldlM (removeOld g nodePer) r = .ok r') :
    l.foldlM RefCell.remove r.1 = .ok r'.1 := by
  induction l generalizing r with
  | nil =>
      obtain rfl : r = r' := Except.ok.inj hrun
      rfl
  | cons cell rest ih =>
      rw [List.foldlM_cons, bind_eq_ok] at hrun
      obtain ⟨r1, hone, hrest⟩ := hrun
      obtain ⟨nodes, -, hone⟩ := bind_eq_ok.mp hone
      dsimp only at hone
      split at hone
      · cases hone
      · obtain ⟨s1, hremove, hone⟩ := bind_eq_ok.mp hone
        obtain rfl := Except.ok.inj hone
        rw [List.foldlM_cons, bind_eq_ok]
        exact ⟨s1, hremove, ih hrest⟩

/-- Removing cells that are still there. -/
theorem replaced_removeAll {s s1 s' : RefCell} {l gone : List Nat}
    {fresh : Multiset (List Int)} (h : RefCell.Replaced s s1 gone fresh) (hnodup : l.Nodup)
    (hlive : ∀ cell ∈ l, s.Live cell ∧ cell ∉ gone)
    (hrun : l.foldlM RefCell.remove s1 = .ok s') :
    RefCell.Replaced s s' (l.reverse ++ gone) fresh := by
  induction l generalizing s1 gone with
  | nil =>
      obtain rfl : s1 = s' := Except.ok.inj hrun
      exact h
  | cons cell rest ih =>
      rw [List.foldlM_cons, bind_eq_ok] at hrun
      obtain ⟨s2, hremove, hrest⟩ := hrun
      obtain ⟨hcell, hnot⟩ := hlive cell List.mem_cons_self
      obtain ⟨s2', hremove', h2⟩ := h.remove hcell hnot
      obtain rfl : s2' = s2 := Except.ok.inj (hremove'.symm.trans hremove)
      obtain ⟨hfresh, hnodup'⟩ := List.nodup_cons.mp hnodup
      have hall := ih h2 hnodup' (fun other hother => by
        obtain ⟨hl, hg⟩ := hlive other (List.mem_cons_of_mem cell hother)
        refine ⟨hl, ?_⟩
        rw [List.mem_cons, not_or]
        exact ⟨fun e => hfresh (e ▸ hother), hg⟩) hrest
      rw [List.reverse_cons, List.append_assoc, List.singleton_append]
      exact hall

/-! ## What else changes -/

/-- Nodes and geometry may go away, cells stay. -/
theorem removeUnused_cell {fuel : Nat} {l : List Int}
    (hrun : removeUnused fuel l g = some (.ok g')) : g'.cell = g.cell := by
  induction l generalizing g with
  | nil =>
      obtain rfl := Except.ok.inj (Option.some.inj hrun)
      rfl
  | cons node rest ih =>
      rw [removeUnused] at hrun
      split at hrun
      · exact ih hrun
      · obtain ⟨geom, -, hrun⟩ := andThen_eq_ok.mp hrun
        obtain ⟨store, -, hrun⟩ := andThen_eq_ok.mp hrun
        exact ih (g := { node := store, cell := g.cell, geom := geom }) hrun

/-- The tets and the triangles after the replacement. -/
theorem replace_cells {shell : Bool} {fuel : Nat} (hrun : c.replace shell g fuel = some (.ok g')) :
    ∃ tet1 tet2 tri1 tri2,
      c.newTets.foldlM (addNew g 4) (g.cell .tet) = .ok tet1 ∧
      c.tetList.foldlM RefCell.remove tet1 = .ok tet2 ∧
      c.newTris.foldlM (addNew g 3) (g.cell .tri) = .ok tri1 ∧
      c.triList.foldlM RefCell.remove tri1 = .ok tri2 ∧
      g'.cell .tet = tet2 ∧ g'.cell .tri = tri2 := by
  obtain ⟨-, -, hrun⟩ := andThen_eq_ok.mp hrun
  obtain ⟨⟨g1, removed⟩, hcells, hrun⟩ := andThen_eq_ok.mp hrun
  obtain ⟨g2, hunused, hrun⟩ := andThen_eq_ok.mp hrun
  obtain ⟨edg1, -, hrun⟩ := andThen_eq_ok.mp hrun
  obtain ⟨edg2, -, hrun⟩ := andThen_eq_ok.mp hrun
  obtain ⟨-, -, hrun⟩ := andThen_eq_ok.mp hrun
  obtain rfl := Except.ok.inj (Option.some.inj hrun)
  rw [Option.some.injEq, replaceCells] at hcells
  obtain ⟨tet1, htet1, hcells⟩ := bind_eq_ok.mp hcells
  obtain ⟨tri1, htri1, hcells⟩ := bind_eq_ok.mp hcells
  obtain ⟨tet2, htet2, hcells⟩ := bind_eq_ok.mp hcells
  obtain ⟨tri2, htri2, hcells⟩ := bind_eq_ok.mp hcells
  rw [Except.ok.injEq, Prod.mk.injEq] at hcells
  obtain ⟨rfl, -⟩ := hcells
  have hcell2 := removeUnused_cell hunused
  refine ⟨tet1, tet2.1, tri1, tri2.1, htet1, removeOld_loop htet2, htri1, removeOld_loop htri2,
    ?_, ?_⟩
  · rw [RefGrid.setCell_cell_of_ne _ _ (by decide), RefGrid.setCell_cell_of_ne _ _ (by decide),
      hcell2, RefGrid.setCell_cell_of_ne _ _ (by decide), RefGrid.setCell_cell_self]
  · rw [RefGrid.setCell_cell_of_ne _ _ (by decide), RefGrid.setCell_cell_of_ne _ _ (by decide),
      hcell2, RefGrid.setCell_cell_self]

/-! ## The tets afterwards -/

/-- The faces that do not have the node. -/
def apart (c : RefCavity) : Multiset (Tri Int) :=
  c.faces.rows.filter fun f => c.node ∉ Tri.corners f

theorem attached_iff {face : Nat} :
    (c.node = c.f2n face 0 ∨ c.node = c.f2n face 1 ∨ c.node = c.f2n face 2) ↔
      c.node ∈ Tri.corners (c.faces.row face) := by
  simp [CavityRows.row, Tri.corners, f2n]

/-- The new tets are the cones over the faces that do not have the node. -/
theorem map_newTets (c : RefCavity) :
    (c.newTets.map fun nodes => tetOf ((List.range 4).map nodes) : Multiset (Tet Int)) =
      c.apart.map (cone c.node) := by
  rw [newTets, List.map_map, apart, CavityRows.rows, Multiset.filter_coe, Multiset.map_coe,
    List.filter_map, List.map_map]
  congr 1
  have hfilter : (c.faces.valid.filter fun face =>
      ¬ (c.node = c.f2n face 0 ∨ c.node = c.f2n face 1 ∨ c.node = c.f2n face 2)) =
        c.faces.valid.filter ((fun f => decide (c.node ∉ Tri.corners f)) ∘ c.faces.row) := by
    apply List.filter_congr
    intro face _
    simp only [Function.comp_apply, attached_iff]
  rw [hfilter]
  rfl

/-- The tets of a cavity are some of the tets of the grid. -/
theorem FaceInv.tets_le (h : FaceInv g c) : c.tets g ≤ g.tets := by
  rw [tets, RefGrid.tets, RefCell.cells, Multiset.map_coe, List.map_map]
  rw [← Multiset.map_coe, ← Multiset.map_coe]
  apply Multiset.map_le_map
  rw [Multiset.le_iff_subset (Multiset.coe_nodup.mpr h.nodup)]
  intro tet htet
  exact Multiset.mem_coe.mpr (RefCell.mem_validCells.mpr (h.live tet (Multiset.mem_coe.mp htet)))

/-- What the replacement makes of the tets. -/
theorem replace_tets (hinv : g.CellsInv) (h : FaceInv g c) {shell : Bool} {fuel : Nat}
    (hrun : c.replace shell g fuel = some (.ok g')) :
    (∀ tet ∈ c.tetList, ¬ (g'.cell .tet).Live tet) ∧
      (∀ tet, (g.cell .tet).Live tet → tet ∉ c.tetList →
        (g'.cell .tet).Live tet ∧ (g'.cell .tet).c2n tet = (g.cell .tet).c2n tet) ∧
      g'.tets + c.tets g = g.tets + c.apart.map (cone c.node) := by
  obtain ⟨tet1, tet2, -, -, hadd, hremove, -, -, rfl, -⟩ := replace_cells hrun
  have hsize : (g.cell .tet).sizePer = 4 := by rw [RefCell.sizePer, hinv.type .tet]; rfl
  have hadded := addNew_loop (RefCell.Replaced.refl (hinv.inv .tet)) hadd
  have hall := replaced_removeAll hadded h.nodup (fun tet htet => ⟨h.live tet htet, by simp⟩)
    hremove
  have hlive1 : ∀ tet ∈ c.tetList, tet1.Live tet := fun tet htet =>
    (hadded.keeps tet (h.live tet htet) (by simp)).1
  obtain ⟨-, -, hlive2, -⟩ := removeAll_spec hadded.inv h.nodup hlive1 hremove
  refine ⟨?_, ?_, ?_⟩
  · intro tet htet hlive
    exact ((hlive2 tet).mp hlive).2 htet
  · intro tet hlive hnot
    exact hall.keeps tet hlive (by simpa using hnot)
  · have hcells := congrArg (Multiset.map tetOf) hall.cells
    simp only [Multiset.map_add, hsize, add_zero, List.append_nil] at hcells
    have hfresh : (c.newTets.map fun nodes => (List.range 4).map nodes :
        Multiset (List Int)).map tetOf = c.apart.map (cone c.node) := by
      rw [← map_newTets, Multiset.map_coe, List.map_map]
      rfl
    have hold : (c.tetList.reverse.map (g.cell .tet).cellRow : Multiset (List Int)).map tetOf =
        c.tets g := by
      rw [Multiset.map_coe, List.map_map, tets, List.map_reverse, Multiset.coe_reverse]
      rfl
    rw [← hfresh, ← hold]
    exact hcells

/-- **`ref_cavity_replace`** keeps the boundary of the tets: those of the
cavity are gone, every other one is where it was, and each face that does not
have the node has its cone. -/
theorem replace_keeps_boundary (hinv : g.CellsInv) (h : FaceInv g c) {shell : Bool} {fuel : Nat}
    (hrun : c.replace shell g fuel = some (.ok g')) :
    boundary g'.tets = boundary g.tets ∧
      (∀ tet ∈ c.tetList, ¬ (g'.cell .tet).Live tet) ∧
      (∀ tet, (g.cell .tet).Live tet → tet ∉ c.tetList →
        (g'.cell .tet).Live tet ∧ (g'.cell .tet).c2n tet = (g.cell .tet).c2n tet) ∧
      g'.tets + c.tets g = g.tets + c.apart.map (cone c.node) ∧
      (FaceOnce g.tets → ∀ f ∈ c.apart, g'.tets.count (cone c.node f) = 1 ∧
        multiplicity (g'.tets.bind Chains.faces) f.1 f.2.1 f.2.2 = 1) := by
  obtain ⟨hgone, hkeeps, htets⟩ := replace_tets hinv h hrun
  refine ⟨?_, hgone, hkeeps, htets, ?_⟩
  · have hboundary := congrArg boundary htets
    rw [boundary_add, boundary_add, apart, boundary_cones_apart c.node h.boundary,
      h.boundary] at hboundary
    exact add_right_cancel hboundary
  · intro honce f happart
    obtain ⟨hf, hoff⟩ := Multiset.mem_filter.mp happart
    obtain ⟨rest, hrest⟩ := Multiset.le_iff_exists_add.mp h.tets_le
    have hafter : g'.tets = rest + c.apart.map (cone c.node) := by
      rw [hrest, add_comm, add_assoc] at htets
      exact add_left_cancel htets
    obtain ⟨x, y, z⟩ := f
    -- behind the face is a tet of the cavity, so that no other tet has this face
    have hface : multiplicity c.faces.rows x y z = 1 := by
      have hpos : 0 < c.faces.rows.count (x, y, z) := Multiset.count_pos.mpr hf
      have hone := h.reduced x y z
      simp only [Chains.multiplicity] at hone ⊢
      omega
    have hbehind : 0 < multiplicity ((c.tets g).bind Chains.faces) x y z := by
      have hunshared := h.reduced.unshared h.boundary x y z
      omega
    have hnone : multiplicity (rest.bind Chains.faces) x y z = 0 := by
      have htotal := honce x y z
      rw [hrest, Multiset.add_bind] at htotal
      simp only [Chains.multiplicity, Multiset.count_add] at htotal hbehind ⊢
      omega
    rw [hafter]
    constructor
    · have houtside : rest.count (cone c.node (x, y, z)) = 0 := by
        rw [Multiset.count_eq_zero]
        intro hmem
        have hin : (x, y, z) ∈ rest.bind Chains.faces :=
          Multiset.mem_bind.mpr ⟨_, hmem, by simp [Chains.faces, cone]⟩
        exact (Chains.multiplicity_eq_zero.mp hnone).1 hin
      have hinj : Function.Injective (cone c.node) := by
        intro f f' heq
        simp only [cone, Prod.mk.injEq, and_true] at heq
        exact Prod.ext heq.1 (Prod.ext heq.2.1 heq.2.2)
      rw [Multiset.count_add, houtside, zero_add, Multiset.count_map_eq_count' _ _ hinj, apart,
        Multiset.count_filter_of_pos (p := fun f => c.node ∉ Tri.corners f) hoff]
      have hpos : 0 < c.faces.rows.count (x, y, z) := Multiset.count_pos.mpr hf
      simp only [Chains.multiplicity] at hface
      omega
    · have hsplit : multiplicity ((rest + c.apart.map (cone c.node)).bind Chains.faces) x y z =
          multiplicity (rest.bind Chains.faces) x y z +
            multiplicity ((c.apart.map (cone c.node)).bind Chains.faces) x y z := by
        rw [Multiset.add_bind]
        simp only [Chains.multiplicity, Multiset.count_add]
        omega
      rw [hsplit, hnone, zero_add, multiplicity_cones hoff, ← hface]
      have hrotate : c.node ∉ Tri.corners (y, z, x) ∧ c.node ∉ Tri.corners (z, x, y) := by
        simp only [Tri.corners, List.mem_cons, List.not_mem_nil, or_false, not_or] at hoff ⊢
        tauto
      simp only [Chains.multiplicity, apart]
      rw [Multiset.count_filter_of_pos (p := fun f => c.node ∉ Tri.corners f) hoff,
        Multiset.count_filter_of_pos (p := fun f => c.node ∉ Tri.corners f) hrotate.1,
        Multiset.count_filter_of_pos (p := fun f => c.node ∉ Tri.corners f) hrotate.2]

theorem FaceInv.visible (h : FaceInv g c) : FaceInv g { c with state := .visible } :=
  ⟨h.slots, h.live, h.nodup, h.reduced, h.boundary⟩

/-- Two tets on one face become three around an edge. -/
theorem replace_keeps_boundary_pair :
    ∃ c g', FaceInv pairGrid c ∧ c.tetList = [0, 1] ∧
      c.replace false pairGrid 1 = some (.ok g') ∧ boundary g'.tets = boundary pairGrid.tets ∧
        ∀ f ∈ c.apart, g'.tets.count (cone c.node f) = 1 := by
  obtain ⟨r, hrun, hr⟩ := exists_ok_of_map
    (x := do
      let c ← (formEmpty 4).addTet pairGrid 0
      let c' ← c.enlargeFace pairGrid 3
      .ok (c, c'))
    (f := fun r : RefCavity × RefCavity => (r.1.state, r.2.state, r.2.tetList,
      ended ({ r.2 with state := .visible }.replace false pairGrid 1)))
    (b := (.unknown, .unknown, [0, 1], true)) (by decide +kernel)
  obtain ⟨c, hadd, hrun⟩ := bind_eq_ok.mp hrun
  obtain ⟨c', henlarge, hrun⟩ := bind_eq_ok.mp hrun
  obtain rfl := Except.ok.inj hrun
  simp only [Prod.mk.injEq] at hr
  obtain ⟨hstate, hstate', hlist, hends⟩ := hr
  obtain ⟨g', hreplace⟩ := exists_ok_of_ended hends
  have hgrown := Grown.enlargeFace (Grown.addTet Grown.empty hadd hstate) henlarge hstate'
  have hface := (hgrown.faceInv pairGrid_inv pairGrid_simple_tets).visible
  obtain ⟨hboundary, -, -, -, honce⟩ := replace_keeps_boundary pairGrid_inv hface hreplace
  refine ⟨{ c' with state := .visible }, g', hface, hlist, hreplace, hboundary, ?_⟩
  intro f hf
  have htets : pairGrid.tets = ((pairRows .tet).map tetOf : Multiset (Tet Int)) := by
    rw [RefGrid.tets, pairGrid, RefGrid.cells_ofRows (pairRows_fit .tet), Multiset.map_coe]
  exact (honce (htets ▸ show FaceOnce ((pairRows .tet).map tetOf : Multiset (Tet Int)) by
    decide +kernel) f hf).1

end RefCavity

end RefineMesh
