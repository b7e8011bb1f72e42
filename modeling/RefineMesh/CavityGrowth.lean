import Mathlib.Tactic
import RefineMesh.CavitySegs

/-!
# Growing cavities

Cavities that grow from the empty one by tets keep their faces the boundary of
their tets.  Each enlargement takes one cell from those outside, so that the
loops that enlarge come to an end, whatever the geometry answers.
-/

namespace RefineMesh

open SlotList Chains

variable {D : Type} {g : RefGrid D}

namespace RefCavity

variable {c c' : RefCavity}

/-! ## The verification -/

theorem hasSideOn_iff {a b : Int} {face : Nat} :
    c.hasSideOn a b face = true ↔ (a, b) ∈ sides (c.faces.row face) := by
  rw [hasSideOn, decide_eq_true_eq]
  simp [sides, CavityRows.row, f2n]

/-- The sides of the faces go both ways equally often. -/
theorem FaceInv.count_sides (h : FaceInv g c) (a b : Int) :
    (c.faces.rows.bind sides).count (a, b) = (c.faces.rows.bind sides).count (b, a) := by
  have hclosed := congrFun (edgeChain_sides_of_boundary h.boundary) (a, b)
  rw [edgeChain_apply, Pi.zero_apply] at hclosed
  omega

/-- Every side of a face is the reversed side of some face. -/
theorem FaceInv.exists_side (h : FaceInv g c) {a b : Int} {face : Nat} (hlive : c.faces.Live face)
    (hside : (a, b) ∈ sides (c.faces.row face)) :
    ∃ other, c.faces.Live other ∧ c.hasSideOn b a other = true := by
  have hmem : (a, b) ∈ c.faces.rows.bind sides :=
    Multiset.mem_bind.mpr ⟨_, CavityRows.mem_rows.mpr ⟨face, hlive, rfl⟩, hside⟩
  have hpos : 0 < (c.faces.rows.bind sides).count (b, a) := by
    rw [h.count_sides b a]
    exact Multiset.count_pos.mpr hmem
  obtain ⟨f, hf, hin⟩ := Multiset.mem_bind.mp (Multiset.count_pos.mp hpos)
  obtain ⟨other, hother, rfl⟩ := CavityRows.mem_rows.mp hf
  exact ⟨other, hother, hasSideOn_iff.mpr hin⟩

/-- A side that is there lets the verification go on, or makes the cavity
inconsistent when it is there twice. -/
theorem verifySide_spec (hstate : c.state ≠ .inconsistent) {a b : Int}
    (hside : ∃ face, c.faces.Live face ∧ c.hasSideOn a b face = true) :
    c.verifySide a b = .ok (c, true) ∨
      c.verifySide a b = .ok ({ c with state := .inconsistent }, false) := by
  obtain ⟨face, hlive, hhas⟩ := hside
  have hmem : face ∈ c.faces.valid.filter fun face => c.hasSideOn a b face :=
    List.mem_filter.mpr ⟨CavityRows.mem_valid.mpr hlive, hhas⟩
  match hfound : c.faces.valid.filter fun face => c.hasSideOn a b face with
  | [] =>
      rw [hfound] at hmem
      cases hmem
  | [first] =>
      left
      simp [verifySide, findFaceWithSide, hfound, hstate]
  | first :: second :: rest =>
      right
      simp [verifySide, findFaceWithSide, hfound]

/-- The loop over faces whose sides are all matched. -/
theorem verifyFaces_spec (hstate : c.state ≠ .inconsistent) {l : List Nat}
    (hsides : ∀ face ∈ l, ∀ a b, (a, b) ∈ sides (c.faces.row face) →
      ∃ other, c.faces.Live other ∧ c.hasSideOn b a other = true) :
    verifyFaces l c = .ok c ∨ verifyFaces l c = .ok { c with state := .inconsistent } := by
  induction l with
  | nil => exact Or.inl rfl
  | cons face rest ih =>
      have hface := hsides face List.mem_cons_self
      have hrest := ih fun face hface => hsides face (List.mem_cons_of_mem _ hface)
      have h01 := verifySide_spec hstate
        (hface (c.f2n face 0) (c.f2n face 1) (by simp [sides, CavityRows.row, f2n]))
      have h12 := verifySide_spec hstate
        (hface (c.f2n face 1) (c.f2n face 2) (by simp [sides, CavityRows.row, f2n]))
      have h20 := verifySide_spec hstate
        (hface (c.f2n face 2) (c.f2n face 0) (by simp [sides, CavityRows.row, f2n]))
      rcases h01 with h01 | h01
      · rcases h12 with h12 | h12
        · rcases h20 with h20 | h20
          · simpa [verifyFaces, h01, h12, h20, bind, Except.bind] using hrest
          · right
            simp [verifyFaces, h01, h12, h20, bind, Except.bind]
        · right
          simp [verifyFaces, h01, h12, bind, Except.bind]
      · right
        simp [verifyFaces, h01, bind, Except.bind]

/-- **`ref_cavity_verify_face_manifold`** misses no side of a boundary. -/
theorem FaceInv.verify (h : FaceInv g c) :
    c.verifyFaceManifold = .ok c ∨
      c.verifyFaceManifold = .ok { c with state := .inconsistent } := by
  rw [verifyFaceManifold]
  by_cases hstate : c.state = .inconsistent
  · rw [if_pos hstate]
    exact Or.inl rfl
  · rw [if_neg hstate]
    apply verifyFaces_spec hstate
    intro face hface a b hside
    exact h.exists_side (CavityRows.mem_valid.mp hface) hside

/-! ## Cavities of tets -/

/-- The cavities that the calls of `ref_cavity_add_tet` and
`ref_cavity_enlarge_face` make of an empty one, as long as they succeed and
leave the state unknown. -/
inductive Grown (g : RefGrid D) (node : Int) : RefCavity → Prop
  | empty : Grown g node (formEmpty node)
  | addTet {c c' : RefCavity} {tet : Nat} (h : Grown g node c) (hrun : c.addTet g tet = .ok c')
      (hstate : c'.state = .unknown) : Grown g node c'
  | enlargeFace {c c' : RefCavity} {face : Nat} (h : Grown g node c)
      (hrun : c.enlargeFace g face = .ok c') (hstate : c'.state = .unknown) : Grown g node c'

theorem Grown.faceInv (hinv : g.CellsInv) (hsimple : (g.cell .tet).Simple) {node : Int}
    (hgrown : Grown g node c) : FaceInv g c := by
  induction hgrown with
  | empty => exact formEmpty_faceInv g node
  | @addTet c c' tet _ hrun hstate ih =>
      by_cases hmem : tet ∈ c.tetList
      · rw [addTet_of_mem hmem hrun]
        exact ih
      · exact (addTet_spec hinv hsimple ih hmem hrun hstate).2.2.1
  | enlargeFace _ hrun hstate ih =>
      obtain ⟨_, _, _, _, hinv', _⟩ := enlargeFace_spec hinv hsimple ih hrun hstate
      exact hinv'

/-- **The faces of a cavity** that grew from an empty one are the unshared faces
of its tets, none of them twice, in an array whose blank list has the other
slots.  Each side of a face is matched, so that the verification never misses
one. -/
theorem cavity_faces_bound (hinv : g.CellsInv) (hsimple : (g.cell .tet).Simple) {node : Int}
    (hgrown : Grown g node c) :
    (c.tetList.Nodup ∧ ∀ tet ∈ c.tetList, (g.cell .tet).Live tet) ∧
      Unshared (c.tets g) c.faces.rows ∧
      (∀ n0 n1 n2, multiplicity c.faces.rows n0 n1 n2 ≤ 1) ∧
      c.faces.n = c.faces.valid.length ∧
      FreeList plainLink refEmpty (fun slot => c.faces.entry slot 1) c.faces.blank
        (fun slot => slot < c.faces.max ∧ ¬ c.faces.Live slot) ∧
      (∀ n0 n1, (c.faces.rows.bind sides).count (n0, n1) =
        (c.faces.rows.bind sides).count (n1, n0)) ∧
      (c.verifyFaceManifold = .ok c ∨
        c.verifyFaceManifold = .ok { c with state := .inconsistent }) := by
  have h := hgrown.faceInv hinv hsimple
  refine ⟨⟨h.nodup, h.live⟩, h.reduced.unshared h.boundary, ?_, ?_, h.slots.blank,
    h.count_sides, h.verify⟩
  · intro n0 n1 n2
    have hone := h.reduced n0 n1 n2
    omega
  · have hcard := h.slots.card_rows
    rw [CavityRows.rows, Multiset.coe_card, List.length_map] at hcard
    exact hcard.symm

/-- Two tets on one face and the triangles around them. -/
def pairRows : CellType → List (List Int)
  | .tet => [[0, 1, 2, 3], [0, 2, 1, 4]]
  | .tri => [[1, 3, 2, 7], [0, 2, 3, 7], [0, 3, 1, 7], [2, 4, 1, 8], [0, 1, 4, 8], [0, 4, 2, 8]]
  | _ => []

/-- Five nodes of one part. -/
def fiveNodes : RefNode Int := (afterCalls ((List.range 5).map fun k => NodeCall.add k)).store

/-- The grid of the two tets. -/
def pairGrid : RefGrid Int := RefGrid.ofRows fiveNodes noGeom pairRows

theorem pairRows_fit (t : CellType) : RefCell.RowsFit t (pairRows t) := by
  cases t <;> exact of_decide_eq_true rfl

theorem pairGrid_inv : pairGrid.CellsInv := RefGrid.ofRows_inv pairRows_fit

theorem pairGrid_simple_tets : (pairGrid.cell .tet).Simple :=
  RefGrid.ofRows_simple (pairRows_fit .tet)
    (show ∀ row ∈ pairRows .tet, (row.take 4).Nodup by decide)

theorem pairGrid_simple_tris : (pairGrid.cell .tri).Simple :=
  RefGrid.ofRows_simple (pairRows_fit .tri)
    (show ∀ row ∈ pairRows .tri, (row.take 3).Nodup by decide)

/-- The first tet, and the second one over the face they share. -/
theorem exists_grown_pair :
    ∃ c c', Grown pairGrid 4 c ∧ c.tetList = [0] ∧ c.enlargeFace pairGrid 3 = .ok c' ∧
      c'.tetList = [0, 1] ∧ c'.state = .unknown := by
  obtain ⟨c', hrun, hc'⟩ := exists_ok_of_map
    (x := do
      let c ← (formEmpty 4).addTet pairGrid 0
      let c' ← c.enlargeFace pairGrid 3
      .ok (c, c'))
    (f := fun r : RefCavity × RefCavity => (r.1.state, r.1.tetList, r.2.state, r.2.tetList))
    (b := (.unknown, [0], .unknown, [0, 1])) (by decide +kernel)
  obtain ⟨c1, hadd, hrun⟩ := bind_eq_ok.mp hrun
  obtain ⟨c2, henlarge, hrun⟩ := bind_eq_ok.mp hrun
  obtain rfl := Except.ok.inj hrun
  simp only [Prod.mk.injEq] at hc'
  obtain ⟨hstate1, hlist1, hstate2, hlist2⟩ := hc'
  exact ⟨c1, c2, Grown.addTet Grown.empty hadd hstate1, hlist1, henlarge, hlist2, hstate2⟩

theorem cavity_faces_bound_pair :
    ∃ c, Grown pairGrid 4 c ∧ c.tetList = [0, 1] ∧ Unshared (c.tets pairGrid) c.faces.rows ∧
      c.faces.n = c.faces.valid.length := by
  obtain ⟨c, c', hgrown, -, hrun, hlist, hstate⟩ := exists_grown_pair
  have hgrown' := Grown.enlargeFace hgrown hrun hstate
  obtain ⟨-, hfaces, -, hcount, -⟩ :=
    cavity_faces_bound pairGrid_inv pairGrid_simple_tets hgrown'
  exact ⟨c', hgrown', hlist, hfaces, hcount⟩

/-! ## The loops -/

section Loop

variable {test : RefCavity → Nat → Except Status Bool} {size : RefCavity → Nat}
  {enlarge : RefCavity → Nat → Except Status RefCavity}

/-- The loops end within as many enlargements as a measure allows that every
enlargement lowers. -/
theorem growLoop_ends (measure : RefCavity → Nat) (Good : RefCavity → Prop)
    (hstep : ∀ c slot c', Good c → enlarge c slot = .ok c' → c'.state = .unknown →
      Good c' ∧ measure c' < measure c)
    {fuel first : Nat} {keepGrowing : Bool} {c : RefCavity} (hgood : Good c)
    (hfuel : measure c ≤ fuel) : growLoop test size enlarge fuel first keepGrowing c ≠ none := by
  induction fuel generalizing first keepGrowing c with
  | zero =>
      intro hnone
      rw [growLoop] at hnone
      split at hnone
      · cases hnone
      · cases hnone
      · split at hnone
        · cases hnone
        · rename_i slot _ _ c' henlarge
          split at hnone
          · cases hnone
          · rename_i hunknown
            rw [not_not] at hunknown
            have hlower := (hstep c slot c' hgood henlarge hunknown).2
            omega
  | succ fuel ih =>
      intro hnone
      rw [growLoop] at hnone
      split at hnone
      · cases hnone
      · cases hnone
      · split at hnone
        · cases hnone
        · rename_i slot _ _ c' henlarge
          split at hnone
          · cases hnone
          · rename_i hunknown
            rw [not_not] at hunknown
            obtain ⟨hgood', hlower⟩ := hstep c slot c' hgood henlarge hunknown
            exact ih hgood' (by omega) hnone

end Loop

/-- One cell fewer is outside. -/
theorem length_outside_append {cells list : List Nat} (hcells : cells.Nodup) {cell : Nat}
    (hmem : cell ∈ cells) (hnot : cell ∉ list) :
    (cells.filter fun other => other ∉ list ++ [cell]).length <
      (cells.filter fun other => other ∉ list).length := by
  have hperm : (cells.filter fun other => other ∉ list).Perm
      (cell :: cells.filter fun other => other ∉ list ++ [cell]) := by
    apply (List.perm_ext_iff_of_nodup (hcells.filter _) ?_).mpr
    · intro other
      by_cases hother : other = cell
      · simp [hother, hmem, hnot]
      · simp [hother]
    · apply List.nodup_cons.mpr
      refine ⟨?_, hcells.filter _⟩
      simp
  rw [hperm.length_eq, List.length_cons]
  exact Nat.lt_succ_self _

/-- The number of tets outside the cavity. -/
def outsideTets (g : RefGrid D) (c : RefCavity) : Nat :=
  ((g.cell .tet).validCells.filter fun tet => tet ∉ c.tetList).length

/-- The number of triangles outside the cavity. -/
def outsideTris (g : RefGrid D) (c : RefCavity) : Nat :=
  ((g.cell .tri).validCells.filter fun tri => tri ∉ c.triList).length

theorem FaceInv.inconsistent (h : FaceInv g c) : FaceInv g { c with state := .inconsistent } :=
  ⟨h.slots, h.live, h.nodup, h.reduced, h.boundary⟩

theorem SegInv.inconsistent (h : SegInv g c) : SegInv g { c with state := .inconsistent } :=
  ⟨h.slots, h.live, h.nodup, h.reduced, h.boundary⟩

/-- **`ref_cavity_enlarge_visible`** comes to its end. -/
theorem FaceInv.enlargeVisible_ends (hinv : g.CellsInv) (hsimple : (g.cell .tet).Simple)
    (h : FaceInv g c) (tests : Tests) : c.enlargeVisible tests g (outsideTets g c) ≠ none := by
  have hloop : ∀ start : RefCavity, FaceInv g start → start.tetList = c.tetList →
      growLoop (fun c => c.faceTest tests) (fun c => c.faces.max) (fun c => c.enlargeFace g)
        (outsideTets g c) 0 false start ≠ none := by
    intro start hstart hlist
    apply growLoop_ends (outsideTets g) (FaceInv g) ?_ hstart
    · rw [outsideTets, hlist, outsideTets]
    · intro c1 face c2 hgood henlarge hunknown
      obtain ⟨tet, hlive, hnot, -, hgood', hframe⟩ :=
        enlargeFace_spec hinv hsimple hgood henlarge hunknown
      refine ⟨hgood', ?_⟩
      rw [outsideTets, hframe]
      exact length_outside_append (g.cell .tet).nodup_validCells
        (RefCell.mem_validCells.mpr hlive) hnot
  intro hnone
  rw [enlargeVisible] at hnone
  split at hnone
  · cases hnone
  split at hnone
  · cases hnone
  split at hnone
  · cases hnone
  rename_i start hverify
  have hstart : FaceInv g start ∧ start.tetList = c.tetList := by
    rcases h.verify with hok | hok
    · obtain rfl := Except.ok.inj (hok.symm.trans hverify)
      exact ⟨h, rfl⟩
    · obtain rfl := Except.ok.inj (hok.symm.trans hverify)
      exact ⟨h.inconsistent, rfl⟩
  split at hnone
  · rename_i hgrow
    exact hloop start hstart.1 hstart.2 hgrow
  · cases hnone
  · cases hnone
  · cases hnone

theorem verifySegManifold_frame (hrun : c.verifySegManifold = .ok c') :
    c' = c ∨ c' = { c with state := .inconsistent } := by
  have hloop : ∀ l : List Nat, verifySegs l c = .ok c' →
      c' = c ∨ c' = { c with state := .inconsistent } := by
    intro l
    induction l with
    | nil =>
        intro hrun
        exact Or.inl (Except.ok.inj hrun).symm
    | cons seg rest ih =>
        intro hrun
        rw [verifySegs] at hrun
        split at hrun
        · cases hrun
        · exact ih hrun
        · exact Or.inr (Except.ok.inj hrun).symm
  rw [verifySegManifold] at hrun
  split at hrun
  · exact Or.inl (Except.ok.inj hrun).symm
  · exact hloop _ hrun

/-- **`ref_cavity_enlarge_conforming`** comes to its end. -/
theorem SegInv.enlargeConforming_ends (hinv : g.CellsInv) (hsimple : (g.cell .tri).Simple)
    (h : SegInv g c) (tests : Tests) : c.enlargeConforming tests g (outsideTris g c) ≠ none := by
  have hloop : ∀ start : RefCavity, SegInv g start → start.triList = c.triList →
      growLoop (fun c => c.segTest tests) (fun c => c.segs.max) (fun c => c.enlargeSeg g)
        (outsideTris g c) 0 false start ≠ none := by
    intro start hstart hlist
    apply growLoop_ends (outsideTris g) (SegInv g) ?_ hstart
    · rw [outsideTris, hlist, outsideTris]
    · intro c1 seg c2 hgood henlarge hunknown
      obtain ⟨tri, hlive, hnot, -, hgood', hlist'⟩ :=
        enlargeSeg_spec hinv hsimple hgood henlarge hunknown
      refine ⟨hgood', ?_⟩
      rw [outsideTris, hlist']
      exact length_outside_append (g.cell .tri).nodup_validCells
        (RefCell.mem_validCells.mpr hlive) hnot
  intro hnone
  rw [enlargeConforming] at hnone
  split at hnone
  · cases hnone
  split at hnone
  · cases hnone
  split at hnone
  · cases hnone
  split at hnone
  · cases hnone
  rename_i start hverify
  have hstart : SegInv g start ∧ start.triList = c.triList := by
    rcases verifySegManifold_frame hverify with rfl | rfl
    · exact ⟨h, rfl⟩
    · exact ⟨h.inconsistent, rfl⟩
  split at hnone
  · rename_i hgrow
    exact hloop start hstart.1 hstart.2 hgrow
  · cases hnone
  · cases hnone
  · cases hnone

/-- **Enlargements make progress.**  On a cavity whose faces bound its tets, an
enlargement over a face that leaves the state unknown adds exactly one tet and
keeps the faces the boundary, so that the loop ends within as many enlargements
as there are tets outside.  On a cavity whose segments bound its triangles, just
one of the two triangles at a segment is in the list, an enlargement over a
segment adds exactly one triangle, and that loop ends as well. -/
theorem cavity_enlargement (hinv : g.CellsInv) (c : RefCavity) (tests : Tests) :
    ((g.cell .tet).Simple → FaceInv g c →
      (∀ face c', c.enlargeFace g face = .ok c' → c'.state = .unknown →
        ∃ tet, (g.cell .tet).Live tet ∧ tet ∉ c.tetList ∧ c'.tetList = c.tetList ++ [tet] ∧
          FaceInv g c') ∧
      c.enlargeVisible tests g (outsideTets g c) ≠ none) ∧
    ((g.cell .tri).Simple → SegInv g c →
      (∀ seg tri0 tri1, c.segs.Live seg →
        (g.cell .tri).listWith2 (c.s2n seg 0) (c.s2n seg 1) 2 = .ok [tri0, tri1] →
          ¬ (tri0 ∈ c.triList ↔ tri1 ∈ c.triList)) ∧
      (∀ seg c', c.enlargeSeg g seg = .ok c' → c'.state = .unknown →
        ∃ tri, (g.cell .tri).Live tri ∧ tri ∉ c.triList ∧ c'.triList = c.triList ++ [tri] ∧
          SegInv g c') ∧
      c.enlargeConforming tests g (outsideTris g c) ≠ none) := by
  constructor
  · intro hsimple h
    refine ⟨?_, h.enlargeVisible_ends hinv hsimple tests⟩
    intro face c' hrun hstate
    obtain ⟨tet, hlive, hnot, -, hinv', hframe⟩ := enlargeFace_spec hinv hsimple h hrun hstate
    exact ⟨tet, hlive, hnot, by rw [hframe], hinv'⟩
  · intro hsimple h
    refine ⟨?_, ?_, h.enlargeConforming_ends hinv hsimple tests⟩
    · intro seg tri0 tri1 hlive htris
      have hone := h.one_side hinv hsimple hlive htris
      tauto
    · intro seg c' hrun hstate
      obtain ⟨tri, hlive, hnot, -, hinv', hlist⟩ := enlargeSeg_spec hinv hsimple h hrun hstate
      exact ⟨tri, hlive, hnot, hlist, hinv'⟩

/-- A node that sees nothing, on a surface that does not conform. -/
def blind : Tests := ⟨fun _ _ => .ok false, fun _ _ => .ok false⟩

theorem cavity_enlargement_pair :
    (∃ c c' : RefCavity, c.enlargeFace pairGrid 3 = .ok c' ∧
      (∃ tet, c'.tetList = c.tetList ++ [tet]) ∧ FaceInv pairGrid c' ∧
        c.enlargeVisible blind pairGrid (outsideTets pairGrid c) ≠ none) ∧
    (∃ c c' : RefCavity, c.enlargeSeg pairGrid 0 = .ok c' ∧
      (∃ tri, c'.triList = c.triList ++ [tri]) ∧ SegInv pairGrid c' ∧
        c.enlargeConforming blind pairGrid (outsideTris pairGrid c) ≠ none) := by
  constructor
  · obtain ⟨c, c', hgrown, -, hrun, -, hstate⟩ := exists_grown_pair
    obtain ⟨hstep, hends⟩ := (cavity_enlargement pairGrid_inv c blind).1 pairGrid_simple_tets
      (hgrown.faceInv pairGrid_inv pairGrid_simple_tets)
    obtain ⟨tet, -, -, hlist, hface⟩ := hstep 3 c' hrun hstate
    exact ⟨c, c', hrun, ⟨tet, hlist⟩, hface, hends⟩
  · obtain ⟨r, hrun, hr⟩ := exists_ok_of_map
      (x := do
        let c ← (formEmpty 4).addTri pairGrid 0
        let c' ← c.enlargeSeg pairGrid 0
        .ok (c, c'))
      (f := fun r : RefCavity × RefCavity => (r.1.state, r.2.state))
      (b := (.unknown, .unknown)) (by decide +kernel)
    obtain ⟨c, hadd, hrun⟩ := bind_eq_ok.mp hrun
    obtain ⟨c', henlarge, hrun⟩ := bind_eq_ok.mp hrun
    obtain rfl := Except.ok.inj hrun
    simp only [Prod.mk.injEq] at hr
    obtain ⟨-, -, hseg, -⟩ := addTri_spec pairGrid_inv pairGrid_simple_tris
      (formEmpty_segInv pairGrid 4) (by decide) hadd hr.1
    obtain ⟨-, hstep, hends⟩ :=
      (cavity_enlargement pairGrid_inv c blind).2 pairGrid_simple_tris hseg
    obtain ⟨tri, -, -, hlist, hseg'⟩ := hstep 0 c' henlarge hr.2
    exact ⟨c, c', henlarge, ⟨tri, hlist⟩, hseg', hends⟩

end RefCavity

end RefineMesh
