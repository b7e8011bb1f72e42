import Mathlib.Tactic
import RefineMesh.ChainCavity
import RefineMesh.CavitySlots
import RefineMesh.SplitRuns

/-!
# The faces of a cavity bound its tets

`FaceInv` says that the rows of the face array are the reduced boundary of the
tets in the list.  One inserted face adds its chain and keeps the array reduced;
a tet that is added brings its four faces.  From this follows what the
enlargement over a face does: exactly one of the two tets at the face is in the
list, and the other one is added.
-/

namespace RefineMesh

open SlotList Chains

variable {D : Type} {g : RefGrid D}

/-- A face of a cell as an oriented triangle. -/
def RefCell.faceOf (s : RefCell) (cell : Nat) (face : Nat × Nat × Nat × Nat) : Tri Int :=
  (s.faceNodes cell face 0, s.faceNodes cell face 1, s.faceNodes cell face 2)

/-- The faces of a tet by the table. -/
theorem RefCell.faces_eq {s : RefCell} (htype : s.cellType = .tet) (cell : Nat) :
    faces (tetOf (s.cellRow cell)) =
      (CellType.tet.f2n.map (s.faceOf cell) : Multiset (Tri Int)) := by
  rw [tetOf_cellRow htype]
  rfl

namespace RefCavity

variable {c c' : RefCavity} {nodes : Nat → Int}

/-- The tets of a cavity. -/
def tets (g : RefGrid D) (c : RefCavity) : Multiset (Tet Int) :=
  c.tetList.map fun tet => tetOf ((g.cell .tet).cellRow tet)

/-- The faces of a cavity are the reduced boundary of its tets. -/
structure FaceInv (g : RefGrid D) (c : RefCavity) : Prop where
  slots : c.faces.RowsInv
  live : ∀ tet ∈ c.tetList, (g.cell .tet).Live tet
  nodup : c.tetList.Nodup
  reduced : Reduced c.faces.rows
  boundary : boundary (c.tets g) = chain c.faces.rows

theorem formEmpty_faceInv (g : RefGrid D) (node : Int) : FaceInv g (formEmpty node) := by
  have hrows : (formEmpty node).faces.rows = 0 := CavityRows.rows_create
  constructor
  · exact CavityRows.create_inv
  · intro tet htet
    cases htet
  · exact List.nodup_nil
  · rw [hrows]
    exact reduced_zero
  · rw [hrows]
    rfl

/-! ## Inserting a face -/

theorem sameFace_iff {face : Nat} :
    c.sameFace nodes face = true ↔ c.faces.row face = (nodes 0, nodes 1, nodes 2) ∨
      c.faces.row face = (nodes 1, nodes 2, nodes 0) ∨
        c.faces.row face = (nodes 2, nodes 0, nodes 1) := by
  rw [sameFace, decide_eq_true_eq]
  simp only [f2n, CavityRows.row, Prod.mk.injEq]
  grind

theorem reversedFace_iff {face : Nat} :
    c.reversedFace nodes face = true ↔ c.faces.row face = (nodes 2, nodes 1, nodes 0) ∨
      c.faces.row face = (nodes 1, nodes 0, nodes 2) ∨
        c.faces.row face = (nodes 0, nodes 2, nodes 1) := by
  rw [reversedFace, decide_eq_true_eq]
  simp only [f2n, CavityRows.row, Prod.mk.injEq]
  grind

/-- A face that is not found is in the array with neither orientation. -/
theorem findFace_none (hnone : c.findFace nodes = none) :
    multiplicity c.faces.rows (nodes 0) (nodes 1) (nodes 2) = 0 ∧
      multiplicity c.faces.rows (nodes 1) (nodes 0) (nodes 2) = 0 := by
  rw [findFace, Option.map_eq_none_iff, List.find?_eq_none] at hnone
  have hno : ∀ face, c.faces.Live face →
      ¬ c.sameFace nodes face = true ∧ ¬ c.reversedFace nodes face = true := by
    intro face hlive
    have hface := hnone face (CavityRows.mem_valid.mpr hlive)
    simpa using hface
  simp only [Chains.multiplicity_eq_zero, CavityRows.mem_rows, not_exists, not_and]
  simp only [sameFace_iff, reversedFace_iff, not_or] at hno
  exact ⟨⟨fun face h => (hno face h).1.1, fun face h => (hno face h).1.2.1,
    fun face h => (hno face h).1.2.2⟩, ⟨fun face h => (hno face h).2.2.1,
    fun face h => (hno face h).2.2.2, fun face h => (hno face h).2.1⟩⟩

/-- A face that is found reversed cancels the new one. -/
theorem findFace_reversed {face : Nat} (hfound : c.findFace nodes = some (face, true)) :
    c.faces.Live face ∧ orient (c.faces.row face) = -orient (nodes 0, nodes 1, nodes 2) := by
  rw [findFace, Option.map_eq_some_iff] at hfound
  obtain ⟨face', hfind, heq⟩ := hfound
  rw [Prod.mk.injEq, decide_eq_true_eq] at heq
  obtain ⟨rfl, hsame⟩ := heq
  refine ⟨CavityRows.mem_valid.mp (List.mem_of_find?_eq_some hfind), ?_⟩
  have hreversed : c.reversedFace nodes face' = true := by
    have hor := List.find?_some hfind
    simp only [decide_eq_true_eq] at hor
    exact hor.resolve_left hsame
  have hmirror := alternating_orient.mirror (nodes 0) (nodes 1) (nodes 2)
  have hrotate := @Alternating.rotate Int (Tri Int → ℤ) _ orient alternating_orient
  rcases reversedFace_iff.mp hreversed with hrow | hrow | hrow
  · rw [hrow, ← hmirror, ← hrotate]
  · rw [hrow, hmirror]
  · rw [hrow, ← hmirror, hrotate]

/-- Only the face array changes. -/
theorem insertFace_frame (hrun : c.insertFace nodes = .ok c') :
    c' = { c with faces := c'.faces } := by
  rw [insertFace] at hrun
  split at hrun
  · rw [← Except.ok.inj hrun]
  · cases hrun
  · obtain ⟨faces, -, hrest⟩ := bind_eq_ok.mp hrun
    rw [← Except.ok.inj hrest]

/-- **`ref_cavity_insert_face`** adds the face to the chain of the faces. -/
theorem insertFace_spec (hslots : c.faces.RowsInv) (hreduced : Reduced c.faces.rows)
    (hproper : (Tri.corners (nodes 0, nodes 1, nodes 2)).Nodup) (hnode : nodes 0 ≠ refEmpty)
    (hrun : c.insertFace nodes = .ok c') :
    c'.faces.RowsInv ∧ Reduced c'.faces.rows ∧
      chain c'.faces.rows = orient (nodes 0, nodes 1, nodes 2) + chain c.faces.rows := by
  rw [insertFace] at hrun
  split at hrun
  · rename_i face hfound
    obtain ⟨hlive, horient⟩ := findFace_reversed hfound
    obtain ⟨hslots', hrows⟩ := CavityRows.erase_spec hslots hlive
    have hc' : c'.faces = c.faces.erase face := by rw [← Except.ok.inj hrun]
    rw [hc']
    refine ⟨hslots', ?_, ?_⟩
    · rw [hrows] at hreduced
      exact hreduced.of_cons
    · rw [hrows, chain_cons, horient]
      abel
  · cases hrun
  · rename_i hnone
    obtain ⟨faces, hadd, hrest⟩ := bind_eq_ok.mp hrun
    obtain ⟨hslots', hrows⟩ := CavityRows.add_spec hslots hnode hadd
    have hc' : c'.faces = faces := by rw [← Except.ok.inj hrest]
    obtain ⟨hsame, hmirror⟩ := findFace_none hnone
    rw [hc', hrows]
    refine ⟨hslots', hreduced.cons hproper hsame hmirror, ?_⟩
    rw [chain_cons]

/-! ## Adding a tet -/

/-- Where the faces of a tet were inserted to the last, the state had been
unknown and only the face array changes. -/
theorem addTetFaces_frame {tet : Nat} {l : List (Nat × Nat × Nat × Nat)} (hl : l ≠ [])
    (hrun : addTetFaces g tet l c = .ok c') (hstate : c'.state = .unknown) :
    c.state = .unknown ∧ c' = { c with faces := c'.faces } := by
  induction l generalizing c with
  | nil => exact absurd rfl hl
  | cons face rest ih =>
      rw [addTetFaces] at hrun
      split at hrun
      · rw [← Except.ok.inj hrun] at hstate
        cases hstate
      · obtain ⟨c1, hinsert, hrest⟩ := bind_eq_ok.mp hrun
        have hframe := insertFace_frame hinsert
        have hstate1 : c1.state = c.state := by rw [hframe]
        split at hrest
        · rename_i hknown
          rw [← Except.ok.inj hrest] at hstate
          exact absurd hstate hknown
        · rename_i hunknown
          rw [not_not] at hunknown
          refine ⟨hstate1.symm.trans hunknown, ?_⟩
          by_cases hnil : rest = []
          · subst hnil
            rw [← Except.ok.inj hrest]
            exact hframe
          · obtain ⟨-, hc'⟩ := ih hnil hrest
            rw [hc', hframe]

theorem addTetFaces_spec {tet : Nat} {l : List (Nat × Nat × Nat × Nat)}
    (hl : ∀ face ∈ l, ((g.cell .tet).faceOf tet face).corners.Nodup ∧
      (g.cell .tet).faceNodes tet face 0 ≠ refEmpty)
    (hslots : c.faces.RowsInv) (hreduced : Reduced c.faces.rows)
    (hrun : addTetFaces g tet l c = .ok c') (hstate : c'.state = .unknown) :
    c'.faces.RowsInv ∧ Reduced c'.faces.rows ∧
      chain c'.faces.rows =
        chain (l.map ((g.cell .tet).faceOf tet) : Multiset (Tri Int)) + chain c.faces.rows := by
  induction l generalizing c with
  | nil =>
      rw [← Except.ok.inj hrun]
      refine ⟨hslots, hreduced, ?_⟩
      rw [List.map_nil, Multiset.coe_nil, chain_zero, zero_add]
  | cons face rest ih =>
      obtain ⟨hproper, hnode⟩ := hl face List.mem_cons_self
      rw [addTetFaces] at hrun
      split at hrun
      · rw [← Except.ok.inj hrun] at hstate
        cases hstate
      · obtain ⟨c1, hinsert, hrest⟩ := bind_eq_ok.mp hrun
        obtain ⟨hslots1, hreduced1, hchain1⟩ :=
          insertFace_spec hslots hreduced hproper hnode hinsert
        split at hrest
        · rename_i hknown
          rw [← Except.ok.inj hrest] at hstate
          exact absurd hstate hknown
        · obtain ⟨hslots', hreduced', hchain'⟩ :=
            ih (fun face hface => hl face (List.mem_cons_of_mem _ hface)) hslots1 hreduced1 hrest
          refine ⟨hslots', hreduced', ?_⟩
          rw [hchain', hchain1, List.map_cons, ← Multiset.cons_coe, chain_cons]
          rw [show orient ((g.cell .tet).faceNodes tet face 0, (g.cell .tet).faceNodes tet face 1,
            (g.cell .tet).faceNodes tet face 2) = orient ((g.cell .tet).faceOf tet face) from rfl]
          abel

/-- The faces of a proper tet are proper triangles. -/
theorem proper_faceOf (hinv : g.CellsInv) (hsimple : (g.cell .tet).Simple) {tet : Nat}
    (hlive : (g.cell .tet).Live tet) {face : Nat × Nat × Nat × Nat}
    (hface : face ∈ CellType.tet.f2n) :
    ((g.cell .tet).faceOf tet face).corners.Nodup ∧
      (g.cell .tet).faceNodes tet face 0 ≠ refEmpty := by
  have htype := hinv.type .tet
  have hmem : (g.cell .tet).faceOf tet face ∈ Chains.faces (tetOf ((g.cell .tet).cellRow tet)) := by
    rw [RefCell.faces_eq htype, Multiset.mem_coe]
    exact List.mem_map_of_mem hface
  constructor
  · apply proper_of_mem_faces _ hmem
    rw [corners_tetOf htype]
    exact hsimple tet hlive
  · have hcorner : (g.cell .tet).faceNodes tet face 0 ∈ (g.cell .tet).nodeList tet := by
      rw [← corners_tetOf htype]
      exact mem_corners_of_faces hmem List.mem_cons_self
    have hnonneg := (hinv.inv .tet).nonneg tet hlive _ hcorner
    intro hempty
    rw [hempty] at hnonneg
    exact absurd hnonneg (by decide)

/-- **`ref_cavity_add_tet`** appends a tet that was not in the list; with the
state unknown the faces are again those of the tets. -/
theorem addTet_spec (hinv : g.CellsInv) (hsimple : (g.cell .tet).Simple) (h : FaceInv g c)
    {tet : Nat} (hnot : tet ∉ c.tetList) (hrun : c.addTet g tet = .ok c')
    (hstate : c'.state = .unknown) :
    (g.cell .tet).Live tet ∧ c.state = .unknown ∧ FaceInv g c' ∧
      c' = { c with tetList := c.tetList ++ [tet], faces := c'.faces } := by
  rw [addTet] at hrun
  split at hrun
  · cases hrun
  rename_i hlive
  rw [not_not] at hlive
  obtain ⟨hunknown, hframe⟩ := addTetFaces_frame (by decide) hrun hstate
  obtain ⟨hslots, hreduced, hchain⟩ := addTetFaces_spec
    (c := { c with tetList := c.tetList ++ [tet] })
    (fun face hface => proper_faceOf hinv hsimple hlive hface) h.slots h.reduced hrun hstate
  have hlist : c'.tetList = c.tetList ++ [tet] := by rw [hframe]
  refine ⟨hlive, hunknown, ⟨hslots, ?_, ?_, hreduced, ?_⟩, hframe⟩
  · intro other hother
    rw [hlist, List.mem_append, List.mem_singleton] at hother
    rcases hother with hother | rfl
    · exact h.live other hother
    · exact hlive
  · rw [hlist]
    exact List.Nodup.append h.nodup (List.nodup_singleton tet) (by simpa using hnot)
  · rw [hchain, tets, hlist, List.map_append, ← Multiset.coe_add, boundary_add]
    rw [show boundary (c.tetList.map fun tet => tetOf ((g.cell .tet).cellRow tet) :
      Multiset (Tet Int)) = boundary (c.tets g) from rfl, h.boundary]
    rw [List.map_singleton, Multiset.coe_singleton, boundary_singleton,
      RefCell.faces_eq (hinv.type .tet)]
    abel

/-- A tet that is in the list already is not added. -/
theorem addTet_of_mem {tet : Nat} (hmem : tet ∈ c.tetList) (hrun : c.addTet g tet = .ok c') :
    c' = c := by
  rw [addTet] at hrun
  split at hrun
  · cases hrun
  · exact (Except.ok.inj hrun).symm

/-! ## The enlargement over a face -/

/-- The tets at a face, each once. -/
theorem facesOn_face (hinv : g.CellsInv) (hsimple : (g.cell .tet).Simple)
    (hreduced : Reduced c.faces.rows) {face : Nat} (hlive : c.faces.Live face) :
    ((g.cell .tet).facesOn (c.faceNodes face)).Nodup ∧
      ∀ tet, tet ∈ (g.cell .tet).facesOn (c.faceNodes face) ↔ (g.cell .tet).Live tet ∧
        ∀ u ∈ [c.f2n face 0, c.f2n face 1, c.f2n face 2], u ∈ (g.cell .tet).nodeList tet := by
  have hnodup := hreduced.nodup (CavityRows.mem_rows.mpr ⟨face, hlive, rfl⟩)
  simp only [CavityRows.row, Tri.corners, List.nodup_cons, List.mem_cons, List.not_mem_nil,
    or_false, not_or, List.nodup_nil, not_false_iff, and_true] at hnodup
  obtain ⟨⟨h01, h02⟩, h12⟩ := hnodup
  have hfaces := RefCell.facesOn_eq (hinv.inv .tet) hsimple (hinv.type .tet) h01 h02 h12
  change (g.cell .tet).facesOn (c.faceNodes face) = _ at hfaces
  rw [hfaces]
  refine ⟨((hinv.inv .tet).nodup_having hsimple _).filter _, fun tet => ?_⟩
  rw [List.mem_filter, (hinv.inv .tet).mem_having, decide_eq_true_eq]
  constructor
  · intro htet
    exact ⟨htet.1.1, htet.2⟩
  · intro htet
    exact ⟨⟨htet.1, htet.2 _ List.mem_cons_self⟩, htet.2⟩

/-- **One side.**  Of the two tets at a face of the cavity exactly one is in the
list. -/
theorem FaceInv.one_side (hinv : g.CellsInv) (hsimple : (g.cell .tet).Simple) (h : FaceInv g c)
    {face : Nat} (hlive : c.faces.Live face) {tet0 tet1 : Nat}
    (htets : (g.cell .tet).facesOn (c.faceNodes face) = [tet0, tet1]) :
    tet0 ∈ c.tetList ↔ tet1 ∉ c.tetList := by
  obtain ⟨hnodup, hmem⟩ := facesOn_face hinv hsimple h.reduced hlive
  rw [htets] at hnodup hmem
  have hproper : ∀ t ∈ c.tets g, t.corners.Nodup := by
    intro t ht
    obtain ⟨tet, htet, rfl⟩ := List.mem_map.mp (Multiset.mem_coe.mp ht)
    rw [corners_tetOf (hinv.type .tet)]
    exact hsimple tet (h.live tet htet)
  have hodd := h.reduced.odd_behind h.boundary hproper
    (CavityRows.mem_rows.mpr ⟨face, hlive, rfl⟩)
  -- the tets of the list behind the face are those of the two that are in it
  have hcount : ((c.tets g).filter fun t => c.f2n face 0 ∈ t.corners ∧ c.f2n face 1 ∈ t.corners ∧
      c.f2n face 2 ∈ t.corners).card = ([tet0, tet1].filter fun tet => tet ∈ c.tetList).length := by
    rw [tets, Multiset.filter_coe, Multiset.coe_card, List.filter_map, List.length_map]
    apply List.Perm.length_eq
    apply (List.perm_ext_iff_of_nodup (h.nodup.filter _) (hnodup.filter _)).mpr
    intro tet
    simp only [List.mem_filter, Function.comp_apply, decide_eq_true_eq,
      corners_tetOf (hinv.type .tet)]
    constructor
    · intro htet
      refine ⟨(hmem tet).mpr ⟨h.live tet htet.1, ?_⟩, htet.1⟩
      simpa using htet.2
    · intro htet
      refine ⟨htet.2, ?_⟩
      simpa using ((hmem tet).mp htet.1).2
  change Odd ((c.tets g).filter fun t => c.f2n face 0 ∈ t.corners ∧ c.f2n face 1 ∈ t.corners ∧
      c.f2n face 2 ∈ t.corners).card at hodd
  rw [hcount] at hodd
  by_cases h0 : tet0 ∈ c.tetList
  · by_cases h1 : tet1 ∈ c.tetList
    · simp [h0, h1, Nat.odd_iff] at hodd
    · simp [h0, h1]
  · by_cases h1 : tet1 ∈ c.tetList
    · simp [h0, h1]
    · simp [h0, h1] at hodd

/-- **`ref_cavity_enlarge_face`** that leaves the state unknown adds exactly one
tet, and the faces bound the tets again. -/
theorem enlargeFace_spec (hinv : g.CellsInv) (hsimple : (g.cell .tet).Simple) (h : FaceInv g c)
    {face : Nat} (hrun : c.enlargeFace g face = .ok c') (hstate : c'.state = .unknown) :
    ∃ tet, (g.cell .tet).Live tet ∧ tet ∉ c.tetList ∧ c.state = .unknown ∧ FaceInv g c' ∧
      c' = { c with tetList := c.tetList ++ [tet], faces := c'.faces } := by
  rw [enlargeFace] at hrun
  split at hrun
  · cases hrun
  rename_i hlive
  rw [not_not] at hlive
  split at hrun
  · rw [← Except.ok.inj hrun] at hstate
    cases hstate
  split at hrun
  · rw [← Except.ok.inj hrun] at hstate
    cases hstate
  obtain ⟨found, hface, hrest⟩ := bind_eq_ok.mp hrun
  have hfound := RefCell.withFace_ok hface
  split at hrest
  · rw [← Except.ok.inj hrest] at hstate
    cases hstate
  rename_i hfirst
  split at hrest
  · rw [← Except.ok.inj hrest] at hstate
    cases hstate
  rename_i hsecond
  match htets : (g.cell .tet).facesOn (c.faceNodes face) with
  | [] =>
      rw [htets] at hfound
      exact absurd (congrArg Prod.fst hfound) hfirst
  | [tet] =>
      rw [htets] at hfound
      exact absurd (congrArg Prod.snd hfound) hsecond
  | _ :: _ :: _ :: _ =>
      rw [htets] at hfound
      exact hfound.elim
  | [tet0, tet1] =>
      rw [htets] at hfound
      have hone := h.one_side hinv hsimple hlive htets
      obtain rfl : found = ((tet0 : Int), (tet1 : Int)) := hfound
      simp only [addTetAcross, Int.toNat_natCast, decide_eq_true_eq] at hrest
      by_cases h0 : tet0 ∈ c.tetList
      · have h1 := hone.mp h0
        simp only [if_pos h0, if_neg h1] at hrest
        obtain ⟨c1, hadd, heq⟩ := bind_eq_ok.mp hrest
        obtain rfl := Except.ok.inj heq
        obtain ⟨hlive1, hunknown, hinv', hframe⟩ := addTet_spec hinv hsimple h h1 hadd hstate
        exact ⟨tet1, hlive1, h1, hunknown, hinv', hframe⟩
      · have h1 : tet1 ∈ c.tetList := by
          by_contra h1
          exact h0 (hone.mpr h1)
        simp only [if_neg h0, if_pos h1] at hrest
        obtain ⟨c1, heq, hadd⟩ := bind_eq_ok.mp hrest
        obtain rfl := Except.ok.inj heq
        obtain ⟨hlive0, hunknown, hinv', hframe⟩ := addTet_spec hinv hsimple h h0 hadd hstate
        exact ⟨tet0, hlive0, h0, hunknown, hinv', hframe⟩

end RefCavity

end RefineMesh
