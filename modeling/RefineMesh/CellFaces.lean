import Mathlib.Tactic
import RefineMesh.NodeRuns
import RefineMesh.Grid

/-!
# What the cell queries answer

`ref_cell_with`, `ref_cell_with_face` and `ref_cell_list_with2` over a store
whose cells do not repeat a node.  The faces of a cell have different node sets
then, so that no cell is answered twice.
-/

namespace RefineMesh

namespace CellType

/-- The places of a face in the table. -/
def places (face : Nat × Nat × Nat × Nat) : List Nat :=
  [face.1, face.2.1, face.2.2.1, face.2.2.2]

/-- A face that repeats its first node. -/
def IsTriangle (face : Nat × Nat × Nat × Nat) : Prop := face.2.2.2 = face.1

instance : DecidablePred IsTriangle := fun _ => inferInstanceAs (Decidable (_ = _))

/-- The places of a face are nodes of the cell. -/
theorem places_lt {t : CellType} {face : Nat × Nat × Nat × Nat} (hface : face ∈ t.f2n) :
    ∀ i ∈ places face, i < t.nodePer := by
  have hall : ∀ f ∈ t.f2n, ∀ i ∈ places f, i < t.nodePer := by
    cases t <;> decide
  exact hall face hface

/-- Two faces of the table have different places. -/
theorem places_inj {t : CellType} {face face' : Nat × Nat × Nat × Nat} (hface : face ∈ t.f2n)
    (hface' : face' ∈ t.f2n) (h : (places face).toFinset = (places face').toFinset) :
    face = face' := by
  have hall : ∀ f ∈ t.f2n, ∀ f' ∈ t.f2n, (places f).toFinset = (places f').toFinset → f = f' := by
    cases t <;> decide
  exact hall face hface face' hface' h

/-- A face is a triangle on three places, or has four places. -/
theorem card_places {t : CellType} {face : Nat × Nat × Nat × Nat} (hface : face ∈ t.f2n) :
    (places face).toFinset.card = if IsTriangle face then 3 else 4 := by
  have hall : ∀ f ∈ t.f2n, (places f).toFinset.card = if IsTriangle f then 3 else 4 := by
    cases t <;> decide
  exact hall face hface

end CellType

namespace RefCell

open CellType

/-- The cell has the set of the given nodes. -/
def HasNodes (s : RefCell) (c : Nat) (nodes : Nat → Int) : Prop :=
  ∀ x, (∃ i, i < s.nodePer ∧ nodes i = x) ↔ x ∈ s.nodeList c

/-- The face of a cell is on the set of four given nodes. -/
def FaceOn (s : RefCell) (c : Nat) (face : Nat × Nat × Nat × Nat) (nodes : Nat → Int) : Prop :=
  ∀ x, (∃ i, i < 4 ∧ nodes i = x) ↔ ∃ i, i < 4 ∧ s.faceNodes c face i = x

/-- Some face of a cell is on the set of four given nodes. -/
def HasFace (s : RefCell) (c : Nat) (nodes : Nat → Int) : Prop :=
  ∃ face ∈ s.cellType.f2n, s.FaceOn c face nodes

section Faces

variable {s : RefCell} {c : Nat} {nodes : Nat → Int} {face face' : Nat × Nat × Nat × Nat}

theorem exists_faceNodes_places {x : Int} :
    (∃ i, i < 4 ∧ s.faceNodes c face i = x) ↔ x ∈ (places face).map (s.c2n c) := by
  constructor
  · intro h
    obtain ⟨i, hi, rfl⟩ := h
    match i, hi with
    | 0, _ => simp [faceNodes, places]
    | 1, _ => simp [faceNodes, places]
    | 2, _ => simp [faceNodes, places]
    | 3, _ => simp [faceNodes, places]
  · intro h
    simp only [places, List.map_cons, List.map_nil, List.mem_cons, List.not_mem_nil, or_false] at h
    rcases h with h | h | h | h
    · exact ⟨0, by decide, by simp [faceNodes, h]⟩
    · exact ⟨1, by decide, by simp [faceNodes, h]⟩
    · exact ⟨2, by decide, by simp [faceNodes, h]⟩
    · exact ⟨3, by decide, by simp [faceNodes, h]⟩

/-- The nodes of the face are the images of its places. -/
theorem FaceOn.image_eq (h : s.FaceOn c face nodes) :
    (places face).toFinset.image (s.c2n c) = (Finset.range 4).image nodes := by
  ext x
  have hx := h x
  rw [exists_faceNodes_places] at hx
  simpa [eq_comm] using hx.symm

theorem injOn_c2n (hsimple : s.Simple) (hlive : s.Live c) :
    Set.InjOn (s.c2n c) {i | i < s.nodePer} := by
  intro i hi j hj hij
  have hnodup := hsimple c hlive
  rw [nodeList, List.nodup_map_iff_inj_on List.nodup_range] at hnodup
  exact hnodup i (List.mem_range.mpr hi) j (List.mem_range.mpr hj) hij

theorem injOn_places (hsimple : s.Simple) (hlive : s.Live c) (hface : face ∈ s.cellType.f2n) :
    Set.InjOn (s.c2n c) (places face).toFinset := by
  apply (injOn_c2n hsimple hlive).mono
  intro i hi
  exact places_lt hface i (List.mem_toFinset.mp hi)

/-- A cell without repeated nodes has one face on a node set at most. -/
theorem FaceOn.unique (hsimple : s.Simple) (hlive : s.Live c) (hface : face ∈ s.cellType.f2n)
    (hface' : face' ∈ s.cellType.f2n) (h : s.FaceOn c face nodes) (h' : s.FaceOn c face' nodes) :
    face = face' := by
  apply places_inj hface hface'
  have himage := h.image_eq.trans h'.image_eq.symm
  have hinj : Set.InjOn (s.c2n c) {i | i < s.nodePer} := injOn_c2n hsimple hlive
  ext i
  constructor
  · intro hi
    have hmem := himage ▸ Finset.mem_image_of_mem (s.c2n c) hi
    obtain ⟨j, hj, hji⟩ := Finset.mem_image.mp hmem
    have heq := hinj (places_lt hface' j (List.mem_toFinset.mp hj))
      (places_lt hface i (List.mem_toFinset.mp hi)) hji
    exact heq ▸ hj
  · intro hi
    have hmem := himage.symm ▸ Finset.mem_image_of_mem (s.c2n c) hi
    obtain ⟨j, hj, hji⟩ := Finset.mem_image.mp hmem
    have heq := hinj (places_lt hface j (List.mem_toFinset.mp hj))
      (places_lt hface' i (List.mem_toFinset.mp hi)) hji
    exact heq ▸ hj

/-- **Triangles and quadrilaterals do not match each other.** -/
theorem FaceOn.isTriangle_iff (hsimple : s.Simple) (hlive : s.Live c)
    (hface : face ∈ s.cellType.f2n) (h : s.FaceOn c face nodes) :
    IsTriangle face ↔ ∃ i j, i < j ∧ j < 4 ∧ nodes i = nodes j := by
  have hcard := congrArg Finset.card h.image_eq
  rw [Finset.card_image_of_injOn (injOn_places hsimple hlive hface), card_places hface] at hcard
  constructor
  · intro htriangle
    rw [if_pos htriangle] at hcard
    by_contra hno
    push Not at hno
    have hinj : Set.InjOn nodes (Finset.range 4) := by
      intro i hi j hj hij
      rw [Finset.coe_range, Set.mem_Iio] at hi hj
      rcases lt_trichotomy i j with hlt | heq | hlt
      · exact absurd hij (hno i j hlt hj)
      · exact heq
      · exact absurd hij.symm (hno j i hlt hi)
    rw [Finset.card_image_of_injOn hinj, Finset.card_range] at hcard
    omega
  · intro hrepeat
    obtain ⟨i, j, hij, hj, heq⟩ := hrepeat
    by_contra htriangle
    rw [if_neg htriangle] at hcard
    have hinj : Set.InjOn nodes (Finset.range 4) := by
      rw [← Finset.card_image_iff, Finset.card_range]
      exact hcard.symm
    have hi : i ∈ Finset.range 4 := Finset.mem_range.mpr (hij.trans hj)
    exact hij.ne (hinj hi (Finset.mem_range.mpr hj) heq)

theorem sameUnique_faceNodes :
    sameUnique (sortUnique 4 nodes) (sortUnique 4 (s.faceNodes c face)) ↔
      s.FaceOn c face nodes :=
  sameUnique_iff nodes (s.faceNodes c face) (by decide) (by decide)

/-- The cells with a face on the given nodes. -/
theorem CellInv.mem_facesOn (h : s.CellInv) :
    c ∈ s.facesOn nodes ↔ s.Live c ∧ s.HasFace c nodes := by
  simp only [facesOn, List.mem_flatMap, List.mem_map, List.mem_filter, decide_eq_true_eq,
    sameUnique_faceNodes]
  constructor
  · intro hc
    obtain ⟨c', hhaving, face, ⟨hface, hon⟩, rfl⟩ := hc
    exact ⟨(h.mem_having.mp hhaving).1, face, hface, hon⟩
  · intro hc
    obtain ⟨hlive, face, hface, hon⟩ := hc
    refine ⟨c, h.mem_having.mpr ⟨hlive, ?_⟩, face, ⟨hface, hon⟩, rfl⟩
    obtain ⟨i, hi, hnode⟩ := (hon (nodes 0)).mp ⟨0, by decide, rfl⟩
    obtain ⟨j, hj, hji⟩ := List.mem_map.mp (exists_faceNodes_places.mp ⟨i, hi, hnode⟩)
    exact hji ▸ c2n_mem_nodeList s c (places_lt hface j hj)

/-- No cell is answered twice. -/
theorem CellInv.nodup_facesOn (h : s.CellInv) (hsimple : s.Simple) :
    (s.facesOn nodes).Nodup := by
  apply List.nodup_flatMap.mpr
  constructor
  · intro c hc
    have hlive := (h.mem_having.mp hc).1
    rw [List.nodup_map_iff_inj_on ((nodup_f2n s.cellType).filter _)]
    intro face hface face' hface' _
    simp only [List.mem_filter, decide_eq_true_eq, sameUnique_faceNodes] at hface hface'
    exact hface.2.unique hsimple hlive hface.1 hface'.1 hface'.2
  · apply (h.nodup_having hsimple (nodes 0)).imp
    intro a b hab x ha hb
    simp only [List.mem_map] at ha hb
    obtain ⟨_, _, rfl⟩ := ha
    obtain ⟨_, _, rfl⟩ := hb
    exact hab rfl

/-- `ref_cell_with_face` fails on a face of more than two cells. -/
theorem withFace_invalid (hmany : 2 < (s.facesOn nodes).length) :
    s.withFace nodes = .error .invalid := by
  match hrun : s.withFace nodes with
  | .ok found =>
      have hfound := withFace_ok hrun
      match hlist : s.facesOn nodes, hfound with
      | [], _ => simp [hlist] at hmany
      | [_], _ => simp [hlist] at hmany
      | [_, _], _ => simp [hlist] at hmany
  | .error e =>
      obtain ⟨found, candidate, -, hstep⟩ := ArrayLoop.exists_mem_of_foldlM_error hrun
      simp only [withFaceStep] at hstep
      split at hstep
      · split at hstep
        · cases hstep
        · split at hstep
          · exact congrArg _ (Except.error.inj hstep).symm
          · cases hstep
      · cases hstep

/-- **The cell queries are exact.** -/
theorem cell_queries_exact (h : s.CellInv) (hsimple : s.Simple) :
    (∀ nodes : Nat → Int,
      ((∃ c, s.Live c ∧ s.HasNodes c nodes) →
        ∃ c, s.cellWith nodes = .ok c ∧ s.Live c ∧ s.HasNodes c nodes) ∧
      ((¬ ∃ c, s.Live c ∧ s.HasNodes c nodes) → s.cellWith nodes = .error .notFound)) ∧
    (∀ nodes : Nat → Int, ∃ l : List Nat, l.Nodup ∧
      (∀ c, c ∈ l ↔ s.Live c ∧ s.HasFace c nodes) ∧
      (∀ c face, s.Live c → face ∈ s.cellType.f2n → s.FaceOn c face nodes →
        (IsTriangle face ↔ ∃ i j, i < j ∧ j < 4 ∧ nodes i = nodes j)) ∧
      (l.length ≤ 2 → ∃ found, s.withFace nodes = .ok found ∧ FoundCells found l) ∧
      (2 < l.length → s.withFace nodes = .error .invalid)) ∧
    (∀ a b : Int, a ≠ b → ∃ l : List Nat, l.Nodup ∧
      (∀ c, c ∈ l ↔ s.Live c ∧ a ∈ s.nodeList c ∧ b ∈ s.nodeList c) ∧
      ∀ max : Nat, (l.length ≤ max → s.listWith2 a b max = .ok l) ∧
        (max < l.length → s.listWith2 a b max = .error .increaseLimit)) := by
  refine ⟨?_, ?_, ?_⟩
  · intro nodes
    rcases cellWith_spec h nodes with ⟨c, hrun, hlive, hset⟩ | ⟨hrun, hno⟩
    · exact ⟨fun _ => ⟨c, hrun, hlive, hset⟩, fun hnone => absurd ⟨c, hlive, hset⟩ hnone⟩
    · refine ⟨?_, fun _ => hrun⟩
      intro hex
      obtain ⟨c, hlive, hset⟩ := hex
      exact absurd hset (hno c hlive)
  · intro nodes
    refine ⟨s.facesOn nodes, h.nodup_facesOn hsimple, fun c => h.mem_facesOn, ?_, ?_,
      withFace_invalid⟩
    · intro c face hlive hface hon
      exact hon.isTriangle_iff hsimple hlive hface
    · exact withFace_exists
  · intro a b _
    refine ⟨s.having2 a b, h.nodup_having2 hsimple a b, fun c => h.mem_having2, ?_⟩
    intro max
    constructor
    · intro hle
      rw [listWith2, if_neg (not_lt.mpr hle)]
    · intro hlt
      rw [listWith2, if_pos hlt]

end Faces

/-- Two prisms on a common triangle. -/
def prismRows : List (List Int) := [[0, 1, 2, 3, 4, 5], [3, 4, 5, 6, 7, 8]]

def twoPrisms : RefCell := ofRows .pri prismRows

theorem prismRows_fit : RowsFit .pri prismRows := of_decide_eq_true rfl

theorem twoPrisms_simple : twoPrisms.Simple := by
  have hsimple : ((RefGrid.ofRows (D := Int) (afterCalls []).store noGeom
      fun _ => prismRows).cell .pri).Simple :=
    RefGrid.ofRows_simple prismRows_fit (by decide)
  exact hsimple

theorem cell_queries_exact_two_prisms :
    (∃ c, twoPrisms.cellWith (fun i => 8 - i) = .ok c) ∧
      twoPrisms.listWith2 4 5 1 = .error .increaseLimit := by
  obtain ⟨hwith, -, hlist⟩ :=
    cell_queries_exact (ofRows_spec prismRows_fit).inv twoPrisms_simple
  constructor
  · have hnodes : twoPrisms.nodeList 1 = [3, 4, 5, 6, 7, 8] := by decide +kernel
    have hper : twoPrisms.nodePer = 6 := by decide +kernel
    have hsame : ∀ x : Int, (∃ i : Nat, i < twoPrisms.nodePer ∧ 8 - (i : Int) = x) ↔
        x ∈ twoPrisms.nodeList 1 := by
      intro x
      rw [hnodes, hper]
      constructor
      · intro h
        obtain ⟨i, hi, rfl⟩ := h
        interval_cases i <;> decide
      · intro h
        refine ⟨(8 - x).toNat, ?_⟩
        fin_cases h <;> decide
    obtain ⟨c, hrun, -⟩ := (hwith fun i => 8 - i).1 ⟨1, by decide +kernel, hsame⟩
    exact ⟨c, hrun⟩
  · obtain ⟨l, hnodup, hmem, hmax⟩ := hlist 4 5 (by decide)
    apply (hmax 1).2
    have h0 : 0 ∈ l := (hmem 0).mpr (by decide +kernel)
    have h1 : 1 ∈ l := (hmem 1).mpr (by decide +kernel)
    match l, h0, h1 with
    | [a], h0, h1 =>
        rw [List.mem_singleton] at h0 h1
        omega
    | a :: b :: rest, _, _ => simp

end RefCell

end RefineMesh
