import Mathlib.Tactic
import RefineMesh.ArrayLoops
import RefineMesh.CellFaces
import RefineMesh.Edge
import RefineMesh.SortUnique

/-!
# The face store

`REF_FACE_STRUCT` keeps each face of the cells of a grid once.  Two faces are
compared through their canonical form, the sorted nodes with one repeat taken
out; a triangle is stored as a quadrilateral that repeats a node.
-/

namespace RefineMesh

open ArrayLoop

variable {D : Type}

/-- `REF_FACE_STRUCT`; `f2n face node` is the entry that the source writes
`ref_face_f2n(ref_face, node, face)`.  A row is read at its first four places
only. -/
structure RefFace where
  n : Nat
  max : Nat
  f2n : Nat → Nat → Int
  adj : RefAdj

namespace RefFace

/-- `ref_face_make_canonical`. -/
def makeCanonical (original : Nat → Int) : Nat → Int :=
  let canonical := sortInsertion 4 original
  if canonical 0 = canonical 1 then Function.update canonical 0 refEmpty
  else if canonical 1 = canonical 2 then
    Function.update (Function.update canonical 1 (canonical 0)) 0 refEmpty
  else if canonical 2 = canonical 3 then
    Function.update (Function.update (Function.update canonical 2 (canonical 1)) 1 (canonical 0)) 0
      refEmpty
  else canonical

/-- The comparison of `ref_face_with`. -/
def Matches (target candidate : Nat → Int) : Prop :=
  target 0 = candidate 0 ∧ target 1 = candidate 1 ∧ target 2 = candidate 2 ∧
    target 3 = candidate 3

instance (target candidate : Nat → Int) : Decidable (Matches target candidate) :=
  inferInstanceAs (Decidable (_ ∧ _))

/-- `ref_face_with`. -/
def faceWith (s : RefFace) (nodes : Nat → Int) : Except Status Nat :=
  let target := makeCanonical nodes
  match ((s.adj.refs (nodes 0)).map Int.toNat).find? fun ref =>
      Matches target (makeCanonical (s.f2n ref)) with
  | some face => .ok face
  | none => .error .notFound

/-- The reallocation of `ref_face_add_uniquely`; the length is computed in
`REF_INT`, the new rows are not cleared. -/
def grow (s : RefFace) : Except Status RefFace :=
  if s.n < s.max then .ok s
  else
    let max := s.max + Nat.max 5000 (3 * s.max / 2)
    if refIntMax < 4 * max then .error .undefined else .ok { s with max := max }

/-- The registration of `ref_face_add_uniquely`: a triangle repeats its first
node and is registered there once. -/
def register (adj : RefAdj) (row : Nat → Int) (face : Nat) : Except Status RefAdj := do
  let adj ← (List.range 3).foldlM (fun adj node => adj.add (row node) face) adj
  if row 0 ≠ row 3 then adj.add (row 3) face else .ok adj

/-- `ref_face_add_uniquely`. -/
def addUniquely (s : RefFace) (nodes : Nat → Int) : Except Status RefFace :=
  match s.faceWith nodes with
  | .ok _ => .ok s
  | .error .notFound => do
      let s ← s.grow
      let face := s.n
      let adj ← register s.adj nodes face
      .ok { s with n := s.n + 1, f2n := Function.update s.f2n face nodes, adj := adj }
  | .error status => .error status

/-- The nodes of the faces of one cell store, cell by cell. -/
def cellFaces (s : RefCell) : List (Nat → Int) :=
  s.validCells.flatMap fun cell => s.cellType.f2n.map fun face => s.faceNodes cell face

/-- The nodes that `ref_face_create` passes to `ref_face_add_uniquely`. -/
def gridFaces (twod : Bool) (g : RefGrid D) : List (Nat → Int) :=
  (if twod then types2d else types3d).flatMap fun t => cellFaces (g.cell t)

/-- `ref_face_create`, over memory `mem` that the allocations do not clear. -/
def create (mem : RefFace) (twod : Bool) (g : RefGrid D) : Except Status RefFace :=
  (gridFaces twod g).foldlM addUniquely
    { n := 0, max := 10, f2n := mem.f2n, adj := RefAdj.create mem.adj }

/-! ## Canonical forms -/

/-- The face has the node. -/
def Has (nodes : Nat → Int) (x : Int) : Prop := ∃ i, i < 4 ∧ nodes i = x

/-- Two faces have the same node set. -/
def SameNodes (nodes nodes' : Nat → Int) : Prop := ∀ x, Has nodes x ↔ Has nodes' x

/-- The face is a triangle or a quadrilateral: three of its nodes differ. -/
def ThreeNodes (nodes : Nat → Int) : Prop :=
  ∃ x y z, x ≠ y ∧ y ≠ z ∧ x ≠ z ∧ Has nodes x ∧ Has nodes y ∧ Has nodes z

theorem has_iff {nodes : Nat → Int} {x : Int} :
    Has nodes x ↔ nodes 0 = x ∨ nodes 1 = x ∨ nodes 2 = x ∨ nodes 3 = x := by
  constructor
  · intro h
    obtain ⟨i, hi, hx⟩ := h
    match i, hi with
    | 0, _ => exact Or.inl hx
    | 1, _ => exact Or.inr (Or.inl hx)
    | 2, _ => exact Or.inr (Or.inr (Or.inl hx))
    | 3, _ => exact Or.inr (Or.inr (Or.inr hx))
  · intro h
    rcases h with h | h | h | h
    · exact ⟨0, by decide, h⟩
    · exact ⟨1, by decide, h⟩
    · exact ⟨2, by decide, h⟩
    · exact ⟨3, by decide, h⟩

theorem SameNodes.symm {nodes nodes' : Nat → Int} (h : SameNodes nodes nodes') :
    SameNodes nodes' nodes := fun x => (h x).symm

theorem SameNodes.trans {nodes nodes' nodes'' : Nat → Int} (h : SameNodes nodes nodes')
    (h' : SameNodes nodes' nodes'') : SameNodes nodes nodes'' := fun x => (h x).trans (h' x)

theorem SameNodes.of_eq {nodes nodes' : Nat → Int} (h : ∀ i, i < 4 → nodes i = nodes' i) :
    SameNodes nodes nodes' := by
  intro x
  rw [has_iff, has_iff, h 0 (by decide), h 1 (by decide), h 2 (by decide), h 3 (by decide)]

theorem SameNodes.three {nodes nodes' : Nat → Int} (h : SameNodes nodes nodes')
    (h3 : ThreeNodes nodes) : ThreeNodes nodes' := by
  obtain ⟨x, y, z, hxy, hyz, hxz, hx, hy, hz⟩ := h3
  exact ⟨x, y, z, hxy, hyz, hxz, (h x).mp hx, (h y).mp hy, (h z).mp hz⟩

/-- Any order of the four places gives the same node set. -/
theorem SameNodes.comp (nodes : Nat → Int) {order : Nat → Nat}
    (hlt : ∀ i, i < 4 → order i < 4) (hsurj : ∀ i, i < 4 → ∃ j, j < 4 ∧ order j = i) :
    SameNodes (fun i => nodes (order i)) nodes := by
  intro x
  constructor
  · intro h
    obtain ⟨i, hi, hx⟩ := h
    exact ⟨order i, hlt i hi, hx⟩
  · intro h
    obtain ⟨i, hi, hx⟩ := h
    obtain ⟨j, hj, rfl⟩ := hsurj i hi
    exact ⟨j, hj, hx⟩

/-- The four sorted nodes of a face. -/
theorem sorted_spec (nodes : Nat → Int) :
    sortInsertion 4 nodes 0 ≤ sortInsertion 4 nodes 1 ∧
      sortInsertion 4 nodes 1 ≤ sortInsertion 4 nodes 2 ∧
      sortInsertion 4 nodes 2 ≤ sortInsertion 4 nodes 3 ∧
      ∀ x, Has (sortInsertion 4 nodes) x ↔ Has nodes x := by
  obtain ⟨hasc, hmem⟩ := sortInsertion_spec 4 nodes
  exact ⟨hasc 0 1 (by decide) (by decide), hasc 1 2 (by decide) (by decide),
    hasc 2 3 (by decide) (by decide), hmem⟩

/-- The canonical form has the nodes of the face and maybe `REF_EMPTY`. -/
theorem has_makeCanonical (nodes : Nat → Int) {x : Int} (hx : 0 ≤ x) :
    Has (makeCanonical nodes) x ↔ Has nodes x := by
  have hne : refEmpty ≠ x := by
    unfold refEmpty
    omega
  rw [← (sorted_spec nodes).2.2.2 x, has_iff, has_iff]
  simp only [makeCanonical]
  split
  · rename_i h01
    simp [hne, h01]
  · split
    · rename_i h12
      simp [hne, h12]
    · split
      · rename_i h23
        simp [hne, h23]
      · exact Iff.rfl

/-- Faces that match have the same node set. -/
theorem sameNodes_of_matches {nodes nodes' : Nat → Int} (hpos : ∀ i, i < 4 → 0 ≤ nodes i)
    (hpos' : ∀ i, i < 4 → 0 ≤ nodes' i)
    (h : Matches (makeCanonical nodes) (makeCanonical nodes')) : SameNodes nodes nodes' := by
  intro x
  by_cases hx : 0 ≤ x
  · obtain ⟨h0, h1, h2, h3⟩ := h
    rw [← has_makeCanonical nodes hx, ← has_makeCanonical nodes' hx, has_iff, has_iff, h0, h1, h2,
      h3]
  · constructor
    · intro hin
      obtain ⟨i, hi, rfl⟩ := hin
      exact absurd (hpos i hi) hx
    · intro hin
      obtain ⟨i, hi, rfl⟩ := hin
      exact absurd (hpos' i hi) hx

theorem Matches.symm {target candidate : Nat → Int} (h : Matches target candidate) :
    Matches candidate target :=
  ⟨h.1.symm, h.2.1.symm, h.2.2.1.symm, h.2.2.2.symm⟩

/-- Three different nodes are not among two. -/
theorem ThreeNodes.not_two {nodes : Nat → Int} (h : ThreeNodes nodes) (p q : Int) :
    ¬ ∀ x, Has nodes x → x = p ∨ x = q := by
  intro hcover
  obtain ⟨x, y, z, hxy, hyz, hxz, hx, hy, hz⟩ := h
  have hx := hcover x hx
  have hy := hcover y hy
  have hz := hcover z hz
  omega

/-- The canonical form of a triangle or a quadrilateral is ascending. -/
theorem makeCanonical_ascending {nodes : Nat → Int} (hpos : ∀ i, i < 4 → 0 ≤ nodes i)
    (h3 : ThreeNodes nodes) :
    refEmpty ≤ makeCanonical nodes 0 ∧ makeCanonical nodes 0 < makeCanonical nodes 1 ∧
      makeCanonical nodes 1 < makeCanonical nodes 2 ∧
      makeCanonical nodes 2 < makeCanonical nodes 3 := by
  obtain ⟨h01, h12, h23, hmem⟩ := sorted_spec nodes
  have hfirst : 0 ≤ sortInsertion 4 nodes 0 := by
    obtain ⟨i, hi, hx⟩ := (hmem _).mp ⟨0, by decide, rfl⟩
    exact hx ▸ hpos i hi
  have hsorted : ThreeNodes (sortInsertion 4 nodes) := (SameNodes.symm hmem).three h3
  unfold makeCanonical
  generalize sortInsertion 4 nodes = a at *
  have hlow : refEmpty < a 0 := by
    unfold refEmpty
    omega
  -- two of the three steps of the sorted nodes are proper
  have hstep01 : a 0 = a 1 → a 1 < a 2 ∧ a 2 < a 3 := by
    intro heq
    constructor
    · by_contra hnot
      exact hsorted.not_two (a 0) (a 3) fun x hx => by have := has_iff.mp hx; omega
    · by_contra hnot
      exact hsorted.not_two (a 0) (a 3) fun x hx => by have := has_iff.mp hx; omega
  have hstep12 : a 1 = a 2 → a 0 < a 1 ∧ a 2 < a 3 := by
    intro heq
    constructor
    · by_contra hnot
      exact hsorted.not_two (a 0) (a 3) fun x hx => by have := has_iff.mp hx; omega
    · by_contra hnot
      exact hsorted.not_two (a 0) (a 3) fun x hx => by have := has_iff.mp hx; omega
  by_cases heq01 : a 0 = a 1
  · obtain ⟨h1, h2⟩ := hstep01 heq01
    rw [if_pos heq01]
    simp
    omega
  · rw [if_neg heq01]
    by_cases heq12 : a 1 = a 2
    · obtain ⟨h1, h2⟩ := hstep12 heq12
      rw [if_pos heq12]
      simp
      omega
    · rw [if_neg heq12]
      by_cases heq23 : a 2 = a 3
      · rw [if_pos heq23]
        simp
        omega
      · rw [if_neg heq23]
        omega

/-- Ascending lists of four that have the same members up to `REF_EMPTY` are
equal, compared from the last place down. -/
theorem ascending_matches {a b : Nat → Int}
    (ha : refEmpty ≤ a 0 ∧ a 0 < a 1 ∧ a 1 < a 2 ∧ a 2 < a 3)
    (hb : refEmpty ≤ b 0 ∧ b 0 < b 1 ∧ b 1 < b 2 ∧ b 2 < b 3)
    (h : ∀ x, 0 ≤ x → (Has a x ↔ Has b x)) : Matches a b := by
  unfold refEmpty at ha hb
  have hto : ∀ i, i < 4 → 0 ≤ a i → b 0 = a i ∨ b 1 = a i ∨ b 2 = a i ∨ b 3 = a i :=
    fun i hi hpos => has_iff.mp ((h _ hpos).mp ⟨i, hi, rfl⟩)
  have hfrom : ∀ i, i < 4 → 0 ≤ b i → a 0 = b i ∨ a 1 = b i ∨ a 2 = b i ∨ a 3 = b i :=
    fun i hi hpos => has_iff.mp ((h _ hpos).mpr ⟨i, hi, rfl⟩)
  have h3 : a 3 = b 3 := by
    have h1 := hto 3 (by decide) (by omega)
    have h2 := hfrom 3 (by decide) (by omega)
    omega
  have h2 : a 2 = b 2 := by
    have h1 := hto 2 (by decide) (by omega)
    have h2 := hfrom 2 (by decide) (by omega)
    omega
  have h1 : a 1 = b 1 := by
    have h1 := hto 1 (by decide) (by omega)
    have h2 := hfrom 1 (by decide) (by omega)
    omega
  have h0 : a 0 = b 0 := by
    have h1 := hto 0 (by decide)
    have h2 := hfrom 0 (by decide)
    omega
  exact ⟨h0, h1, h2, h3⟩

/-- Triangles and quadrilaterals match exactly when they have the same node
set. -/
theorem matches_iff {nodes nodes' : Nat → Int} (hpos : ∀ i, i < 4 → 0 ≤ nodes i)
    (hpos' : ∀ i, i < 4 → 0 ≤ nodes' i) (h3 : ThreeNodes nodes) :
    Matches (makeCanonical nodes) (makeCanonical nodes') ↔ SameNodes nodes nodes' := by
  constructor
  · exact sameNodes_of_matches hpos hpos'
  · intro h
    apply ascending_matches (makeCanonical_ascending hpos h3)
      (makeCanonical_ascending hpos' (h.three h3))
    intro x hx
    rw [has_makeCanonical nodes hx, has_makeCanonical nodes' hx]
    exact h x

/-! ## The invariant -/

/-- The nodes that `ref_face_add_uniquely` registers a face with. -/
def ends (row : Nat → Int) : List Int :=
  [row 0, row 1, row 2] ++ if row 0 ≠ row 3 then [row 3] else []

/-- How often a face is registered with a node. -/
def occupancy (s : RefFace) (face : Nat) (v : Int) : Nat :=
  if face < s.n then (ends (s.f2n face)).count v else 0

/-- The invariant of the face store. -/
structure FaceInv (s : RefFace) : Prop where
  registers : Registers s.adj s.occupancy
  nonneg : ∀ f, f < s.n → ∀ i, i < 4 → 0 ≤ s.f2n f i
  distinct : ∀ f f', f < s.n → f' < s.n →
    Matches (makeCanonical (s.f2n f)) (makeCanonical (s.f2n f')) → f' = f

theorem mem_ends {row : Nat → Int} {x : Int} : x ∈ ends row ↔ Has row x := by
  rw [has_iff, ends]
  split
  · simp [eq_comm]
  · simp
    grind

theorem length_ends (row : Nat → Int) : (ends row).length ≤ 4 := by
  rw [ends]
  split <;> simp

/-- The registration is one loop over `ends`. -/
theorem register_eq (adj : RefAdj) (row : Nat → Int) (face : Nat) :
    register adj row face = (ends row).foldlM (fun adj v => RefAdj.add adj v face) adj := by
  have hthree : (List.range 3).foldlM (fun adj node => RefAdj.add adj (row node) face) adj =
      [row 0, row 1, row 2].foldlM (fun adj v => RefAdj.add adj v face) adj := by
    rw [show [row 0, row 1, row 2] = (List.range 3).map row from rfl, List.foldlM_map]
  rw [register, ends, List.foldlM_append, hthree]
  congr 1
  funext adj
  split
  · rw [List.foldlM_cons]
    exact (bind_pure _).symm
  · rfl

section Invariant

variable {s s' : RefFace}

theorem FaceInv.mem_refs (h : s.FaceInv) {v : Int} {f : Nat} :
    f ∈ (s.adj.refs v).map Int.toNat ↔ f < s.n ∧ Has (s.f2n f) v := by
  rw [h.registers.mem_refs, occupancy]
  split
  · rename_i hf
    rw [List.count_pos_iff, mem_ends]
    exact (and_iff_right hf).symm
  · rename_i hf
    simp [hf]

/-- **`ref_face_with`** answers a face that matches, or `REF_NOT_FOUND` when
none with the first node does. -/
theorem faceWith_spec (h : s.FaceInv) (nodes : Nat → Int) :
    (∃ f, s.faceWith nodes = .ok f ∧ f < s.n ∧
        Matches (makeCanonical nodes) (makeCanonical (s.f2n f))) ∨
      s.faceWith nodes = .error .notFound ∧ ∀ f, f < s.n → Has (s.f2n f) (nodes 0) →
        ¬ Matches (makeCanonical nodes) (makeCanonical (s.f2n f)) := by
  cases hfind : ((s.adj.refs (nodes 0)).map Int.toNat).find? fun ref =>
      Matches (makeCanonical nodes) (makeCanonical (s.f2n ref)) with
  | some f =>
      refine Or.inl ⟨f, by simp only [faceWith, hfind], ?_, ?_⟩
      · exact (h.mem_refs.mp (List.mem_of_find?_eq_some hfind)).1
      · simpa using List.find?_some hfind
  | none =>
      refine Or.inr ⟨by simp only [faceWith, hfind], ?_⟩
      intro f hf hhas hm
      exact List.find?_eq_none.mp hfind f (h.mem_refs.mpr ⟨hf, hhas⟩) (by simpa using hm)

/-- **Any order** of the nodes of a stored triangle or quadrilateral finds it. -/
theorem faceWith_of_sameNodes (h : s.FaceInv) {f : Nat} (hf : f < s.n) {nodes : Nat → Int}
    (hsame : SameNodes nodes (s.f2n f)) (h3 : ThreeNodes nodes) : s.faceWith nodes = .ok f := by
  have hpos : ∀ i, i < 4 → 0 ≤ nodes i := by
    intro i hi
    obtain ⟨j, hj, hx⟩ := (hsame (nodes i)).mp ⟨i, hi, rfl⟩
    exact hx ▸ h.nonneg f hf j hj
  have hm := (matches_iff hpos (h.nonneg f hf) h3).mpr hsame
  rcases faceWith_spec h nodes with ⟨f', hrun, hf', hm'⟩ | ⟨_, hnone⟩
  · rw [hrun]
    congr 1
    apply h.distinct f f' hf hf'
    unfold Matches at *
    omega
  · exact absurd hm (hnone f hf ((hsame _).mp ⟨0, by decide, rfl⟩))

/-- Two stored triangles or quadrilaterals have different node sets. -/
theorem FaceInv.unique (h : s.FaceInv) {f f' : Nat} (hf : f < s.n) (hf' : f' < s.n)
    (hsame : SameNodes (s.f2n f) (s.f2n f')) (h3 : ThreeNodes (s.f2n f)) : f' = f :=
  h.distinct f f' hf hf' ((matches_iff (h.nonneg f hf) (h.nonneg f' hf') h3).mpr hsame)

/-! ## Filling the store -/

theorem grow_eq (hrun : s.grow = .ok s') :
    s'.n = s.n ∧ s'.f2n = s.f2n ∧ s'.adj = s.adj ∧ (s.n ≤ s.max → s'.n < s'.max) := by
  simp only [RefFace.grow] at hrun
  split at hrun
  · rename_i hlt
    obtain rfl : s = s' := Except.ok.inj hrun
    exact ⟨rfl, rfl, rfl, fun _ => hlt⟩
  · split at hrun
    · cases hrun
    · obtain rfl := Except.ok.inj hrun
      have hchunk : 5000 ≤ Nat.max 5000 (3 * s.max / 2) := Nat.le_max_left _ _
      exact ⟨rfl, rfl, rfl, fun hle => by dsimp only; omega⟩

/-- **`ref_face_add_uniquely`** adds the face unless it is there. -/
theorem FaceInv.addUniquely (h : s.FaceInv) (hle : s.n ≤ s.max) {nodes : Nat → Int}
    (hpos : ∀ i, i < 4 → 0 ≤ nodes i) (hrun : s.addUniquely nodes = .ok s') :
    s'.FaceInv ∧ s'.n ≤ s'.max ∧ s.n ≤ s'.n ∧ (∀ f, f < s.n → s'.f2n f = s.f2n f) ∧
      (∃ f, f < s'.n ∧ SameNodes nodes (s'.f2n f)) ∧
      ∀ f, s.n ≤ f → f < s'.n → s'.f2n f = nodes := by
  rcases faceWith_spec h nodes with ⟨f, hwith, hf, hm⟩ | ⟨hwith, hnone⟩
  · simp only [RefFace.addUniquely, hwith] at hrun
    obtain rfl : s = s' := Except.ok.inj hrun
    exact ⟨h, hle, le_rfl, fun _ _ => rfl, ⟨f, hf, sameNodes_of_matches hpos (h.nonneg f hf) hm⟩,
      fun f h1 h2 => absurd h2 (by omega)⟩
  · simp only [RefFace.addUniquely, hwith, bind_eq_ok] at hrun
    obtain ⟨s1, hgrow, adj, hadd, hret⟩ := hrun
    obtain ⟨hn, hf2n, hadj, hlt⟩ := grow_eq hgrow
    have hlt := hlt hle
    rw [hadj, register_eq] at hadd
    obtain ⟨_, hreg⟩ := h.registers.addAll hadd
    obtain rfl := Except.ok.inj hret
    have hold : ∀ f, f < s.n → Function.update s1.f2n s1.n nodes f = s.f2n f := by
      intro f hf
      rw [Function.update_of_ne (by omega), hf2n]
    have hself : Function.update s1.f2n s1.n nodes s1.n = nodes := Function.update_self _ _ _
    refine ⟨⟨?_, ?_, ?_⟩, hlt, by simp [hn], hold, ⟨s1.n, Nat.lt_succ_self _, ?_⟩, ?_⟩
    · refine hreg.congr fun f v => ?_
      simp only [occupancy]
      by_cases hf : f < s.n
      · rw [if_pos (by omega), if_pos hf, hold f hf, if_neg (by omega), Nat.add_zero]
      · by_cases heq : f = s1.n
        · rw [if_pos (by omega), if_neg hf, if_pos heq, heq, hself, Nat.zero_add]
        · rw [if_neg (by omega), if_neg hf, if_neg heq]
    · intro f hf i hi
      dsimp only at hf ⊢
      by_cases hfs : f < s.n
      · rw [hold f hfs]
        exact h.nonneg f hfs i hi
      · rw [show f = s1.n by omega, hself]
        exact hpos i hi
    · -- the new face matches none that has its first node
      have hnew : ∀ f, f < s.n → ¬ Matches (makeCanonical nodes) (makeCanonical (s.f2n f)) := by
        intro f hf hm
        have hsame := sameNodes_of_matches hpos (h.nonneg f hf) hm
        exact hnone f hf ((hsame (nodes 0)).mp ⟨0, by decide, rfl⟩) hm
      intro f f' hf hf' hm
      dsimp only at hf hf' hm
      by_cases hfs : f < s.n
      · rw [hold f hfs] at hm
        by_cases hfs' : f' < s.n
        · rw [hold f' hfs'] at hm
          exact h.distinct f f' hfs hfs' hm
        · rw [show f' = s1.n by omega, hself] at hm
          exact absurd hm.symm (hnew f hfs)
      · by_cases hfs' : f' < s.n
        · rw [hold f' hfs', show f = s1.n by omega, hself] at hm
          exact absurd hm (hnew f' hfs')
        · omega
    · dsimp only
      rw [hself]
      exact fun x => Iff.rfl
    · intro f hge hlt'
      dsimp only at hlt' ⊢
      rw [show f = s1.n by omega, hself]

/-- The faces of the store are those of a list. -/
structure Lists (s : RefFace) (faces : List (Nat → Int)) : Prop where
  inv : s.FaceInv
  listed : ∀ f, f < s.n → s.f2n f ∈ faces
  found : ∀ nodes ∈ faces, ∃ f, f < s.n ∧ SameNodes nodes (s.f2n f)

theorem empty_inv (mem : RefAdj) {f2n : Nat → Nat → Int} {max : Nat} :
    (RefFace.mk 0 max f2n (RefAdj.create mem)).FaceInv := by
  have hcreate := RefAdj.create_inv mem
  refine ⟨⟨hcreate.1, fun v c => ?_, fun v r hr => ?_⟩, fun f hf => absurd hf (Nat.not_lt_zero f),
    fun f f' hf => absurd hf (Nat.not_lt_zero f)⟩
  · rw [RefAdj.refs, hcreate.2 v]
    simp [occupancy]
  · rw [RefAdj.refs, hcreate.2 v] at hr
    cases hr

/-- **`ref_face_create`** stores each face of the grid. -/
theorem create_lists {mem : RefFace} {twod : Bool} {g : RefGrid D}
    (hpos : ∀ nodes ∈ gridFaces twod g, ∀ i, i < 4 → 0 ≤ nodes i)
    (hrun : create mem twod g = .ok s') : s'.Lists (gridFaces twod g) := by
  have hloop := foldlM_inv
    (fun done rest s => RefFace.Lists s done ∧ RefFace.n s ≤ RefFace.max s ∧
      done ++ rest = gridFaces twod g)
    (by
      intro done nodes rest s s' h hstep
      obtain ⟨h, hle, hsplit⟩ := h
      have hmem : nodes ∈ gridFaces twod g := by
        rw [← hsplit]
        simp
      obtain ⟨hinv, hle', hmono, hold, ⟨f, hf, hsame⟩, hnew⟩ :=
        h.inv.addUniquely hle (hpos nodes hmem) hstep
      refine ⟨⟨hinv, ?_, ?_⟩, hle', by simpa using hsplit⟩
      · intro f hf
        by_cases hfs : f < s.n
        · rw [hold f hfs]
          exact List.mem_append_left _ (h.listed f hfs)
        · rw [hnew f (by omega) hf]
          simp
      · intro row hrow
        rcases List.mem_append.mp hrow with hrow | hrow
        · obtain ⟨f, hf, hsame⟩ := h.found row hrow
          exact ⟨f, by omega, by rwa [hold f hf]⟩
        · rw [List.mem_singleton.mp hrow]
          exact ⟨f, hf, hsame⟩)
    ⟨⟨empty_inv mem.adj, fun f hf => absurd hf (Nat.not_lt_zero f),
      fun nodes hn => absurd hn List.not_mem_nil⟩, Nat.zero_le _, List.nil_append _⟩ hrun
  exact hloop.1

/-- A triangle or a quadrilateral of the list is stored once. -/
theorem Lists.once {faces : List (Nat → Int)} (h : s.Lists faces) {nodes : Nat → Int}
    (hin : nodes ∈ faces) (h3 : ThreeNodes nodes) :
    ∃ f, (f < s.n ∧ SameNodes nodes (s.f2n f)) ∧
      ∀ f', f' < s.n ∧ SameNodes nodes (s.f2n f') → f' = f := by
  obtain ⟨f, hf, hsame⟩ := h.found nodes hin
  refine ⟨f, ⟨hf, hsame⟩, fun f' hf' => ?_⟩
  exact h.inv.unique hf hf'.1 (hsame.symm.trans hf'.2) (hsame.three h3)

/-! ## Room for the faces -/

/-- `ref_face_add_uniquely` succeeds away from the limits of `REF_INT`. -/
theorem FaceInv.addUniquely_ok (h : s.FaceInv) (hle : s.n ≤ s.max) {used : Nat}
    (hstock : s.adj.Stocked used) (hused : used ≤ 4 * s.n)
    (hfit : 4 * (s.n + Nat.max 5000 (3 * s.n / 2)) ≤ refIntMax) {nodes : Nat → Int}
    (hrange : ∀ i, i < 4 → 0 ≤ nodes i ∧ nodes i + 100 ≤ refIntMax) :
    ∃ s', s.addUniquely nodes = .ok s' ∧ s'.n ≤ s.n + 1 ∧
      ∃ used', s'.adj.Stocked used' ∧ used' ≤ 4 * s'.n := by
  rcases faceWith_spec h nodes with ⟨f, hwith, _, _⟩ | ⟨hwith, _⟩
  · exact ⟨s, by simp only [RefFace.addUniquely, hwith], by omega, used, hstock, hused⟩
  · have hgrow : ∃ s1, s.grow = .ok s1 ∧ s1.n = s.n ∧ s1.adj = s.adj := by
      by_cases hlt : s.n < s.max
      · exact ⟨s, by simp [RefFace.grow, hlt], rfl, rfl⟩
      · have hmax : s.max = s.n := by omega
        simp only [RefFace.grow, hlt, if_false]
        rw [if_neg (by rw [hmax]; omega)]
        exact ⟨_, rfl, rfl, rfl⟩
    obtain ⟨s1, hrun1, hn, hadj⟩ := hgrow
    have hlen := length_ends nodes
    have hroom : used + (ends nodes).length ≤ refIntMax := by
      have : 5000 ≤ Nat.max 5000 (3 * s.n / 2) := Nat.le_max_left _ _
      omega
    obtain ⟨adj, hadd, hstock'⟩ := RefCell.addAll_ok (c := s.n) hstock hroom fun v hv => by
      obtain ⟨i, hi, rfl⟩ := mem_ends.mp hv
      exact hrange i hi
    simp only [RefFace.addUniquely, hwith, bind_eq_ok, hrun1, Except.ok.injEq, exists_eq_left', hn,
      hadj, register_eq, hadd]
    exact ⟨le_rfl, _, hstock', by omega⟩

/-- **`ref_face_create` succeeds** when the rows of the faces are counted in a
`REF_INT`. -/
theorem create_ok (mem : RefFace) {twod : Bool} {g : RefGrid D}
    (hfaces : 11 * (gridFaces twod g).length ≤ refIntMax)
    (hrange : ∀ nodes ∈ gridFaces twod g, ∀ i, i < 4 → 0 ≤ nodes i ∧ nodes i + 100 ≤ refIntMax) :
    ∃ s', create mem twod g = .ok s' := by
  have hloop := foldlM_exists (f := RefFace.addUniquely) (l := gridFaces twod g)
    (b := { n := 0, max := 10, f2n := mem.f2n, adj := RefAdj.create mem.adj })
    (fun done rest s => s.FaceInv ∧ s.n ≤ s.max ∧ s.n ≤ done.length ∧
      done ++ rest = gridFaces twod g ∧ ∃ used, s.adj.Stocked used ∧ used ≤ 4 * s.n)
    (by
      intro done nodes rest s h
      obtain ⟨hinv, hle, hn, hsplit, used, hstock, hused⟩ := h
      have hmem : nodes ∈ gridFaces twod g := by
        rw [← hsplit]
        simp
      have hlen : done.length < (gridFaces twod g).length := by
        rw [← hsplit]
        simp
      have hfit : 4 * (s.n + Nat.max 5000 (3 * s.n / 2)) ≤ refIntMax := by
        have hmax : Nat.max 5000 (3 * s.n / 2) ≤ 5000 + 3 * s.n / 2 :=
          Nat.max_le.mpr ⟨by omega, by omega⟩
        unfold refIntMax at *
        omega
      obtain ⟨s', hrun, hn', hstock'⟩ :=
        hinv.addUniquely_ok hle hstock hused hfit (hrange nodes hmem)
      obtain ⟨hinv', hle', _⟩ := hinv.addUniquely hle (fun i hi => (hrange nodes hmem i hi).1) hrun
      refine ⟨s', hrun, hinv', hle', ?_, by simpa using hsplit, hstock'⟩
      rw [List.length_append, List.length_singleton]
      omega)
    ⟨empty_inv mem.adj, Nat.zero_le _, Nat.zero_le _, List.nil_append _, 0,
      RefAdj.create_stocked mem.adj, Nat.zero_le _⟩
  obtain ⟨s', hrun, _⟩ := hloop
  exact ⟨s', hrun⟩

/-! ## The faces of a grid -/

/-- The cells behind a face. -/
theorem mem_gridFaces {twod : Bool} {g : RefGrid D} {nodes : Nat → Int} :
    nodes ∈ gridFaces twod g ↔ ∃ t ∈ if twod then types2d else types3d, ∃ c, (g.cell t).Live c ∧
      ∃ face ∈ (g.cell t).cellType.f2n, (g.cell t).faceNodes c face = nodes := by
  simp only [gridFaces, cellFaces, List.mem_flatMap, List.mem_map, RefCell.mem_validCells]

/-- The nodes of a face are nodes of its cell. -/
theorem exists_cell_of_gridFaces {twod : Bool} {g : RefGrid D} {nodes : Nat → Int}
    (hin : nodes ∈ gridFaces twod g) {i : Nat} (hi : i < 4) :
    ∃ t c, (g.cell t).Live c ∧ nodes i ∈ (g.cell t).nodeList c := by
  obtain ⟨t, _, c, hc, face, hface, rfl⟩ := mem_gridFaces.mp hin
  have hin : (g.cell t).faceNodes c face i ∈ (CellType.places face).map ((g.cell t).c2n c) :=
    RefCell.exists_faceNodes_places.mp ⟨i, hi, rfl⟩
  obtain ⟨place, hplace, hx⟩ := List.mem_map.mp hin
  refine ⟨t, c, hc, RefCell.mem_nodeList.mpr ⟨place, ?_, hx⟩⟩
  exact CellType.places_lt hface place hplace

theorem gridFaces_nonneg {twod : Bool} {g : RefGrid D} (hcells : g.CellsInv) {nodes : Nat → Int}
    (hin : nodes ∈ gridFaces twod g) {i : Nat} (hi : i < 4) : 0 ≤ nodes i := by
  obtain ⟨t, c, hc, hv⟩ := exists_cell_of_gridFaces hin hi
  exact (hcells.inv t).nonneg c hc _ hv

end Invariant

end RefFace

end RefineMesh
