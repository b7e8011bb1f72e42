import Mathlib.Tactic
import RefineMesh.Chains

/-!
# Subdivisions

A marking chooses edges and puts a vertex on each.  A triangle with one or
three marked edges and a tetrahedron with one edge, the three edges of a face
or all edges marked is cut into smaller ones; the pieces of a tetrahedron have
the pieces of its faces as their boundary, so neighbours fit whatever their
patterns are.
-/

namespace Chains

variable {V : Type*} [DecidableEq V]

/-- Edges that are marked, with a vertex between the ends of each. -/
structure Marking (V : Type*) where
  marked : V → V → Bool
  mid : V → V → V
  marked_comm : ∀ a b, marked a b = marked b a
  mid_comm : ∀ a b, mid a b = mid b a

namespace Marking

variable (m : Marking V)

/-- The triangles in place of a triangle.  Two marked edges would leave a
quadrilateral: such a triangle is left alone here. -/
def triPieces (f : Tri V) : List (Tri V) :=
  match m.marked f.1 f.2.1, m.marked f.2.1 f.2.2, m.marked f.2.2 f.1 with
  | true, false, false => [(m.mid f.1 f.2.1, f.2.1, f.2.2), (f.1, m.mid f.1 f.2.1, f.2.2)]
  | false, true, false => [(f.1, m.mid f.2.1 f.2.2, f.2.2), (f.1, f.2.1, m.mid f.2.1 f.2.2)]
  | false, false, true => [(f.1, f.2.1, m.mid f.2.2 f.1), (m.mid f.2.2 f.1, f.2.1, f.2.2)]
  | true, true, true =>
      [(f.1, m.mid f.1 f.2.1, m.mid f.1 f.2.2), (m.mid f.2.1 f.1, f.2.1, m.mid f.2.1 f.2.2),
        (m.mid f.2.2 f.1, m.mid f.2.2 f.2.1, f.2.2),
        (m.mid f.1 f.2.1, m.mid f.2.1 f.2.2, m.mid f.2.2 f.1)]
  | _, _, _ => [f]

/-- The marked edges of a tetrahedron as a binary number. -/
def tetMap (t : Tet V) : Nat :=
  (m.marked t.1 t.2.1).toNat + 2 * (m.marked t.1 t.2.2.1).toNat +
    4 * (m.marked t.1 t.2.2.2).toNat + 8 * (m.marked t.2.1 t.2.2.1).toNat +
    16 * (m.marked t.2.1 t.2.2.2).toNat + 32 * (m.marked t.2.2.1 t.2.2.2).toNat

/-- The pieces of a tetrahedron with the edges of its last face marked. -/
def fourPieces (t : Tet V) : List (Tet V) :=
  [(t.1, m.mid t.1 t.2.1, m.mid t.1 t.2.2.1, t.2.2.2),
    (m.mid t.2.1 t.1, t.2.1, m.mid t.2.1 t.2.2.1, t.2.2.2),
    (m.mid t.2.2.1 t.1, m.mid t.2.2.1 t.2.1, t.2.2.1, t.2.2.2),
    (m.mid t.1 t.2.1, m.mid t.2.1 t.2.2.1, m.mid t.2.2.1 t.1, t.2.2.2)]

/-- The pieces of a tetrahedron with all edges marked: the corners and an
octahedron cut along the line from the first edge to the last. -/
def eightPieces (t : Tet V) : List (Tet V) :=
  let e0 := m.mid t.1 t.2.1
  let e1 := m.mid t.1 t.2.2.1
  let e2 := m.mid t.1 t.2.2.2
  let e3 := m.mid t.2.1 t.2.2.1
  let e4 := m.mid t.2.1 t.2.2.2
  let e5 := m.mid t.2.2.1 t.2.2.2
  [(e0, e2, e1, t.1), (e0, e3, e4, t.2.1), (e1, e5, e3, t.2.2.1), (e2, e4, e5, t.2.2.2),
    (e0, e5, e1, e2), (e0, e5, e2, e4), (e0, e5, e4, e3), (e0, e5, e3, e1)]

/-- The tetrahedra in place of a tetrahedron. -/
def tetPieces (t : Tet V) : List (Tet V) :=
  match m.tetMap t with
  | 1 => [(m.mid t.1 t.2.1, t.2.1, t.2.2.1, t.2.2.2), (t.1, m.mid t.1 t.2.1, t.2.2.1, t.2.2.2)]
  | 2 => [(m.mid t.1 t.2.2.1, t.2.1, t.2.2.1, t.2.2.2), (t.1, t.2.1, m.mid t.1 t.2.2.1, t.2.2.2)]
  | 4 => [(m.mid t.1 t.2.2.2, t.2.1, t.2.2.1, t.2.2.2), (t.1, t.2.1, t.2.2.1, m.mid t.1 t.2.2.2)]
  | 8 => [(t.1, m.mid t.2.1 t.2.2.1, t.2.2.1, t.2.2.2), (t.1, t.2.1, m.mid t.2.1 t.2.2.1, t.2.2.2)]
  | 16 => [(t.1, m.mid t.2.1 t.2.2.2, t.2.2.1, t.2.2.2), (t.1, t.2.1, t.2.2.1, m.mid t.2.1 t.2.2.2)]
  | 32 => [(t.1, t.2.1, m.mid t.2.2.1 t.2.2.2, t.2.2.2), (t.1, t.2.1, t.2.2.1, m.mid t.2.2.1 t.2.2.2)]
  | 11 => m.fourPieces t
  | 56 => m.fourPieces (t.2.2.2, t.2.2.1, t.2.1, t.1)
  | 38 => m.fourPieces (t.2.2.1, t.2.2.2, t.1, t.2.1)
  | 21 => m.fourPieces (t.2.1, t.1, t.2.2.2, t.2.2.1)
  | 63 => m.eightPieces t
  | _ => [t]

/-- The markings that can be cut. -/
def cuttable : List Nat := [0, 1, 2, 4, 8, 16, 32, 11, 56, 38, 21, 63]

/-- A triangle cut along its marked edges, as a chain. -/
def cutTri (f : Tri V) : Tri V → ℤ := chain (m.triPieces f : Multiset (Tri V))

theorem alternating_cutTri : Alternating m.cutTri := by
  constructor
  · intro a b c
    have hab := m.mid_comm a b
    have hbc := m.mid_comm b c
    have hca := m.mid_comm c a
    simp only [cutTri, triPieces]
    cases m.marked a b <;> cases m.marked b c <;> cases m.marked c a <;>
      simp only [← Multiset.cons_coe, Multiset.coe_nil, chain_cons, chain_zero, orient, hab, hbc, hca] <;>
      abel
  · intro a b c
    have hab := m.mid_comm a b
    have hbc := m.mid_comm b c
    have hca := m.mid_comm c a
    have h1 := m.marked_comm b a
    have h2 := m.marked_comm a c
    have h3 := m.marked_comm c b
    simp only [cutTri, triPieces, h1, h2, h3]
    cases m.marked a b <;> cases m.marked b c <;> cases m.marked c a <;>
      simp only [← Multiset.cons_coe, Multiset.coe_nil, chain_cons, chain_zero, orient, hab, hbc, hca] <;>
      abel

/-- The marks of the six edges, read off the number. -/
theorem marks_of_map {x0 x1 x2 x3 x4 x5 : Bool} {k : Nat}
    (h : x0.toNat + 2 * x1.toNat + 4 * x2.toNat + 8 * x3.toNat + 16 * x4.toNat + 32 * x5.toNat = k) :
    x0 = decide (k % 2 = 1) ∧ x1 = decide (k / 2 % 2 = 1) ∧ x2 = decide (k / 4 % 2 = 1) ∧
      x3 = decide (k / 8 % 2 = 1) ∧ x4 = decide (k / 16 % 2 = 1) ∧ x5 = decide (k / 32 % 2 = 1) := by
  subst h
  revert x0 x1 x2 x3 x4 x5
  decide

/-- The faces of a tetrahedron, cut. -/
theorem sum_cutTri (a b c d : V) :
    ((faces (a, b, c, d)).map m.cutTri).sum =
      m.cutTri (b, d, c) + m.cutTri (a, c, d) + m.cutTri (a, d, b) + m.cutTri (a, b, c) := by
  rw [map_faces]
  simp only [Multiset.insert_eq_cons, Multiset.sum_cons, Multiset.sum_singleton]
  abel

/-- **The pieces of a tetrahedron** have the pieces of its faces as boundary. -/
theorem boundary_tetPieces {t : Tet V} (ht : m.tetMap t ∈ cuttable) :
    boundary (m.tetPieces t : Multiset (Tet V)) = ((faces t).map m.cutTri).sum := by
  obtain ⟨a, b, c, d⟩ := t
  have hba := m.mid_comm b a
  have hca := m.mid_comm c a
  have hda := m.mid_comm d a
  have hcb := m.mid_comm c b
  have hdb := m.mid_comm d b
  have hdc := m.mid_comm d c
  have kba := m.marked_comm b a
  have kca := m.marked_comm c a
  have kda := m.marked_comm d a
  have kcb := m.marked_comm c b
  have kdb := m.marked_comm d b
  have kdc := m.marked_comm d c
  rw [sum_cutTri]
  simp only [cuttable, List.mem_cons, List.not_mem_nil, or_false] at ht
  -- one case for each pattern of marks
  rcases ht with h | h | h | h | h | h | h | h | h | h | h | h <;>
    obtain ⟨h0, h1, h2, h3, h4, h5⟩ := marks_of_map h <;>
    norm_num at h0 h1 h2 h3 h4 h5 <;>
    simp only [tetPieces, h, fourPieces, eightPieces, cutTri, triPieces, kba, kca, kda, kcb, kdb,
      kdc, h0, h1, h2, h3, h4, h5, hba, hca, hda, hcb, hdb, hdc, ← Multiset.cons_coe,
      Multiset.coe_nil, chain_cons, chain_zero, boundary_cons, boundary_zero, chain_faces, orient] <;>
    abel

/-! ## Faces and pieces -/

/-- Two of the three edges are marked. -/
def TwoMarked (f : Tri V) : Prop :=
  (m.marked f.1 f.2.1).toNat + (m.marked f.2.1 f.2.2).toNat + (m.marked f.2.2 f.1).toNat = 2

omit [DecidableEq V] in
theorem twoMarked_rotate {a b c : V} : m.TwoMarked (b, c, a) ↔ m.TwoMarked (a, b, c) := by
  simp only [TwoMarked]
  omega

omit [DecidableEq V] in
/-- No face of a tetrahedron that can be cut has two marked edges. -/
theorem not_twoMarked_of_faces {t : Tet V} (ht : m.tetMap t ∈ cuttable) {f : Tri V}
    (hf : f ∈ faces t) : ¬ m.TwoMarked f := by
  obtain ⟨a, b, c, d⟩ := t
  have kba := m.marked_comm b a
  have kca := m.marked_comm c a
  have kda := m.marked_comm d a
  have kcb := m.marked_comm c b
  have kdb := m.marked_comm d b
  have kdc := m.marked_comm d c
  simp only [faces, Multiset.insert_eq_cons, Multiset.mem_cons, Multiset.mem_singleton] at hf
  simp only [tetMap] at ht
  rcases hf with rfl | rfl | rfl | rfl <;> simp only [TwoMarked, kba, kca, kda, kcb, kdb, kdc] <;>
    generalize m.marked a b = x0 at * <;> generalize m.marked a c = x1 at * <;>
    generalize m.marked a d = x2 at * <;> generalize m.marked b c = x3 at * <;>
    generalize m.marked b d = x4 at * <;> generalize m.marked c d = x5 at * <;>
    clear kba kca kda kcb kdb kdc <;> revert x0 x1 x2 x3 x4 x5 <;> decide

omit [DecidableEq V] in
/-- How many pieces there are. -/
theorem length_tetPieces {t : Tet V} (ht : m.tetMap t ∈ cuttable) (h0 : m.tetMap t ≠ 0) :
    (m.tetPieces t).length ∈ [2, 4, 8] := by
  simp only [cuttable, List.mem_cons, List.not_mem_nil, or_false] at ht
  rcases ht with h | h | h | h | h | h | h | h | h | h | h | h <;>
    first
    | exact absurd h h0
    | simp [tetPieces, h, fourPieces, eightPieces]

/-- A corner of a collection, or the vertex on a marked edge between two. -/
def OldOrMid (old : List V) (x : V) : Prop :=
  x ∈ old ∨ ∃ a b, m.marked a b = true ∧ x = m.mid a b

omit [DecidableEq V] in
theorem oldOrMid_of_tetPieces {t : Tet V} (ht : m.tetMap t ∈ cuttable) :
    ∀ t' ∈ m.tetPieces t, ∀ x ∈ t'.corners, m.OldOrMid t.corners x := by
  obtain ⟨a, b, c, d⟩ := t
  have hba := m.mid_comm b a
  have hca := m.mid_comm c a
  have hda := m.mid_comm d a
  have hcb := m.mid_comm c b
  have hdb := m.mid_comm d b
  have hdc := m.mid_comm d c
  have ha : m.OldOrMid (Tet.corners (a, b, c, d)) a := Or.inl (by simp [Tet.corners])
  have hb : m.OldOrMid (Tet.corners (a, b, c, d)) b := Or.inl (by simp [Tet.corners])
  have hc : m.OldOrMid (Tet.corners (a, b, c, d)) c := Or.inl (by simp [Tet.corners])
  have hd : m.OldOrMid (Tet.corners (a, b, c, d)) d := Or.inl (by simp [Tet.corners])
  have nmid : ∀ x y, m.marked x y = true → m.OldOrMid (Tet.corners (a, b, c, d)) (m.mid x y) :=
    fun x y hxy => Or.inr ⟨x, y, hxy, rfl⟩
  have nab := nmid a b
  have nac := nmid a c
  have nad := nmid a d
  have nbc := nmid b c
  have nbd := nmid b d
  have ncd := nmid c d
  clear nmid
  generalize Tet.corners (a, b, c, d) = old at ha hb hc hd nab nac nad nbc nbd ncd ⊢
  simp only [cuttable, List.mem_cons, List.not_mem_nil, or_false] at ht
  rcases ht with h | h | h | h | h | h | h | h | h | h | h | h <;>
    obtain ⟨h0, h1, h2, h3, h4, h5⟩ := marks_of_map h <;>
    norm_num at h0 h1 h2 h3 h4 h5 <;>
    simp only [tetPieces, h, fourPieces, eightPieces, Tet.corners, List.forall_mem_cons,
      List.not_mem_nil, false_implies, implies_true, and_true, hba, hca, hda, hcb, hdb,
      hdc, h0, h1, h2, h3, h4, h5, nab, nac, nad, nbc, nbd, ncd, ha, hb, hc, hd]

omit [DecidableEq V] in
theorem oldOrMid_of_triPieces {f : Tri V} :
    ∀ f' ∈ m.triPieces f, ∀ x ∈ f'.corners, m.OldOrMid f.corners x := by
  obtain ⟨a, b, c⟩ := f
  have hba := m.mid_comm b a
  have hac := m.mid_comm a c
  have hcb := m.mid_comm c b
  have ha : m.OldOrMid (Tri.corners (a, b, c)) a := Or.inl (by simp [Tri.corners])
  have hb : m.OldOrMid (Tri.corners (a, b, c)) b := Or.inl (by simp [Tri.corners])
  have hc : m.OldOrMid (Tri.corners (a, b, c)) c := Or.inl (by simp [Tri.corners])
  have nmid : ∀ x y, m.marked x y = true → m.OldOrMid (Tri.corners (a, b, c)) (m.mid x y) :=
    fun x y hxy => Or.inr ⟨x, y, hxy, rfl⟩
  have nab := nmid a b
  have nbc := nmid b c
  have nca := nmid c a
  clear nmid
  generalize Tri.corners (a, b, c) = old at ha hb hc nab nbc nca ⊢
  cases h0 : m.marked a b <;> cases h1 : m.marked b c <;> cases h2 : m.marked c a <;>
    simp only [triPieces, h0, h1, h2, Tri.corners, List.forall_mem_cons, List.not_mem_nil,
      false_implies, implies_true, and_true, hba, hac, hcb, nab, nbc, nca, ha, hb, hc]

omit [DecidableEq V] in
/-- **No piece has both ends of a marked edge.** -/
theorem not_marked_of_tetPieces {t : Tet V} (ht : m.tetMap t ∈ cuttable)
    (hmid : ∀ x y, m.marked x y = true → m.mid x y ∉ t.corners) :
    ∀ t' ∈ m.tetPieces t, ∀ x ∈ t'.corners, ∀ y ∈ t'.corners, x ∈ t.corners → y ∈ t.corners →
      x ≠ y → m.marked x y = false := by
  obtain ⟨a, b, c, d⟩ := t
  have kba := m.marked_comm b a
  have kca := m.marked_comm c a
  have kda := m.marked_comm d a
  have kcb := m.marked_comm c b
  have kdb := m.marked_comm d b
  have kdc := m.marked_comm d c
  have hba := m.mid_comm b a
  have hca := m.mid_comm c a
  have hda := m.mid_comm d a
  have hcb := m.mid_comm c b
  have hdb := m.mid_comm d b
  have hdc := m.mid_comm d c
  have nab := hmid a b
  have nac := hmid a c
  have nad := hmid a d
  have nbc := hmid b c
  have nbd := hmid b d
  have ncd := hmid c d
  generalize Tet.corners (a, b, c, d) = old at nab nac nad nbc nbd ncd ⊢
  simp only [cuttable, List.mem_cons, List.not_mem_nil, or_false] at ht
  -- a corner of a piece is new, or its marks are those of the pattern
  rcases ht with h | h | h | h | h | h | h | h | h | h | h | h <;>
    obtain ⟨h0, h1, h2, h3, h4, h5⟩ := marks_of_map h <;>
    norm_num at h0 h1 h2 h3 h4 h5 <;>
    simp only [tetPieces, h, fourPieces, eightPieces, Tet.corners, List.forall_mem_cons,
      List.not_mem_nil, false_implies, implies_true, and_true, true_and, hba, hca, hda, hcb, hdb,
      hdc, kba, kca, kda, kcb, kdb, kdc, h0, h1, h2, h3, h4, h5, nab, nac, nad, nbc, nbd, ncd,
      ne_eq, not_true]

omit [DecidableEq V] in
theorem not_marked_of_triPieces {f : Tri V} (hf : ¬ m.TwoMarked f)
    (hmid : ∀ x y, m.marked x y = true → m.mid x y ∉ f.corners) :
    ∀ f' ∈ m.triPieces f, ∀ x ∈ f'.corners, ∀ y ∈ f'.corners, x ∈ f.corners → y ∈ f.corners →
      x ≠ y → m.marked x y = false := by
  obtain ⟨a, b, c⟩ := f
  have kba := m.marked_comm b a
  have kac := m.marked_comm a c
  have kcb := m.marked_comm c b
  have hba := m.mid_comm b a
  have hac := m.mid_comm a c
  have hcb := m.mid_comm c b
  have nab := hmid a b
  have nbc := hmid b c
  have nca := hmid c a
  generalize Tri.corners (a, b, c) = old at nab nbc nca ⊢
  simp only [TwoMarked] at hf
  cases h0 : m.marked a b <;> cases h1 : m.marked b c <;> cases h2 : m.marked c a <;>
    simp only [h0, h1, h2, Bool.toNat_true, Bool.toNat_false, Nat.reduceAdd, not_true] at hf <;>
    simp only [triPieces, h0, h1, h2, Tri.corners, List.forall_mem_cons, List.not_mem_nil,
      false_implies, implies_true, and_true, true_and, hba, hac, hcb, kba, kac, kcb, nab, nbc, nca,
      ne_eq, not_true]

/-- **Subdivisions are conforming.** -/
theorem boundary_subdivided {T : Multiset (Tet V)} {F : Multiset (Tri V)} (h : boundary T = chain F)
    (hT : ∀ t ∈ T, m.tetMap t ∈ cuttable) :
    boundary (T.bind fun t => (m.tetPieces t : Multiset (Tet V))) =
      chain (F.bind fun f => (m.triPieces f : Multiset (Tri V))) :=
  boundary_replaced m.alternating_cutTri h (fun t ht => m.boundary_tetPieces (hT t ht))
    fun _ _ => rfl

/-- A triangle among the unshared faces is a face. -/
theorem not_twoMarked_of_unshared {T : Multiset (Tet V)} {F : Multiset (Tri V)} (h : Unshared T F)
    (hT : ∀ t ∈ T, m.tetMap t ∈ cuttable) {f : Tri V} (hf : f ∈ F) : ¬ m.TwoMarked f := by
  obtain ⟨a, b, c⟩ := f
  have hpos : 0 < multiplicity (T.bind faces) a b c := by
    have hcount : 0 < F.count (a, b, c) := Multiset.count_pos.mpr hf
    have hmult := h a b c
    simp only [multiplicity] at hmult ⊢
    omega
  have hface : (a, b, c) ∈ T.bind faces ∨ (b, c, a) ∈ T.bind faces ∨ (c, a, b) ∈ T.bind faces := by
    simp only [← Multiset.count_pos]
    simp only [multiplicity] at hpos
    omega
  rcases hface with hin | hin | hin
  · obtain ⟨t, ht, hft⟩ := Multiset.mem_bind.mp hin
    exact m.not_twoMarked_of_faces (hT t ht) hft
  · obtain ⟨t, ht, hft⟩ := Multiset.mem_bind.mp hin
    exact fun h2 => m.not_twoMarked_of_faces (hT t ht) hft (m.twoMarked_rotate.mpr h2)
  · obtain ⟨t, ht, hft⟩ := Multiset.mem_bind.mp hin
    exact fun h2 => m.not_twoMarked_of_faces (hT t ht) hft
      (m.twoMarked_rotate.mpr (m.twoMarked_rotate.mpr h2))

/-! ## Volumes -/

section Volume

variable {K : Type*} [Field K] [CharZero K]

/-- Six times the signed volume of a tetrahedron. -/
def volume6 (p : V → K × K × K) (t : Tet V) : K :=
  let u := p t.2.1 - p t.1
  let v := p t.2.2.1 - p t.1
  let w := p t.2.2.2 - p t.1
  u.1 * (v.2.1 * w.2.2 - v.2.2 * w.2.1) - u.2.1 * (v.1 * w.2.2 - v.2.2 * w.1) +
    u.2.2 * (v.1 * w.2.1 - v.2.1 * w.1)

/-- The vertex on an edge is half way. -/
def HalfWay (p : V → K × K × K) : Prop :=
  ∀ a b, m.marked a b = true → p (m.mid a b) = ((p a).1 / 2 + (p b).1 / 2,
    (p a).2.1 / 2 + (p b).2.1 / 2, (p a).2.2 / 2 + (p b).2.2 / 2)

omit [DecidableEq V] in
/-- **The pieces keep the orientation**: each has the same part of the signed
volume. -/
theorem volume6_tetPieces {p : V → K × K × K} (hp : m.HalfWay p) {t : Tet V}
    (ht : m.tetMap t ∈ cuttable) :
    ∀ t' ∈ m.tetPieces t, ((m.tetPieces t).length : K) * volume6 p t' = volume6 p t := by
  obtain ⟨a, b, c, d⟩ := t
  have hba := m.mid_comm b a
  have hca := m.mid_comm c a
  have hda := m.mid_comm d a
  have hcb := m.mid_comm c b
  have hdb := m.mid_comm d b
  have hdc := m.mid_comm d c
  have nab := hp a b
  have nac := hp a c
  have nad := hp a d
  have nbc := hp b c
  have nbd := hp b d
  have ncd := hp c d
  simp only [cuttable, List.mem_cons, List.not_mem_nil, or_false] at ht
  rcases ht with h | h | h | h | h | h | h | h | h | h | h | h <;>
    obtain ⟨h0, h1, h2, h3, h4, h5⟩ := marks_of_map h <;>
    norm_num at h0 h1 h2 h3 h4 h5 <;>
    simp only [tetPieces, h, fourPieces, eightPieces, List.forall_mem_cons, List.not_mem_nil,
      false_implies, implies_true, and_true, hba, hca, hda, hcb, hdb, hdc, volume6, h0, h1, h2,
      h3, h4, h5, nab, nac, nad, nbc, nbd, ncd, List.length_cons, List.length_nil, Prod.fst_sub,
      Prod.snd_sub] <;>
    push_cast <;>
    generalize p a = pa <;> generalize p b = pb <;> generalize p c = pc <;>
    generalize p d = pd <;>
    (repeat' apply And.intro) <;> ring

end Volume

end Marking

end Chains
