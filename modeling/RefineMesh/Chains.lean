import Mathlib.Tactic

/-!
# Oriented chains

Triangles and edges over any type of vertices, as oriented simplices: a
triangle is the same as its rotations and the negative of its mirror images, a
degenerate triangle is zero.  A collection of triangles stands for a chain, an
integer for each ordered triple.  Operations that respect orientation are
determined by the chain alone (`Alternating.sum_congr`); all results on cutting
and gluing follow from that rule and from identities on one simplex.
-/

namespace Chains

variable {V : Type*} [DecidableEq V]

/-- An ordered triangle. -/
abbrev Tri (V : Type*) := V × V × V

/-- An ordered tetrahedron. -/
abbrev Tet (V : Type*) := V × V × V × V

/-- The oriented triangle: its rotations count positive, the others negative. -/
def orient (f : Tri V) : Tri V → ℤ :=
  Pi.single (f.1, f.2.1, f.2.2) 1 + Pi.single (f.2.1, f.2.2, f.1) 1 +
    Pi.single (f.2.2, f.1, f.2.1) 1 - Pi.single (f.2.1, f.1, f.2.2) 1 -
    Pi.single (f.1, f.2.2, f.2.1) 1 - Pi.single (f.2.2, f.2.1, f.1) 1

/-- The chain of a collection of triangles. -/
def chain (m : Multiset (Tri V)) : Tri V → ℤ := (m.map orient).sum

@[simp] theorem chain_zero : chain (0 : Multiset (Tri V)) = 0 := rfl

@[simp] theorem chain_cons (f : Tri V) (m : Multiset (Tri V)) :
    chain (f ::ₘ m) = orient f + chain m := by
  simp [chain]

@[simp] theorem chain_singleton (f : Tri V) : chain {f} = orient f := by
  simp [chain]

@[simp] theorem chain_add (m m' : Multiset (Tri V)) : chain (m + m') = chain m + chain m' := by
  simp [chain]

theorem chain_bind {ι : Type*} (m : Multiset ι) (f : ι → Multiset (Tri V)) :
    chain (m.bind f) = (m.map fun i => chain (f i)).sum := by
  induction m using Multiset.induction_on with
  | empty => simp
  | cons i m ih => simp [ih]

/-- A function of triangles that respects orientation. -/
structure Alternating {G : Type*} [AddCommGroup G] (w : Tri V → G) : Prop where
  rotate : ∀ a b c, w (b, c, a) = w (a, b, c)
  mirror : ∀ a b c, w (b, a, c) = -w (a, b, c)

theorem alternating_orient : Alternating (orient : Tri V → Tri V → ℤ) := by
  constructor
  · intro a b c
    simp only [orient]
    abel
  · intro a b c
    simp only [orient]
    abel

/-- Moving the vertices respects orientation. -/
theorem alternating_map (σ : V → V) :
    Alternating fun f : Tri V => orient (σ f.1, σ f.2.1, σ f.2.2) :=
  ⟨fun a b c => alternating_orient.rotate (σ a) (σ b) (σ c),
    fun a b c => alternating_orient.mirror (σ a) (σ b) (σ c)⟩

section Transfer

variable {G : Type*} [AddCommGroup G] {w : Tri V → G}

/-- The six orders of the corners of a triangle. -/
def orders (f : Tri V) : Finset (Tri V) :=
  {(f.1, f.2.1, f.2.2), (f.2.1, f.2.2, f.1), (f.2.2, f.1, f.2.1), (f.2.1, f.1, f.2.2),
    (f.1, f.2.2, f.2.1), (f.2.2, f.2.1, f.1)}

/-- A chain paired with a function of triangles. -/
def pairing (S : Finset (Tri V)) (w : Tri V → G) (c : Tri V → ℤ) : G := ∑ t ∈ S, c t • w t

omit [DecidableEq V] in
theorem pairing_add (S : Finset (Tri V)) (w : Tri V → G) (c c' : Tri V → ℤ) :
    pairing S w (c + c') = pairing S w c + pairing S w c' := by
  simp [pairing, add_smul, Finset.sum_add_distrib]

omit [DecidableEq V] in
theorem pairing_sub (S : Finset (Tri V)) (w : Tri V → G) (c c' : Tri V → ℤ) :
    pairing S w (c - c') = pairing S w c - pairing S w c' := by
  simp [pairing, sub_smul, Finset.sum_sub_distrib]

theorem pairing_single {S : Finset (Tri V)} (w : Tri V → G) {t : Tri V} (ht : t ∈ S) :
    pairing S w (Pi.single t 1) = w t := by
  unfold pairing
  rw [Finset.sum_eq_single t]
  · simp
  · intro t' _ hne
    simp [Pi.single_eq_of_ne hne]
  · intro hout
    exact absurd ht hout

theorem Alternating.pairing_orient (hw : Alternating w) {S : Finset (Tri V)} {f : Tri V}
    (hS : orders f ⊆ S) : pairing S w (orient f) = 6 • w f := by
  obtain ⟨a, b, c⟩ := f
  have hmem : ∀ t ∈ orders (a, b, c), t ∈ S := fun t ht => hS ht
  simp only [orders, Finset.mem_insert, Finset.mem_singleton, forall_eq_or_imp, forall_eq] at hmem
  obtain ⟨h1, h2, h3, h4, h5, h6⟩ := hmem
  have hr1 := hw.rotate a b c
  have hr2 := hw.rotate b c a
  have hm1 := hw.mirror a b c
  have hm2 := hw.mirror b c a
  have hm3 := hw.mirror c a b
  have hm4 := hw.rotate c a b
  rw [orient]
  simp only [pairing_add, pairing_sub, pairing_single w h1, pairing_single w h2,
    pairing_single w h3, pairing_single w h4, pairing_single w h5, pairing_single w h6]
  rw [hm1, hm2, hm3, hr2, hr1]
  abel

theorem Alternating.pairing_chain (hw : Alternating w) {S : Finset (Tri V)}
    (m : Multiset (Tri V)) (hS : ∀ f ∈ m, orders f ⊆ S) :
    pairing S w (chain m) = 6 • (m.map w).sum := by
  induction m using Multiset.induction_on with
  | empty => simp [pairing]
  | cons f m ih =>
      rw [chain_cons, pairing_add, hw.pairing_orient (hS f (Multiset.mem_cons_self f m)),
        ih fun g hg => hS g (Multiset.mem_cons_of_mem hg), Multiset.map_cons, Multiset.sum_cons,
        smul_add]

/-- **The transfer rule.**  A sum that respects orientation depends on the
chain only. -/
theorem Alternating.sum_congr [IsAddTorsionFree G] (hw : Alternating w)
    {m m' : Multiset (Tri V)} (h : chain m = chain m') : (m.map w).sum = (m'.map w).sum := by
  let S : Finset (Tri V) := (m + m').toFinset.biUnion orders
  have hS : ∀ f ∈ m + m', orders f ⊆ S := fun f hf =>
    Finset.subset_biUnion_of_mem orders (Multiset.mem_toFinset.mpr hf)
  have h6 : 6 • (m.map w).sum = 6 • (m'.map w).sum := by
    rw [← hw.pairing_chain m fun f hf => hS f (Multiset.mem_add.mpr (Or.inl hf)), h,
      hw.pairing_chain m' fun f hf => hS f (Multiset.mem_add.mpr (Or.inr hf))]
  exact IsAddTorsionFree.nsmul_right_injective (show 6 ≠ 0 by omega) h6

end Transfer

/-! ## Tetrahedra -/

/-- The faces of a tetrahedron, oriented alike. -/
def faces (t : Tet V) : Multiset (Tri V) :=
  {(t.2.1, t.2.2.2, t.2.2.1), (t.1, t.2.2.1, t.2.2.2), (t.1, t.2.2.2, t.2.1),
    (t.1, t.2.1, t.2.2.1)}

omit [DecidableEq V] in
theorem map_faces {β : Type*} (w : Tri V → β) (a b c d : V) :
    (faces (a, b, c, d)).map w = {w (b, d, c), w (a, c, d), w (a, d, b), w (a, b, c)} := rfl

/-- The boundary of a collection of tetrahedra. -/
def boundary (T : Multiset (Tet V)) : Tri V → ℤ := chain (T.bind faces)

@[simp] theorem boundary_zero : boundary (0 : Multiset (Tet V)) = 0 := rfl

@[simp] theorem boundary_cons (t : Tet V) (T : Multiset (Tet V)) :
    boundary (t ::ₘ T) = chain (faces t) + boundary T := by
  simp [boundary]

@[simp] theorem boundary_singleton (t : Tet V) : boundary {t} = chain (faces t) := by
  simp [boundary]

@[simp] theorem boundary_add (T T' : Multiset (Tet V)) :
    boundary (T + T') = boundary T + boundary T' := by
  simp [boundary]

theorem boundary_bind {ι : Type*} (m : Multiset ι) (r : ι → Multiset (Tet V)) :
    boundary (m.bind r) = (m.map fun i => boundary (r i)).sum := by
  rw [boundary, Multiset.bind_assoc, chain_bind]
  rfl

/-- The boundary of one tetrahedron, written out. -/
theorem chain_faces (a b c d : V) :
    chain (faces (a, b, c, d)) =
      orient (b, d, c) + orient (a, c, d) + orient (a, d, b) + orient (a, b, c) := by
  simp only [faces, Multiset.insert_eq_cons, chain_cons, chain_singleton]
  abel

/-- **The replacement rule.**  When tetrahedra and triangles are replaced in
ways that agree on each face, the triangles stay the boundary of the
tetrahedra. -/
theorem boundary_replaced {w : Tri V → Tri V → ℤ} (hw : Alternating w)
    {T : Multiset (Tet V)} {F : Multiset (Tri V)} (h : boundary T = chain F)
    {r : Tet V → Multiset (Tet V)} {q : Tri V → Multiset (Tri V)}
    (hT : ∀ t ∈ T, boundary (r t) = ((faces t).map w).sum) (hF : ∀ f ∈ F, chain (q f) = w f) :
    boundary (T.bind r) = chain (F.bind q) := by
  calc boundary (T.bind r) = (T.map fun t => ((faces t).map w).sum).sum := by
        rw [boundary_bind, Multiset.map_congr rfl hT]
    _ = ((T.bind faces).map w).sum := by
        rw [Multiset.map_bind, Multiset.sum_bind]
    _ = (F.map w).sum := hw.sum_congr h
    _ = chain (F.bind q) := by
        rw [chain_bind, Multiset.map_congr rfl hF]

/-! ## Edges -/

/-- The oriented edge. -/
def side (e : V × V) : V × V → ℤ := Pi.single e 1 - Pi.single e.swap 1

/-- The chain of a collection of edges. -/
def edgeChain (m : Multiset (V × V)) : V × V → ℤ := (m.map side).sum

@[simp] theorem edgeChain_zero : edgeChain (0 : Multiset (V × V)) = 0 := rfl

@[simp] theorem edgeChain_cons (e : V × V) (m : Multiset (V × V)) :
    edgeChain (e ::ₘ m) = side e + edgeChain m := by
  simp [edgeChain]

@[simp] theorem edgeChain_singleton (e : V × V) : edgeChain {e} = side e := by
  simp [edgeChain]

@[simp] theorem edgeChain_add (m m' : Multiset (V × V)) :
    edgeChain (m + m') = edgeChain m + edgeChain m' := by
  simp [edgeChain]

/-- An edge counts once in its direction and once, negative, in the other. -/
theorem edgeChain_apply (m : Multiset (V × V)) (a b : V) :
    edgeChain m (a, b) = (m.count (a, b) : ℤ) - m.count (b, a) := by
  induction m using Multiset.induction_on with
  | empty => simp
  | cons e m ih =>
      rw [edgeChain_cons, Pi.add_apply, ih, Multiset.count_cons, Multiset.count_cons]
      have hswap : (a, b) = e.swap ↔ (b, a) = e := by
        obtain ⟨x, y⟩ := e
        simp only [Prod.swap_prod_mk, Prod.mk.injEq]
        tauto
      simp only [side, Pi.sub_apply, Pi.single_apply, hswap]
      push_cast
      ring

/-- The directed sides of a triangle. -/
def sides (f : Tri V) : Multiset (V × V) := {(f.1, f.2.1), (f.2.1, f.2.2), (f.2.2, f.1)}

theorem edgeChain_sides (a b c : V) :
    edgeChain (sides (a, b, c)) = side (a, b) + side (b, c) + side (c, a) := by
  simp only [sides, Multiset.insert_eq_cons, edgeChain_cons, edgeChain_singleton]
  abel

theorem alternating_sides : Alternating fun f : Tri V => edgeChain (sides f) := by
  constructor
  · intro a b c
    simp only [edgeChain_sides]
    abel
  · intro a b c
    simp only [edgeChain_sides, side, Prod.swap_prod_mk]
    abel

theorem edgeChain_bind {ι : Type*} (m : Multiset ι) (f : ι → Multiset (V × V)) :
    edgeChain (m.bind f) = (m.map fun i => edgeChain (f i)).sum := by
  induction m using Multiset.induction_on with
  | empty => simp
  | cons i m ih => simp [ih]

/-- The faces of a tetrahedron have no boundary. -/
theorem edgeChain_faces (t : Tet V) : edgeChain ((faces t).bind sides) = 0 := by
  obtain ⟨a, b, c, d⟩ := t
  rw [edgeChain_bind, map_faces]
  simp only [Multiset.insert_eq_cons, Multiset.sum_cons, Multiset.sum_singleton, edgeChain_sides,
    side, Prod.swap_prod_mk]
  abel

/-- **The boundary of a boundary** is zero: triangles that bound tetrahedra
use every edge equally often in both directions. -/
theorem edgeChain_sides_of_boundary {T : Multiset (Tet V)} {F : Multiset (Tri V)}
    (h : boundary T = chain F) : edgeChain (F.bind sides) = 0 := by
  rw [edgeChain_bind, ← alternating_sides.sum_congr h, Multiset.map_bind, Multiset.sum_bind]
  apply Multiset.sum_eq_zero
  intro x hx
  obtain ⟨t, _, rfl⟩ := Multiset.mem_map.mp hx
  rw [← edgeChain_bind]
  exact edgeChain_faces t

/-! ## Unshared faces -/

/-- How often a triangle occurs with the orientation of `(a, b, c)`. -/
def multiplicity (m : Multiset (Tri V)) (a b c : V) : ℕ :=
  m.count (a, b, c) + m.count (b, c, a) + m.count (c, a, b)

/-- The chain at a triple is the multiplicity less that of the mirror image. -/
theorem chain_apply (m : Multiset (Tri V)) (a b c : V) :
    chain m (a, b, c) = (multiplicity m a b c : ℤ) - multiplicity m b a c := by
  induction m using Multiset.induction_on with
  | empty => simp [multiplicity]
  | cons f m ih =>
      obtain ⟨x, y, z⟩ := f
      rw [chain_cons, Pi.add_apply, ih]
      have h1 : (a = y ∧ b = z ∧ c = x) ↔ (c = x ∧ a = y ∧ b = z) :=
        ⟨fun ⟨p, q, r⟩ => ⟨r, p, q⟩, fun ⟨r, p, q⟩ => ⟨p, q, r⟩⟩
      have h2 : (a = z ∧ b = x ∧ c = y) ↔ (b = x ∧ c = y ∧ a = z) :=
        ⟨fun ⟨p, q, r⟩ => ⟨q, r, p⟩, fun ⟨q, r, p⟩ => ⟨p, q, r⟩⟩
      have h3 : (a = y ∧ b = x ∧ c = z) ↔ (b = x ∧ a = y ∧ c = z) :=
        and_left_comm
      have h4 : (a = x ∧ b = z ∧ c = y) ↔ (a = x ∧ c = y ∧ b = z) :=
        and_congr_right' and_comm
      have h5 : (a = z ∧ b = y ∧ c = x) ↔ (c = x ∧ b = y ∧ a = z) :=
        ⟨fun ⟨p, q, r⟩ => ⟨r, q, p⟩, fun ⟨r, q, p⟩ => ⟨p, q, r⟩⟩
      simp only [multiplicity, orient, Pi.add_apply, Pi.sub_apply, Pi.single_apply,
        Multiset.count_cons, Prod.mk.injEq, h1, h2, h3, h4, h5]
      push_cast
      ring

/-- The triangles of `F` are the faces of `T` that have no partner with the
opposite orientation. -/
def Unshared (T : Multiset (Tet V)) (F : Multiset (Tri V)) : Prop :=
  ∀ a b c, multiplicity F a b c =
    multiplicity (T.bind faces) a b c - multiplicity (T.bind faces) b a c

theorem Unshared.boundary_eq {T : Multiset (Tet V)} {F : Multiset (Tri V)} (h : Unshared T F) :
    boundary T = chain F := by
  funext t
  obtain ⟨a, b, c⟩ := t
  rw [boundary, chain_apply, chain_apply, h a b c, h b a c]
  omega

/-- Unshared faces never come with both orientations. -/
theorem Unshared.one_side {T : Multiset (Tet V)} {F : Multiset (Tri V)} (h : Unshared T F)
    (a b c : V) : multiplicity F a b c = 0 ∨ multiplicity F b a c = 0 := by
  have h1 := h a b c
  have h2 := h b a c
  omega

/-- To be the unshared faces is a condition on the faces and triangles at
hand. -/
theorem unshared_iff {T : Multiset (Tet V)} {F : Multiset (Tri V)} :
    Unshared T F ↔ ∀ f ∈ T.bind faces + F, multiplicity F f.1 f.2.1 f.2.2 =
      multiplicity (T.bind faces) f.1 f.2.1 f.2.2 -
        multiplicity (T.bind faces) f.2.1 f.1 f.2.2 := by
  constructor
  · intro h f _
    exact h _ _ _
  · intro h a b c
    by_cases h1 : (a, b, c) ∈ T.bind faces + F
    · exact h _ h1
    by_cases h2 : (b, c, a) ∈ T.bind faces + F
    · have hrotate := h _ h2
      simp only [multiplicity] at hrotate ⊢
      omega
    by_cases h3 : (c, a, b) ∈ T.bind faces + F
    · have hrotate := h _ h3
      simp only [multiplicity] at hrotate ⊢
      omega
    · rw [Multiset.mem_add, not_or] at h1 h2 h3
      simp [multiplicity, Multiset.count_eq_zero.mpr h1.1, Multiset.count_eq_zero.mpr h2.1,
        Multiset.count_eq_zero.mpr h3.1, Multiset.count_eq_zero.mpr h1.2,
        Multiset.count_eq_zero.mpr h2.2, Multiset.count_eq_zero.mpr h3.2]

instance (T : Multiset (Tet V)) (F : Multiset (Tri V)) : Decidable (Unshared T F) :=
  decidable_of_iff' _ unshared_iff

/-! ## Cuts -/

/-- The corners of a triangle. -/
def Tri.corners (f : Tri V) : List V := [f.1, f.2.1, f.2.2]

/-- The corners of a tetrahedron. -/
def Tet.corners (t : Tet V) : List V := [t.1, t.2.1, t.2.2.1, t.2.2.2]

/-- Vertex `u` becomes `n`. -/
def move (u n x : V) : V := if x = u then n else x

/-- A triangle with corner `u` moved to `n`. -/
def Tri.move (u n : V) (f : Tri V) : Tri V :=
  (Chains.move u n f.1, Chains.move u n f.2.1, Chains.move u n f.2.2)

/-- A tetrahedron with corner `u` moved to `n`. -/
def Tet.move (u n : V) (t : Tet V) : Tet V :=
  (Chains.move u n t.1, Chains.move u n t.2.1, Chains.move u n t.2.2.1, Chains.move u n t.2.2.2)

omit [DecidableEq V] in
theorem mem_corners_rotate {a b c x : V} :
    x ∈ Tri.corners (b, c, a) ↔ x ∈ Tri.corners (a, b, c) := by
  simp only [Tri.corners, List.mem_cons, List.not_mem_nil, or_false]
  tauto

omit [DecidableEq V] in
theorem mem_corners_mirror {a b c x : V} :
    x ∈ Tri.corners (b, a, c) ↔ x ∈ Tri.corners (a, b, c) := by
  simp only [Tri.corners, List.mem_cons, List.not_mem_nil, or_false]
  tauto

theorem alternating_move (u n : V) : Alternating fun f : Tri V => orient (f.move u n) :=
  alternating_map (Chains.move u n)

omit [DecidableEq V] in
/-- Two functions that respect orientation, chosen by the set of corners. -/
theorem Alternating.ite {G : Type*} [AddCommGroup G] {w w' : Tri V → G} (hw : Alternating w)
    (hw' : Alternating w') (P : (V → Prop) → Prop) [∀ S, Decidable (P S)] :
    Alternating fun f => if P (· ∈ f.corners) then w f else w' f := by
  constructor
  · intro a b c
    simp only [mem_corners_rotate, hw.rotate a b c, hw'.rotate a b c]
  · intro a b c
    simp only [mem_corners_mirror, hw.mirror a b c, hw'.mirror a b c]
    split <;> rfl

omit [DecidableEq V] in
theorem Alternating.add {G : Type*} [AddCommGroup G] {w w' : Tri V → G} (hw : Alternating w)
    (hw' : Alternating w') : Alternating fun f => w f + w' f := by
  constructor
  · intro a b c
    simp only [hw.rotate a b c, hw'.rotate a b c]
  · intro a b c
    simp only [hw.mirror a b c, hw'.mirror a b c]
    abel

/-- A triangle cut by a vertex `n` on the edge from `u` to `v`. -/
def cutEdge (u v n : V) (f : Tri V) : Tri V → ℤ :=
  if u ∈ f.corners ∧ v ∈ f.corners then orient (f.move u n) + orient (f.move v n) else orient f

/-- A triangle cut by a vertex `n` inside the face with corners `u`, `v`, `w`. -/
def cutFace (u v w n : V) (f : Tri V) : Tri V → ℤ :=
  if u ∈ f.corners ∧ v ∈ f.corners ∧ w ∈ f.corners then
    orient (f.move u n) + orient (f.move v n) + orient (f.move w n)
  else orient f

theorem alternating_cutEdge (u v n : V) : Alternating (cutEdge u v n) := by
  classical
  have h := ((alternating_move u n).add (alternating_move v n)).ite alternating_orient
    fun S => S u ∧ S v
  refine ⟨fun a b c => ?_, fun a b c => ?_⟩
  · have := h.rotate a b c
    simp only [cutEdge]
    convert this
  · have := h.mirror a b c
    simp only [cutEdge]
    convert this

theorem alternating_cutFace (u v w n : V) : Alternating (cutFace u v w n) := by
  classical
  have h := (((alternating_move u n).add (alternating_move v n)).add
    (alternating_move w n)).ite alternating_orient fun S => S u ∧ S v ∧ S w
  refine ⟨fun a b c => ?_, fun a b c => ?_⟩
  · have := h.rotate a b c
    simp only [cutFace]
    convert this
  · have := h.mirror a b c
    simp only [cutFace]
    convert this

/-- **A vertex on an edge** cuts a tetrahedron in two, along with its faces:
the two faces in the middle cancel. -/
theorem boundary_cutEdge {u v n : V} {t : Tet V} (ht : t.corners.Nodup) (hu : u ∈ t.corners)
    (hv : v ∈ t.corners) (huv : u ≠ v) :
    boundary {t.move u n, t.move v n} = ((faces t).map (cutEdge u v n)).sum := by
  obtain ⟨a, b, c, d⟩ := t
  simp only [Tet.corners, List.nodup_cons, List.mem_cons, List.not_mem_nil, or_false, not_or,
    List.nodup_nil, not_false_iff, and_true] at ht hu hv
  obtain ⟨⟨hab, hac, had⟩, ⟨hbc, hbd⟩, hcd⟩ := ht
  have hba := Ne.symm hab
  have hca := Ne.symm hac
  have hda := Ne.symm had
  have hcb := Ne.symm hbc
  have hdb := Ne.symm hbd
  have hdc := Ne.symm hcd
  rw [map_faces]
  simp only [Multiset.insert_eq_cons, Multiset.sum_cons, Multiset.sum_singleton, boundary_cons,
    boundary_singleton]
  -- one case for each pair of places of `u` and `v`
  rcases hu with rfl | rfl | rfl | rfl <;> rcases hv with rfl | rfl | rfl | rfl <;>
    first
    | exact absurd rfl huv
    | simp only [Tet.move, Tri.move, Chains.move, cutEdge, Tri.corners, List.mem_cons,
        List.not_mem_nil, or_false, hab, hac, had, hbc, hbd, hcd, hba, hca, hda, hcb, hdb, hdc,
        if_true, if_false, or_true, and_true, and_self, and_false, or_self, chain_faces, orient]
      abel

/-- **A vertex inside a face** cuts a tetrahedron in three. -/
theorem boundary_cutFace {u v w n : V} {t : Tet V} (ht : t.corners.Nodup) (hu : u ∈ t.corners)
    (hv : v ∈ t.corners) (hw : w ∈ t.corners) (huv : u ≠ v) (huw : u ≠ w) (hvw : v ≠ w) :
    boundary {t.move u n, t.move v n, t.move w n} = ((faces t).map (cutFace u v w n)).sum := by
  obtain ⟨a, b, c, d⟩ := t
  simp only [Tet.corners, List.nodup_cons, List.mem_cons, List.not_mem_nil, or_false, not_or,
    List.nodup_nil, not_false_iff, and_true] at ht hu hv hw
  obtain ⟨⟨hab, hac, had⟩, ⟨hbc, hbd⟩, hcd⟩ := ht
  have hba := Ne.symm hab
  have hca := Ne.symm hac
  have hda := Ne.symm had
  have hcb := Ne.symm hbc
  have hdb := Ne.symm hbd
  have hdc := Ne.symm hcd
  rw [map_faces]
  simp only [Multiset.insert_eq_cons, Multiset.sum_cons, Multiset.sum_singleton, boundary_cons,
    boundary_singleton]
  rcases hu with rfl | rfl | rfl | rfl <;> rcases hv with rfl | rfl | rfl | rfl <;>
    first
    | exact absurd rfl huv
    | rcases hw with rfl | rfl | rfl | rfl <;>
        first
        | exact absurd rfl huw
        | exact absurd rfl hvw
        | simp only [Tet.move, Tri.move, Chains.move, cutFace, Tri.corners, List.mem_cons,
            List.not_mem_nil, or_false, hab, hac, had, hbc, hbd, hcd, hba, hca, hda, hcb, hdb, hdc,
            if_true, if_false, or_true, and_true, and_self, and_false, or_self,
            chain_faces, orient]
          abel

omit [DecidableEq V] in
theorem mem_corners_of_faces {t : Tet V} {f : Tri V} (hf : f ∈ faces t) {x : V}
    (hx : x ∈ f.corners) : x ∈ t.corners := by
  obtain ⟨a, b, c, d⟩ := t
  simp only [faces, Multiset.insert_eq_cons, Multiset.mem_cons, Multiset.mem_singleton] at hf
  rcases hf with rfl | rfl | rfl | rfl <;>
    simp only [Tri.corners, Tet.corners, List.mem_cons, List.not_mem_nil, or_false] at hx ⊢ <;>
    grind

/-- The tetrahedra in place of one, when `n` comes between the corners `ends`. -/
def Tet.cut (ends : List V) (n : V) (t : Tet V) : Multiset (Tet V) :=
  if ∀ u ∈ ends, u ∈ t.corners then (ends.map fun u => t.move u n : List (Tet V)) else {t}

/-- The triangles in place of one, when `n` comes between the corners `ends`. -/
def Tri.cut (ends : List V) (n : V) (f : Tri V) : Multiset (Tri V) :=
  if ∀ u ∈ ends, u ∈ f.corners then (ends.map fun u => f.move u n : List (Tri V)) else {f}

/-- **The cut of an edge** keeps the triangles the boundary. -/
theorem boundary_cut_two {T : Multiset (Tet V)} {F : Multiset (Tri V)} (h : boundary T = chain F)
    (hT : ∀ t ∈ T, t.corners.Nodup) {u v : V} (huv : u ≠ v) (n : V) :
    boundary (T.bind (Tet.cut [u, v] n)) = chain (F.bind (Tri.cut [u, v] n)) := by
  apply boundary_replaced (alternating_cutEdge u v n) h
  · intro t ht
    by_cases hin : ∀ x ∈ [u, v], x ∈ t.corners
    · rw [Tet.cut, if_pos hin]
      exact boundary_cutEdge (hT t ht) (hin u (by simp)) (hin v (by simp)) huv
    · rw [Tet.cut, if_neg hin, boundary_singleton, chain]
      congr 1
      apply Multiset.map_congr rfl
      intro f hf
      rw [cutEdge, if_neg]
      intro hboth
      apply hin
      simp only [List.mem_cons, List.not_mem_nil, or_false, forall_eq_or_imp, forall_eq]
      exact ⟨mem_corners_of_faces hf hboth.1, mem_corners_of_faces hf hboth.2⟩
  · intro f _
    simp only [Tri.cut, cutEdge, List.mem_cons, List.not_mem_nil, or_false, forall_eq_or_imp,
      forall_eq]
    split
    · simp [← Multiset.cons_coe]
    · exact chain_singleton f

/-- **The cut of a face** keeps the triangles the boundary. -/
theorem boundary_cut_three {T : Multiset (Tet V)} {F : Multiset (Tri V)}
    (h : boundary T = chain F) (hT : ∀ t ∈ T, t.corners.Nodup) {u v w : V} (huv : u ≠ v)
    (huw : u ≠ w) (hvw : v ≠ w) (n : V) :
    boundary (T.bind (Tet.cut [u, v, w] n)) = chain (F.bind (Tri.cut [u, v, w] n)) := by
  apply boundary_replaced (alternating_cutFace u v w n) h
  · intro t ht
    by_cases hin : ∀ x ∈ [u, v, w], x ∈ t.corners
    · rw [Tet.cut, if_pos hin]
      exact boundary_cutFace (hT t ht) (hin u (by simp)) (hin v (by simp)) (hin w (by simp)) huv
        huw hvw
    · rw [Tet.cut, if_neg hin, boundary_singleton, chain]
      congr 1
      apply Multiset.map_congr rfl
      intro f hf
      rw [cutFace, if_neg]
      intro hall
      apply hin
      simp only [List.mem_cons, List.not_mem_nil, or_false, forall_eq_or_imp, forall_eq]
      exact ⟨mem_corners_of_faces hf hall.1, mem_corners_of_faces hf hall.2.1,
        mem_corners_of_faces hf hall.2.2⟩
  · intro f _
    simp only [Tri.cut, cutFace, List.mem_cons, List.not_mem_nil, or_false, forall_eq_or_imp,
      forall_eq]
    split
    · simp [← Multiset.cons_coe, add_assoc]
    · exact chain_singleton f

/-! ## Triangles on an edge -/

/-- A proper triangle with corners `u` and `v` has the edge between them once,
in one of its directions. -/
theorem count_sides {f : Tri V} (hf : f.corners.Nodup) {u v : V} (huv : u ≠ v) :
    (sides f).count (u, v) + (sides f).count (v, u) =
      if u ∈ f.corners ∧ v ∈ f.corners then 1 else 0 := by
  obtain ⟨a, b, c⟩ := f
  simp only [Tri.corners, List.nodup_cons, List.mem_cons, List.not_mem_nil, or_false, not_or,
    List.nodup_nil, not_false_iff, and_true] at hf
  obtain ⟨⟨hab, hac⟩, hbc⟩ := hf
  simp only [sides, Multiset.insert_eq_cons, Multiset.count_cons, Multiset.count_singleton,
    Prod.mk.injEq, Tri.corners, List.mem_cons, List.not_mem_nil, or_false]
  grind

theorem count_bind_sides {F : Multiset (Tri V)} (hF : ∀ f ∈ F, f.corners.Nodup) {u v : V}
    (huv : u ≠ v) :
    (F.bind sides).count (u, v) + (F.bind sides).count (v, u) =
      (F.filter fun f => u ∈ f.corners ∧ v ∈ f.corners).card := by
  induction F using Multiset.induction_on with
  | empty => simp
  | cons f F ih =>
      have hrest := ih fun g hg => hF g (Multiset.mem_cons_of_mem hg)
      have hhead := count_sides (hF f (Multiset.mem_cons_self f F)) huv
      rw [Multiset.cons_bind, Multiset.count_add, Multiset.count_add]
      by_cases hin : u ∈ f.corners ∧ v ∈ f.corners
      · rw [Multiset.filter_cons, if_pos hin, Multiset.singleton_add, Multiset.card_cons]
        rw [if_pos hin] at hhead
        omega
      · rw [Multiset.filter_cons, if_neg hin, zero_add]
        rw [if_neg hin] at hhead
        omega

/-- A triangle oriented like `(u, v, w)` goes from `u` to `v`. -/
theorem multiplicity_le_count {F : Multiset (Tri V)} {u v w : V} (huv : u ≠ v) (huw : u ≠ w)
    (hvw : v ≠ w) : multiplicity F u v w ≤ (F.bind sides).count (u, v) := by
  induction F using Multiset.induction_on with
  | empty => simp [multiplicity]
  | cons f F ih =>
      have hhead : (if (u, v, w) = f then 1 else 0) + (if (v, w, u) = f then 1 else 0) +
          (if (w, u, v) = f then 1 else 0) ≤ (sides f).count (u, v) := by
        obtain ⟨a, b, c⟩ := f
        simp only [sides, Multiset.insert_eq_cons, Multiset.count_cons, Multiset.count_singleton,
          Prod.mk.injEq]
        grind
      rw [Multiset.cons_bind, Multiset.count_add]
      simp only [multiplicity, Multiset.count_cons] at ih ⊢
      omega

/-- The triangles with three given corners, by their orientation. -/
theorem multiplicity_add_mirror {F : Multiset (Tri V)} (hF : ∀ f ∈ F, f.corners.Nodup)
    {u v w : V} (huv : u ≠ v) (huw : u ≠ w) (hvw : v ≠ w) :
    multiplicity F u v w + multiplicity F v u w =
      (F.filter fun f => u ∈ f.corners ∧ v ∈ f.corners ∧ w ∈ f.corners).card := by
  induction F using Multiset.induction_on with
  | empty => simp [multiplicity]
  | cons f F ih =>
      have hrest := ih fun g hg => hF g (Multiset.mem_cons_of_mem hg)
      have hnodup := hF f (Multiset.mem_cons_self f F)
      have hhead : (if (u, v, w) = f then 1 else 0) + (if (v, w, u) = f then 1 else 0) +
          (if (w, u, v) = f then 1 else 0) + ((if (v, u, w) = f then 1 else 0) +
          (if (u, w, v) = f then 1 else 0) + (if (w, v, u) = f then 1 else 0)) =
            if u ∈ f.corners ∧ v ∈ f.corners ∧ w ∈ f.corners then 1 else 0 := by
        obtain ⟨a, b, c⟩ := f
        simp only [Tri.corners, List.nodup_cons, List.mem_cons, List.not_mem_nil, or_false, not_or,
          List.nodup_nil, not_false_iff, and_true] at hnodup
        obtain ⟨⟨hab, hac⟩, hbc⟩ := hnodup
        simp only [Prod.mk.injEq, Tri.corners, List.mem_cons, List.not_mem_nil, or_false]
        by_cases hu : u = a ∨ u = b ∨ u = c
        · rcases hu with rfl | rfl | rfl <;> grind
        · grind
      by_cases hin : u ∈ f.corners ∧ v ∈ f.corners ∧ w ∈ f.corners
      · rw [Multiset.filter_cons, if_pos hin, Multiset.singleton_add, Multiset.card_cons]
        rw [if_pos hin] at hhead
        simp only [multiplicity, Multiset.count_cons] at hrest ⊢
        omega
      · rw [Multiset.filter_cons, if_neg hin, zero_add]
        rw [if_neg hin] at hhead
        simp only [multiplicity, Multiset.count_cons] at hrest ⊢
        omega

/-- **Unshared faces are simple.**  Where an edge lies in two triangles at
most, no two triangles have the same corners: they would have the same
orientation, and nothing could close their common edge. -/
theorem Unshared.card_corners_le_one {T : Multiset (Tet V)} {F : Multiset (Tri V)}
    (h : Unshared T F) (hF : ∀ f ∈ F, f.corners.Nodup) {u v w : V} (huv : u ≠ v) (huw : u ≠ w)
    (hvw : v ≠ w) (htwo : (F.filter fun f => u ∈ f.corners ∧ v ∈ f.corners).card ≤ 2) :
    (F.filter fun f => u ∈ f.corners ∧ v ∈ f.corners ∧ w ∈ f.corners).card ≤ 1 := by
  have hbalance := congrFun (edgeChain_sides_of_boundary h.boundary_eq) (u, v)
  rw [edgeChain_apply, Pi.zero_apply] at hbalance
  rw [← count_bind_sides hF huv] at htwo
  rw [← multiplicity_add_mirror hF huv huw hvw]
  have h1 : multiplicity F u v w ≤ _ := multiplicity_le_count huv huw hvw
  have h2 : multiplicity F v u w ≤ _ := multiplicity_le_count huv.symm hvw huw
  have hside := h.one_side u v w
  omega

end Chains
