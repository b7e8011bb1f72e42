import Mathlib.Tactic
import RefineMesh.ChainCollapse

/-!
# Reduced chains

A collection of triangles is reduced when no triangle occurs twice, with
whatever orientation.  A reduced collection that bounds some tetrahedra has just
their unshared faces, and behind each of its triangles the number of
tetrahedra is odd.  The same holds for edges and triangles.  The cones over
a boundary have that boundary.
-/

namespace Chains

variable {V : Type*} [DecidableEq V] {F : Multiset (Tri V)} {T : Multiset (Tet V)}

theorem multiplicity_cons (f : Tri V) (F : Multiset (Tri V)) (a b c : V) :
    multiplicity (f ::ₘ F) a b c = multiplicity {f} a b c + multiplicity F a b c := by
  simp only [multiplicity, Multiset.count_cons, Multiset.count_singleton]
  omega

theorem multiplicity_rotate (F : Multiset (Tri V)) (a b c : V) :
    multiplicity F b c a = multiplicity F a b c := by
  simp only [multiplicity]
  omega

theorem multiplicity_eq_zero {a b c : V} :
    multiplicity F a b c = 0 ↔ (a, b, c) ∉ F ∧ (b, c, a) ∉ F ∧ (c, a, b) ∉ F := by
  simp only [multiplicity, Nat.add_eq_zero_iff, Multiset.count_eq_zero, and_assoc]

/-- A proper triangle has one orientation. -/
theorem multiplicity_singleton_add {f : Tri V} (hf : f.corners.Nodup) (a b c : V) :
    multiplicity {f} a b c + multiplicity {f} b a c ≤ 1 := by
  obtain ⟨x, y, z⟩ := f
  simp only [Tri.corners, List.nodup_cons, List.mem_cons, List.not_mem_nil, or_false, not_or,
    List.nodup_nil, not_false_iff, and_true] at hf
  simp only [multiplicity, Multiset.count_singleton, Prod.mk.injEq]
  grind

/-- Where a triangle counts, any other counts as it does. -/
theorem multiplicity_of_singleton {x y z a b c : V} (h : multiplicity {(x, y, z)} a b c ≠ 0) :
    multiplicity F a b c = multiplicity F x y z ∧ multiplicity F b a c = multiplicity F y x z := by
  simp only [multiplicity, Multiset.count_singleton, Prod.mk.injEq] at h
  have hcases : (a = x ∧ b = y ∧ c = z) ∨ (b = x ∧ c = y ∧ a = z) ∨ (c = x ∧ a = y ∧ b = z) := by
    by_contra hno
    rw [not_or, not_or] at hno
    exact h (by rw [if_neg hno.1, if_neg hno.2.1, if_neg hno.2.2])
  rcases hcases with ⟨rfl, rfl, rfl⟩ | ⟨rfl, rfl, rfl⟩ | ⟨rfl, rfl, rfl⟩
  · exact ⟨rfl, rfl⟩
  · exact ⟨(multiplicity_rotate F a b c).symm, multiplicity_rotate F c b a⟩
  · exact ⟨multiplicity_rotate F c a b, (multiplicity_rotate F b a c).symm⟩

/-! ## Triangles -/

/-- No triangle occurs twice, whatever its orientation. -/
def Reduced (F : Multiset (Tri V)) : Prop :=
  ∀ a b c, multiplicity F a b c + multiplicity F b a c ≤ 1

theorem reduced_zero : Reduced (0 : Multiset (Tri V)) := by
  intro a b c
  simp [multiplicity]

theorem Reduced.of_cons {f : Tri V} (h : Reduced (f ::ₘ F)) : Reduced F := by
  intro a b c
  have hall := h a b c
  rw [multiplicity_cons, multiplicity_cons] at hall
  omega

/-- A proper triangle may be added that is in the collection with neither
orientation. -/
theorem Reduced.cons {x y z : V} (h : Reduced F) (hf : (Tri.corners (x, y, z)).Nodup)
    (hsame : multiplicity F x y z = 0) (hmirror : multiplicity F y x z = 0) :
    Reduced ((x, y, z) ::ₘ F) := by
  intro a b c
  have hold := h a b c
  have hnew := multiplicity_singleton_add hf a b c
  rw [multiplicity_cons, multiplicity_cons]
  by_cases h1 : multiplicity {(x, y, z)} a b c = 0
  · by_cases h2 : multiplicity {(x, y, z)} b a c = 0
    · omega
    · obtain ⟨h3, h4⟩ := multiplicity_of_singleton (F := F) h2
      omega
  · obtain ⟨h3, h4⟩ := multiplicity_of_singleton (F := F) h1
    omega

theorem Reduced.nodup (h : Reduced F) {f : Tri V} (hf : f ∈ F) : f.corners.Nodup := by
  obtain ⟨a, b, c⟩ := f
  have hcount : 0 < F.count (a, b, c) := Multiset.count_pos.mpr hf
  have hone := h a b c
  have hab : a ≠ b := by
    rintro rfl
    simp only [multiplicity] at hone
    omega
  have hac : a ≠ c := by
    rintro rfl
    simp only [multiplicity] at hone
    omega
  have hbc : b ≠ c := by
    rintro rfl
    simp only [multiplicity] at hone
    omega
  simp [Tri.corners, hab, hac, hbc]

/-- **A reduced boundary** has the unshared faces. -/
theorem Reduced.unshared (h : Reduced F) (hboundary : boundary T = chain F) : Unshared T F := by
  intro a b c
  have hone := h a b c
  have happly := congrFun hboundary (a, b, c)
  rw [boundary, chain_apply, chain_apply] at happly
  omega

/-- A proper tetrahedron has one face on three of its corners. -/
theorem card_faces_with {t : Tet V} (ht : t.corners.Nodup) {u v w : V} (huv : u ≠ v) (huw : u ≠ w)
    (hvw : v ≠ w) :
    ((faces t).filter fun f => u ∈ f.corners ∧ v ∈ f.corners ∧ w ∈ f.corners).card =
      if u ∈ t.corners ∧ v ∈ t.corners ∧ w ∈ t.corners then 1 else 0 := by
  obtain ⟨a, b, c, d⟩ := t
  simp only [Tet.corners, List.nodup_cons, List.mem_cons, List.not_mem_nil, or_false, not_or,
    List.nodup_nil, not_false_iff, and_true] at ht
  obtain ⟨⟨hab, hac, had⟩, ⟨hbc, hbd⟩, hcd⟩ := ht
  rw [← Multiset.countP_eq_card_filter]
  simp only [faces, Multiset.insert_eq_cons, Multiset.countP_cons, ← Multiset.cons_zero,
    Multiset.countP_zero, Tri.corners, Tet.corners, List.mem_cons, List.not_mem_nil, or_false]
  have hpigeon : ∀ y z, ¬ ((u = y ∨ u = z) ∧ (v = y ∨ v = z) ∧ (w = y ∨ w = z)) := by
    intro y z h
    grind
  by_cases hall : (u = a ∨ u = b ∨ u = c ∨ u = d) ∧ (v = a ∨ v = b ∨ v = c ∨ v = d) ∧
      (w = a ∨ w = b ∨ w = c ∨ w = d)
  · -- the corner that is left out decides which face it is
    have hmissing : (u ≠ a ∧ v ≠ a ∧ w ≠ a) ∨ (u ≠ b ∧ v ≠ b ∧ w ≠ b) ∨
        (u ≠ c ∧ v ≠ c ∧ w ≠ c) ∨ (u ≠ d ∧ v ≠ d ∧ w ≠ d) := by
      grind
    rw [if_pos hall]
    rcases hmissing with ⟨h0, h1, h2⟩ | ⟨h0, h1, h2⟩ | ⟨h0, h1, h2⟩ | ⟨h0, h1, h2⟩ <;>
      simp only [h0, h1, h2, false_or, or_false] at hall <;>
      simp only [h0, h1, h2, false_or, or_false, hpigeon, if_false] <;>
      rw [if_pos (by grind)]
  · rw [if_neg hall, if_neg (by grind), if_neg (by grind), if_neg (by grind), if_neg (by grind)]

omit [DecidableEq V] in
theorem proper_of_mem_faces {t : Tet V} (ht : t.corners.Nodup) {f : Tri V} (hf : f ∈ faces t) :
    f.corners.Nodup := by
  obtain ⟨a, b, c, d⟩ := t
  simp only [Tet.corners, List.nodup_cons, List.mem_cons, List.not_mem_nil, or_false, not_or,
    List.nodup_nil, not_false_iff, and_true] at ht
  simp only [faces, Multiset.insert_eq_cons, Multiset.mem_cons, Multiset.mem_singleton] at hf
  rcases hf with rfl | rfl | rfl | rfl <;> simp [Tri.corners] <;> grind

/-- The tetrahedra with three given corners, by the orientation of the face. -/
theorem multiplicity_faces {T : Multiset (Tet V)} (hT : ∀ t ∈ T, t.corners.Nodup) {u v w : V}
    (huv : u ≠ v) (huw : u ≠ w) (hvw : v ≠ w) :
    multiplicity (T.bind faces) u v w + multiplicity (T.bind faces) v u w =
      (T.filter fun t => u ∈ t.corners ∧ v ∈ t.corners ∧ w ∈ t.corners).card := by
  have hF : ∀ f ∈ T.bind faces, f.corners.Nodup := by
    intro f hf
    obtain ⟨t, ht, hft⟩ := Multiset.mem_bind.mp hf
    exact proper_of_mem_faces (hT t ht) hft
  rw [multiplicity_add_mirror hF huv huw hvw]
  clear hF
  induction T using Multiset.induction_on with
  | empty => simp
  | cons t T ih =>
      have hrest := ih fun s hs => hT s (Multiset.mem_cons_of_mem hs)
      have hhead := card_faces_with (hT t (Multiset.mem_cons_self t T)) huv huw hvw
      rw [Multiset.cons_bind, Multiset.filter_add, Multiset.card_add, hhead, hrest,
        Multiset.filter_cons, Multiset.card_add]
      split_ifs <;> simp

/-- **Behind a face** of a reduced boundary the number of tetrahedra is odd. -/
theorem Reduced.odd_behind (h : Reduced F) (hboundary : boundary T = chain F)
    (hT : ∀ t ∈ T, t.corners.Nodup) {u v w : V} (hf : (u, v, w) ∈ F) :
    Odd (T.filter fun t => u ∈ t.corners ∧ v ∈ t.corners ∧ w ∈ t.corners).card := by
  have hnodup := h.nodup hf
  simp only [Tri.corners, List.nodup_cons, List.mem_cons, List.not_mem_nil, or_false, not_or,
    List.nodup_nil, not_false_iff, and_true] at hnodup
  obtain ⟨⟨huv, huw⟩, hvw⟩ := hnodup
  have hcount : 0 < F.count (u, v, w) := Multiset.count_pos.mpr hf
  have hone := h u v w
  have happly := congrFun hboundary (u, v, w)
  rw [boundary, chain_apply, chain_apply] at happly
  rw [← multiplicity_faces hT huv huw hvw]
  have hsame : multiplicity F u v w = 1 ∧ multiplicity F v u w = 0 := by
    have hpos : 0 < multiplicity F u v w := by
      simp only [multiplicity]
      omega
    omega
  refine ⟨multiplicity (T.bind faces) v u w, ?_⟩
  omega

/-! ## Edges -/

/-- No edge occurs twice, whatever its direction. -/
def EdgesReduced (E : Multiset (V × V)) : Prop := ∀ a b, E.count (a, b) + E.count (b, a) ≤ 1

variable {E : Multiset (V × V)}

theorem edgesReduced_zero : EdgesReduced (0 : Multiset (V × V)) := by
  intro a b
  simp

theorem EdgesReduced.of_cons {e : V × V} (h : EdgesReduced (e ::ₘ E)) : EdgesReduced E := by
  intro a b
  have hall := h a b
  rw [Multiset.count_cons, Multiset.count_cons] at hall
  omega

theorem EdgesReduced.cons {x y : V} (h : EdgesReduced E) (hxy : x ≠ y) (hsame : (x, y) ∉ E)
    (hmirror : (y, x) ∉ E) : EdgesReduced ((x, y) ::ₘ E) := by
  intro a b
  have hold := h a b
  rw [← Multiset.count_eq_zero] at hsame hmirror
  simp only [Multiset.count_cons, Prod.mk.injEq]
  by_cases h1 : a = x ∧ b = y
  · obtain ⟨rfl, rfl⟩ := h1
    rw [if_pos ⟨rfl, rfl⟩, if_neg fun h2 => hxy h2.2]
    omega
  · by_cases h2 : b = x ∧ a = y
    · obtain ⟨rfl, rfl⟩ := h2
      rw [if_neg h1, if_pos ⟨rfl, rfl⟩]
      omega
    · rw [if_neg h1, if_neg h2]
      omega

theorem EdgesReduced.ne (h : EdgesReduced E) {u v : V} (he : (u, v) ∈ E) : u ≠ v := by
  rintro rfl
  have hcount : 0 < E.count (u, u) := Multiset.count_pos.mpr he
  have hone := h u u
  omega

/-- **Beside an edge** of a reduced boundary the number of triangles is odd. -/
theorem EdgesReduced.odd_beside (h : EdgesReduced E)
    (hboundary : edgeChain (F.bind sides) = edgeChain E) (hF : ∀ f ∈ F, f.corners.Nodup) {u v : V}
    (he : (u, v) ∈ E) : Odd (F.filter fun f => u ∈ f.corners ∧ v ∈ f.corners).card := by
  have hcount : 0 < E.count (u, v) := Multiset.count_pos.mpr he
  have hone := h u v
  have happly := congrFun hboundary (u, v)
  rw [edgeChain_apply, edgeChain_apply] at happly
  rw [← count_bind_sides hF (h.ne he)]
  refine ⟨(F.bind sides).count (v, u), ?_⟩
  omega

/-! ## Cones -/

/-- The tetrahedron over a triangle. -/
def cone (v : V) (f : Tri V) : Tet V := (f.1, f.2.1, f.2.2, v)

theorem boundary_map_cone (v : V) (F : Multiset (Tri V)) :
    boundary (F.map (cone v)) = (F.map fun f => chain (faces (cone v f))).sum := by
  induction F using Multiset.induction_on with
  | empty => rfl
  | cons f F ih => rw [Multiset.map_cons, Multiset.map_cons, boundary_cons, Multiset.sum_cons, ih]

theorem alternating_cone (v : V) : Alternating fun f : Tri V => chain (faces (cone v f)) := by
  constructor
  · intro a b c
    simp only [cone, chain_faces, orient]
    abel
  · intro a b c
    simp only [cone, chain_faces, orient]
    abel

/-- The cones over the faces of one tetrahedron: their common sides cancel. -/
theorem sum_cone_faces (v : V) (t : Tet V) :
    ((faces t).map fun f => chain (faces (cone v f))).sum = chain (faces t) := by
  obtain ⟨a, b, c, d⟩ := t
  rw [map_faces]
  simp only [Multiset.insert_eq_cons, Multiset.sum_cons, Multiset.sum_singleton, cone,
    chain_faces, orient]
  abel

/-- **Cones over a boundary** have that boundary. -/
theorem boundary_cones (v : V) (hboundary : boundary T = chain F) :
    boundary (F.map (cone v)) = chain F := by
  rw [boundary_map_cone, ← (alternating_cone v).sum_congr hboundary, Multiset.map_bind,
    Multiset.sum_bind, ← hboundary, boundary, chain_bind]
  simp only [sum_cone_faces]

/-- The triangles at the apex have flat cones, which may be left out. -/
theorem boundary_cones_apart (v : V) (hboundary : boundary T = chain F) :
    boundary ((F.filter fun f => v ∉ Tri.corners f).map (cone v)) = chain F := by
  rw [← boundary_cones v hboundary, boundary_map_cone, boundary_map_cone]
  clear hboundary
  induction F using Multiset.induction_on with
  | empty => rfl
  | cons f F ih =>
      rw [Multiset.map_cons, Multiset.sum_cons, ← ih]
      by_cases hv : v ∈ f.corners
      · have hflat : ¬ (cone v f).corners.Nodup := by
          intro hnodup
          have hperm : (cone v f).corners = f.corners ++ [v] := rfl
          rw [hperm, List.nodup_append] at hnodup
          exact hnodup.2.2 v hv v (List.mem_singleton_self v) rfl
        rw [Multiset.filter_cons_of_neg (p := fun f => v ∉ Tri.corners f) F
          (not_not.mpr hv), chain_faces_of_not_nodup hflat, zero_add]
      · rw [Multiset.filter_cons_of_pos (p := fun f => v ∉ Tri.corners f) F hv,
          Multiset.map_cons, Multiset.sum_cons]

/-- An oriented triangle off the apex is a face of one cone. -/
theorem multiplicity_cones {v x y z : V} (hv : v ∉ Tri.corners (x, y, z)) :
    multiplicity ((F.map (cone v)).bind faces) x y z = multiplicity F x y z := by
  simp only [Tri.corners, List.mem_cons, List.not_mem_nil, or_false, not_or] at hv
  obtain ⟨hx, hy, hz⟩ := hv
  induction F using Multiset.induction_on with
  | empty => rfl
  | cons f F ih =>
      have hhead : multiplicity (faces (cone v f)) x y z = multiplicity {f} x y z := by
        obtain ⟨a, b, c⟩ := f
        simp only [multiplicity, faces, cone, Multiset.insert_eq_cons, Multiset.count_cons,
          Multiset.count_singleton, Prod.mk.injEq, Ne.symm hx, Ne.symm hy, Ne.symm hz,
          false_and, and_false, if_false, add_zero]
      rw [Multiset.map_cons, Multiset.cons_bind, multiplicity_cons, ← ih, ← hhead]
      simp only [multiplicity, Multiset.count_add]
      omega

end Chains
