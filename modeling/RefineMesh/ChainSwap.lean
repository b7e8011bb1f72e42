import Mathlib.Tactic
import RefineMesh.ChainCollapse

/-!
# Exchanged diagonals

Two triangles on the two sides of an edge are replaced by the two triangles on
the other diagonal of their quadrilateral.  All that is said about directed
edges follows from one identity: the sides before and after differ by the two
directions of the two diagonals.
-/

namespace Chains

variable {V : Type*}

/-- The same triangle from another corner on. -/
def Turned (f h : Tri V) : Prop :=
  f = h ∨ f = (h.2.1, h.2.2, h.1) ∨ f = (h.2.2, h.1, h.2.1)

theorem Turned.sides {f h : Tri V} (hturn : Turned f h) : sides f = sides h := by
  obtain ⟨a, b, c⟩ := h
  rcases hturn with rfl | rfl | rfl
  · rfl
  · exact Multiset.coe_eq_coe.mpr (List.perm_append_comm : ([(b, c), (c, a)] ++ [(a, b)]).Perm _)
  · exact Multiset.coe_eq_coe.mpr (List.perm_append_comm : ([(c, a)] ++ [(a, b), (b, c)]).Perm _)

theorem Turned.mem_corners {f h : Tri V} (hturn : Turned f h) {x : V} :
    x ∈ f.corners ↔ x ∈ h.corners := by
  obtain ⟨a, b, c⟩ := h
  rcases hturn with rfl | rfl | rfl <;>
    simp only [Tri.corners, List.mem_cons, List.not_mem_nil, or_false] <;> tauto

theorem Turned.nodup {f h : Tri V} (hturn : Turned f h) (hf : f.corners.Nodup) :
    h.corners.Nodup := by
  obtain ⟨a, b, c⟩ := h
  have hrotated : f.corners ~r [a, b, c] := by
    rcases hturn with rfl | rfl | rfl
    · exact List.IsRotated.refl _
    · exact List.IsRotated.symm ⟨1, rfl⟩
    · exact List.IsRotated.symm ⟨2, rfl⟩
  exact hrotated.nodup_iff.mp hf

/-- A triangle with two given corners runs along their edge one way or the
other. -/
theorem exists_turned {f : Tri V} {a b : V} (hf : f.corners.Nodup) (hab : a ≠ b)
    (ha : a ∈ f.corners) (hb : b ∈ f.corners) :
    ∃ c, c ≠ a ∧ c ≠ b ∧ (Turned f (a, b, c) ∨ Turned f (b, a, c)) := by
  obtain ⟨x, y, z⟩ := f
  simp only [Tri.corners, List.nodup_cons, List.mem_cons, List.not_mem_nil, or_false, not_or,
    List.nodup_nil, not_false_iff, and_true] at hf ha hb
  obtain ⟨⟨hxy, hxz⟩, hyz⟩ := hf
  simp only [Turned, Prod.mk.injEq]
  -- one case for each pair of places of `a` and `b`
  rcases ha with rfl | rfl | rfl
  · rcases hb with rfl | rfl | rfl
    · exact absurd rfl hab
    · exact ⟨z, Ne.symm hxz, Ne.symm hyz, by simp⟩
    · exact ⟨y, Ne.symm hxy, hyz, by simp⟩
  · rcases hb with rfl | rfl | rfl
    · exact ⟨z, Ne.symm hyz, Ne.symm hxz, by simp⟩
    · exact absurd rfl hab
    · exact ⟨x, hxy, hxz, by simp⟩
  · rcases hb with rfl | rfl | rfl
    · exact ⟨y, hyz, Ne.symm hxy, by simp⟩
    · exact ⟨x, hxz, hxy, by simp⟩
    · exact absurd rfl hab

/-- A triangle does not run along an edge both ways. -/
theorem not_turned_both {f : Tri V} {a b c d : V} (hab : a ≠ b) (hca : c ≠ a) (hcb : c ≠ b)
    (h : Turned f (a, b, c)) : ¬ Turned f (b, a, d) := by
  simp only [Turned] at h ⊢
  rcases h with rfl | rfl | rfl <;> simp only [Prod.mk.injEq] <;> grind

/-- Two triangles on an edge and those on the other diagonal have the same
sides, but for the diagonals. -/
theorem sides_exchanged (a b c d : V) :
    sides (a, d, c) + sides (b, c, d) + {(a, b), (b, a)} =
      sides (a, b, c) + sides (b, a, d) + {(c, d), (d, c)} := by
  simp only [sides, Multiset.insert_eq_cons, ← Multiset.singleton_add]
  abel

variable [DecidableEq V]

/-- The triangles `F'` are `F` with two triangles on the edge from `a` to `b`
replaced by those on the edge from `c` to `d`. -/
def Exchanged (F F' : Multiset (Tri V)) (a b c d : V) : Prop :=
  ∃ f h, F' + {f, h} = F + {(a, d, c), (b, c, d)} ∧ f ∈ F ∧ h ∈ F ∧ Turned f (a, b, c) ∧
    Turned h (b, a, d)

namespace Exchanged

variable {F F' : Multiset (Tri V)} {a b c d : V}

omit [DecidableEq V] in
theorem card_eq (hex : Exchanged F F' a b c d) : F'.card = F.card := by
  obtain ⟨f, h, heq, _⟩ := hex
  have hcard := congrArg Multiset.card heq
  simpa using hcard

omit [DecidableEq V] in
/-- **The identity of sides.** -/
theorem bind_sides (hex : Exchanged F F' a b c d) :
    F'.bind sides + {(a, b), (b, a)} = F.bind sides + {(c, d), (d, c)} := by
  obtain ⟨f, h, heq, _, _, hf, hh⟩ := hex
  have hsides := congrArg (Multiset.bind · sides) heq
  simp only [Multiset.insert_eq_cons, Multiset.add_bind, Multiset.cons_bind,
    Multiset.singleton_bind, hf.sides, hh.sides] at hsides
  apply add_right_cancel (b := sides (a, b, c) + sides (b, a, d))
  calc F'.bind sides + {(a, b), (b, a)} + (sides (a, b, c) + sides (b, a, d))
      = F.bind sides + (sides (a, d, c) + sides (b, c, d) + {(a, b), (b, a)}) := by
        rw [add_right_comm, hsides, add_assoc]
    _ = F.bind sides + {(c, d), (d, c)} + (sides (a, b, c) + sides (b, a, d)) := by
        rw [sides_exchanged]
        abel

/-- The boundary is where it was. -/
theorem edgeChain_eq (hex : Exchanged F F' a b c d) :
    edgeChain (F'.bind sides) = edgeChain (F.bind sides) := by
  have hdiagonal : ∀ x y : V, edgeChain {(x, y), (y, x)} = 0 := by
    intro x y
    simp [Multiset.insert_eq_cons, side]
  have hchain := congrArg edgeChain hex.bind_sides
  rwa [edgeChain_add, edgeChain_add, hdiagonal, hdiagonal, add_zero, add_zero] at hchain

omit [DecidableEq V] in
/-- Only the old diagonal is lost. -/
theorem mem_sides (hex : Exchanged F F' a b c d) {e : V × V} (he : e ∈ F.bind sides)
    (hab : e ≠ (a, b)) (hba : e ≠ (b, a)) : e ∈ F'.bind sides := by
  have hmem : e ∈ F'.bind sides + {(a, b), (b, a)} := by
    rw [hex.bind_sides]
    exact Multiset.mem_add.mpr (Or.inl he)
  simpa [hab, hba] using hmem

omit [DecidableEq V] in
theorem mem_cases (hex : Exchanged F F' a b c d) {t : Tri V} (ht : t ∈ F') :
    t ∈ F ∨ t = (a, d, c) ∨ t = (b, c, d) := by
  obtain ⟨f, h, heq, _⟩ := hex
  have hmem : t ∈ F' + {f, h} := Multiset.mem_add.mpr (Or.inl ht)
  rw [heq] at hmem
  simpa [or_left_comm] using hmem

/-- A new diagonal that is the side of no triangle doubles no directed edge. -/
theorem directedOnce (hex : Exchanged F F' a b c d) (honce : DirectedOnce F) (hcd : c ≠ d)
    (hnone : ∀ t ∈ F, ¬ (c ∈ t.corners ∧ d ∈ t.corners)) : DirectedOnce F' := by
  have hout : (c, d) ∉ F.bind sides ∧ (d, c) ∉ F.bind sides := by
    constructor
    · intro hmem
      obtain ⟨t, ht, hside⟩ := Multiset.mem_bind.mp hmem
      exact hnone t ht (corners_of_mem_sides hside)
    · intro hmem
      obtain ⟨t, ht, hside⟩ := Multiset.mem_bind.mp hmem
      exact hnone t ht (corners_of_mem_sides hside).symm
  rw [directedOnce_iff] at honce ⊢
  have hnodup : (F.bind sides + {(c, d), (d, c)}).Nodup := by
    apply Multiset.nodup_add.mpr
    refine ⟨honce, ?_, ?_⟩
    · simp [hcd]
    · simpa [Multiset.disjoint_right] using hout
  rw [← hex.bind_sides] at hnodup
  exact (Multiset.nodup_add.mp hnodup).1

omit [DecidableEq V] in
theorem simple (hex : Exchanged F F' a b c d) (hF : ∀ t ∈ F, t.corners.Nodup) (hcd : c ≠ d) :
    ∀ t ∈ F', t.corners.Nodup := by
  intro t ht
  obtain ⟨f, h, _, hf, hh, hturnf, hturnh⟩ := id hex
  have hnodup0 := hturnf.nodup (hF f hf)
  have hnodup1 := hturnh.nodup (hF h hh)
  simp only [Tri.corners, List.nodup_cons, List.mem_cons, List.not_mem_nil, or_false, not_or,
    List.nodup_nil, not_false_iff, and_true] at hnodup0 hnodup1
  obtain ⟨⟨_, hac⟩, hbc⟩ := hnodup0
  obtain ⟨⟨_, hbd⟩, had⟩ := hnodup1
  rcases hex.mem_cases ht with ht | rfl | rfl
  · exact hF t ht
  · simp [Tri.corners, had, hac, Ne.symm hcd]
  · simp [Tri.corners, hbc, hbd, hcd]

/-- The new diagonal has two ends: the old triangles would have the same
corners otherwise. -/
theorem third_ne (hex : Exchanged F F' a b c d) (hF : ∀ t ∈ F, t.corners.Nodup)
    (hdistinct : (F.map fun t => t.corners.toFinset).Nodup) : c ≠ d := by
  intro hcd
  obtain ⟨f, h, _, hf, hh, hturnf, hturnh⟩ := hex
  have hset : f.corners.toFinset = h.corners.toFinset := by
    ext x
    rw [List.mem_toFinset, List.mem_toFinset, hturnf.mem_corners, hturnh.mem_corners, hcd]
    exact mem_corners_mirror
  have hfh : f = h := Multiset.inj_on_of_nodup_map hdistinct f hf h hh hset
  have hnodup := hturnf.nodup (hF f hf)
  simp only [Tri.corners, List.nodup_cons, List.mem_cons, List.not_mem_nil, or_false, not_or,
    List.nodup_nil, not_false_iff, and_true] at hnodup
  exact not_turned_both hnodup.1.1 (Ne.symm hnodup.1.2) (Ne.symm hnodup.2) hturnf (hfh ▸ hturnh)

/-- The new triangles are the only ones with both ends of the new diagonal. -/
theorem distinct (hex : Exchanged F F' a b c d) (hF : ∀ t ∈ F, t.corners.Nodup)
    (hdistinct : (F.map fun t => t.corners.toFinset).Nodup)
    (hnone : ∀ t ∈ F, ¬ (c ∈ t.corners ∧ d ∈ t.corners)) :
    (F'.map fun t => t.corners.toFinset).Nodup := by
  obtain ⟨f, h, heq, hf, hh, hturnf, hturnh⟩ := hex
  have hsets := congrArg (Multiset.map fun t => t.corners.toFinset) heq
  rw [Multiset.map_add, Multiset.map_add] at hsets
  have hout : ∀ S : Finset V, c ∈ S → d ∈ S → S ∉ F.map fun t => t.corners.toFinset := by
    intro S hc hd hmem
    obtain ⟨t, ht, rfl⟩ := Multiset.mem_map.mp hmem
    exact hnone t ht ⟨List.mem_toFinset.mp hc, List.mem_toFinset.mp hd⟩
  have hnodup : (F.map (fun t => t.corners.toFinset) +
      ({(a, d, c), (b, c, d)} : Multiset (Tri V)).map fun t => t.corners.toFinset).Nodup := by
    apply Multiset.nodup_add.mpr
    refine ⟨hdistinct, ?_, ?_⟩
    · have hne : ([a, d, c] : List V).toFinset ≠ [b, c, d].toFinset := by
        intro hset
        have ha : a ∈ ([b, c, d] : List V).toFinset := hset ▸ by simp
        have hnodup0 := hturnf.nodup (hF f hf)
        have hnodup1 := hturnh.nodup (hF h hh)
        simp only [Tri.corners, List.nodup_cons, List.mem_cons, List.not_mem_nil, or_false, not_or,
          List.nodup_nil, not_false_iff, and_true] at hnodup0 hnodup1
        simp [hnodup0.1.1, hnodup0.1.2, hnodup1.2] at ha
      simpa [Tri.corners] using hne
    · apply Multiset.disjoint_right.mpr
      intro S hS
      simp only [Multiset.insert_eq_cons, Multiset.map_cons, Multiset.map_singleton,
        Multiset.mem_cons, Multiset.mem_singleton] at hS
      rcases hS with rfl | rfl <;> exact hout _ (by simp [Tri.corners]) (by simp [Tri.corners])
  rw [← hsets] at hnodup
  exact (Multiset.nodup_add.mp hnodup).1

end Exchanged

/-- Of two triangles on an edge one runs along it each way. -/
theorem DirectedOnce.opposite {F : Multiset (Tri V)} (honce : DirectedOnce F) {f h : Tri V}
    (hle : {f, h} ≤ F) {a b c d : V} (hturn : Turned f (a, b, c)) : ¬ Turned h (a, b, d) := by
  intro hturn'
  obtain ⟨rest, rfl⟩ := Multiset.le_iff_exists_add.mp hle
  have hcount := honce a b
  simp only [Multiset.insert_eq_cons, Multiset.add_bind, Multiset.cons_bind,
    Multiset.singleton_bind, hturn.sides, hturn'.sides, Multiset.count_add] at hcount
  have h1 : 0 < (sides (a, b, c)).count (a, b) := Multiset.count_pos.mpr (by simp [sides])
  have h2 : 0 < (sides (a, b, d)).count (a, b) := Multiset.count_pos.mpr (by simp [sides])
  omega

end Chains
