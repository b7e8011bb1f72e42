import Mathlib.Tactic
import RefineMesh.ChainSwap

/-!
# Peeling

A tetrahedron with faces on the boundary is taken away; its faces on the
boundary go with it and its other faces appear with the opposite orientation.
When no oriented face belongs to two tetrahedra, the triangles stay the unshared
faces.
-/

namespace Chains

variable {V : Type*} [DecidableEq V]

/-- Every oriented face belongs to one tetrahedron at most. -/
def FaceOnce (T : Multiset (Tet V)) : Prop := ∀ a b c, multiplicity (T.bind faces) a b c ≤ 1

theorem faceOnce_iff {T : Multiset (Tet V)} :
    FaceOnce T ↔ ∀ f ∈ T.bind faces, multiplicity (T.bind faces) f.1 f.2.1 f.2.2 ≤ 1 := by
  constructor
  · intro h f _
    exact h _ _ _
  · intro h a b c
    by_contra hmany
    have hpos : 0 < multiplicity (T.bind faces) a b c := by omega
    simp only [multiplicity] at hpos hmany
    by_cases h1 : 0 < (T.bind faces).count (a, b, c)
    · have hone := h _ (Multiset.count_pos.mp h1)
      simp only [multiplicity] at hone
      omega
    by_cases h2 : 0 < (T.bind faces).count (b, c, a)
    · have hone := h _ (Multiset.count_pos.mp h2)
      simp only [multiplicity] at hone
      omega
    have h3 : 0 < (T.bind faces).count (c, a, b) := by omega
    have hone := h _ (Multiset.count_pos.mp h3)
    simp only [multiplicity] at hone
    omega

instance (T : Multiset (Tet V)) : Decidable (FaceOnce T) := decidable_of_iff' _ faceOnce_iff

theorem FaceOnce.of_le {T T' : Multiset (Tet V)} (h : FaceOnce T) (hle : T' ≤ T) : FaceOnce T' := by
  obtain ⟨rest, rfl⟩ := Multiset.le_iff_exists_add.mp hle
  intro a b c
  have hone := h a b c
  simp only [multiplicity, Multiset.add_bind, Multiset.count_add] at hone ⊢
  omega

/-! ## Orientation -/

omit [DecidableEq V] in
/-- Two proper triangles with the same corners have the same orientation or
opposite ones. -/
theorem turned_or_mirror {f : Tri V} {a b c : V} (hf : f.corners.Nodup) (hab : a ≠ b)
    (ha : a ∈ f.corners) (hb : b ∈ f.corners) (hc : c ∈ f.corners) (hca : c ≠ a) (hcb : c ≠ b) :
    Turned f (a, b, c) ∨ Turned f (b, a, c) := by
  obtain ⟨d, hda, hdb, hturn⟩ := exists_turned hf hab ha hb
  have hcd : c = d := by
    rcases hturn with h | h
    · have hmem := h.mem_corners.mp hc
      simpa [Tri.corners, hca, hcb] using hmem
    · have hmem := h.mem_corners.mp hc
      simpa [Tri.corners, hca, hcb] using hmem
  exact hcd ▸ hturn

theorem Turned.multiplicity_pos {F : Multiset (Tri V)} {f : Tri V} (hf : f ∈ F) {a b c : V}
    (hturn : Turned f (a, b, c)) : 0 < multiplicity F a b c := by
  have hpos := Multiset.count_pos.mpr hf
  unfold multiplicity
  rcases hturn with rfl | rfl | rfl
  · omega
  · change 0 < F.count (b, c, a) at hpos
    omega
  · change 0 < F.count (c, a, b) at hpos
    omega

theorem exists_turned_of_multiplicity {F : Multiset (Tri V)} {a b c : V}
    (h : 0 < multiplicity F a b c) : ∃ f ∈ F, Turned f (a, b, c) := by
  unfold multiplicity at h
  by_cases h1 : 0 < F.count (a, b, c)
  · exact ⟨_, Multiset.count_pos.mp h1, Or.inl rfl⟩
  by_cases h2 : 0 < F.count (b, c, a)
  · exact ⟨_, Multiset.count_pos.mp h2, Or.inr (Or.inl rfl)⟩
  · exact ⟨_, Multiset.count_pos.mp (by omega : 0 < F.count (c, a, b)), Or.inr (Or.inr rfl)⟩

theorem Turned.orient_eq {f h : Tri V} (hturn : Turned f h) : orient f = orient h := by
  obtain ⟨a, b, c⟩ := h
  rcases hturn with rfl | rfl | rfl
  · rfl
  · exact alternating_orient.rotate a b c
  · exact (alternating_orient.rotate b c a).trans (alternating_orient.rotate a b c)

omit [DecidableEq V] in
theorem faces_simple {t : Tet V} (ht : t.corners.Nodup) : ∀ f ∈ faces t, f.corners.Nodup := by
  obtain ⟨a, b, c, d⟩ := t
  simp only [Tet.corners, List.nodup_cons, List.mem_cons, List.not_mem_nil, or_false, not_or,
    List.nodup_nil, not_false_iff, and_true] at ht
  intro f hf
  simp only [faces, Multiset.insert_eq_cons, Multiset.mem_cons, Multiset.mem_singleton] at hf
  rcases hf with rfl | rfl | rfl | rfl <;> simp [Tri.corners] <;> grind

/-- The triangle seen from the other side. -/
def Tri.mirror (f : Tri V) : Tri V := (f.2.1, f.1, f.2.2)

theorem chain_map_mirror (m : Multiset (Tri V)) : chain (m.map Tri.mirror) = -chain m := by
  induction m using Multiset.induction_on with
  | empty => simp
  | cons f m ih =>
      rw [Multiset.map_cons, chain_cons, chain_cons, ih, neg_add]
      congr 1
      exact alternating_orient.mirror f.1 f.2.1 f.2.2

/-! ## Unshared faces by their chain -/

/-- Triangles with the chain of a boundary are its unshared faces, when no two
have the same corners. -/
theorem Unshared.of_boundary {T : Multiset (Tet V)} {F : Multiset (Tri V)}
    (h : boundary T = chain F) (hF : ∀ f ∈ F, f.corners.Nodup)
    (hdistinct : (F.map fun f => f.corners.toFinset).Nodup) : Unshared T F := by
  intro a b c
  have hbalance := congrFun h (a, b, c)
  rw [boundary, chain_apply, chain_apply] at hbalance
  have hside : multiplicity F a b c = 0 ∨ multiplicity F b a c = 0 := by
    by_contra hboth
    rw [not_or] at hboth
    obtain ⟨f, hf, hturnf⟩ := exists_turned_of_multiplicity (Nat.pos_of_ne_zero hboth.1)
    obtain ⟨f', hf', hturnf'⟩ := exists_turned_of_multiplicity (Nat.pos_of_ne_zero hboth.2)
    have hset : f.corners.toFinset = f'.corners.toFinset := by
      ext x
      rw [List.mem_toFinset, List.mem_toFinset, hturnf.mem_corners, hturnf'.mem_corners]
      exact mem_corners_mirror
    have hff' : f = f' := Multiset.inj_on_of_nodup_map hdistinct f hf f' hf' hset
    have hnodup := hturnf.nodup (hF f hf)
    simp only [Tri.corners, List.nodup_cons, List.mem_cons, List.not_mem_nil, or_false, not_or,
      List.nodup_nil, not_false_iff, and_true] at hnodup
    exact not_turned_both hnodup.1.1 (Ne.symm hnodup.1.2) (Ne.symm hnodup.2) hturnf (hff' ▸ hturnf')
  omega

/-- Where oriented faces belong to one tetrahedron at most, no two unshared
faces have the same corners. -/
theorem Unshared.distinct {T : Multiset (Tet V)} {F : Multiset (Tri V)} (h : Unshared T F)
    (honce : FaceOnce T) (hF : ∀ f ∈ F, f.corners.Nodup) :
    (F.map fun f => f.corners.toFinset).Nodup := by
  apply Multiset.nodup_iff_count_le_one.mpr
  intro S
  rw [Multiset.count_map]
  by_cases hnone : (F.filter fun f => S = f.corners.toFinset) = 0
  · rw [hnone]
    exact Nat.zero_le 1
  obtain ⟨f, hf⟩ := Multiset.exists_mem_of_ne_zero hnone
  obtain ⟨hfF, rfl⟩ := Multiset.mem_filter.mp hf
  have hnodup := hF f hfF
  obtain ⟨a, b, c⟩ := f
  simp only [Tri.corners, List.nodup_cons, List.mem_cons, List.not_mem_nil, or_false, not_or,
    List.nodup_nil, not_false_iff, and_true] at hnodup
  have hcard := multiplicity_add_mirror hF hnodup.1.1 hnodup.1.2 hnodup.2
  have h1 := h a b c
  have h2 := h b a c
  have h3 := honce a b c
  have h4 := honce b a c
  refine le_trans (Multiset.card_le_card ?_) (hcard.ge.trans (by omega))
  apply Multiset.monotone_filter_right
  intro f' hset
  have hmem : ∀ x, x ∈ [a, b, c] → x ∈ f'.corners := by
    intro x hx
    rw [← List.mem_toFinset, ← hset]
    exact List.mem_toFinset.mpr hx
  exact ⟨hmem a (by simp), hmem b (by simp), hmem c (by simp)⟩

/-- Unshared faces are faces. -/
theorem Unshared.exists_face {T : Multiset (Tet V)} {F : Multiset (Tri V)} (h : Unshared T F)
    {f : Tri V} (hf : f ∈ F) : ∃ t ∈ T, ∃ f' ∈ faces t, Turned f' f := by
  have hpos : 0 < multiplicity F f.1 f.2.1 f.2.2 := Turned.multiplicity_pos hf (Or.inl rfl)
  rw [h] at hpos
  obtain ⟨f', hf', hturn⟩ := exists_turned_of_multiplicity
    (by omega : 0 < multiplicity (T.bind faces) f.1 f.2.1 f.2.2)
  obtain ⟨t, ht, hface⟩ := Multiset.mem_bind.mp hf'
  exact ⟨t, ht, f', hface, hturn⟩

theorem Unshared.simple {T : Multiset (Tet V)} {F : Multiset (Tri V)} (h : Unshared T F)
    (hT : ∀ t ∈ T, t.corners.Nodup) : ∀ f ∈ F, f.corners.Nodup := by
  intro f hf
  obtain ⟨t, ht, f', hface, hturn⟩ := h.exists_face hf
  exact hturn.nodup (faces_simple (hT t ht) f' hface)

/-- An unshared face with the corners of a face of a tetrahedron has its
orientation. -/
theorem Unshared.turned {T : Multiset (Tet V)} {F : Multiset (Tri V)} (h : Unshared T F)
    (honce : FaceOnce T) {f : Tri V} (hf : f ∈ F) (hnodup : f.corners.Nodup) {t : Tri V}
    (ht : t ∈ T.bind faces) (htnodup : t.corners.Nodup)
    (hset : ∀ x, x ∈ t.corners → x ∈ f.corners) : Turned f t := by
  obtain ⟨a, b, c⟩ := t
  simp only [Tri.corners, List.nodup_cons, List.mem_cons, List.not_mem_nil, or_false, not_or,
    List.nodup_nil, not_false_iff, and_true] at htnodup
  obtain ⟨⟨hab, hac⟩, hbc⟩ := htnodup
  rcases turned_or_mirror hnodup hab (hset a (by simp [Tri.corners]))
    (hset b (by simp [Tri.corners])) (hset c (by simp [Tri.corners])) (Ne.symm hac)
    (Ne.symm hbc) with hturn | hturn
  · exact hturn
  · -- the mirror image would be cancelled by the face itself
    exfalso
    have hpos := hturn.multiplicity_pos hf
    have hface : 0 < multiplicity (T.bind faces) a b c := Turned.multiplicity_pos ht (Or.inl rfl)
    have h1 := h b a c
    have h2 := honce b a c
    omega

/-! ## Peeling -/

section Peeled

variable {T T' : Multiset (Tet V)} {F F' gone found rest : Multiset (Tri V)} {t : Tet V}

theorem faces_distinct {t : Tet V} (ht : t.corners.Nodup) :
    ((faces t).map fun f => f.corners.toFinset).Nodup := by
  obtain ⟨a, b, c, d⟩ := t
  simp only [Tet.corners, List.nodup_cons, List.mem_cons, List.not_mem_nil, or_false, not_or,
    List.nodup_nil, not_false_iff, and_true] at ht
  obtain ⟨⟨hab, hac, had⟩, ⟨hbc, hbd⟩, hcd⟩ := ht
  have hne : ∀ {l l' : List V} (x : V), x ∈ l → x ∉ l' → l.toFinset ≠ l'.toFinset := by
    intro l l' x hx hx' hset
    exact hx' (List.mem_toFinset.mp (hset ▸ List.mem_toFinset.mpr hx))
  -- two faces differ in the corner that the second leaves out
  simp only [faces, Multiset.insert_eq_cons, Multiset.map_cons, Multiset.map_singleton,
    Multiset.nodup_cons, Multiset.mem_cons, Multiset.mem_singleton, Multiset.nodup_singleton,
    Tri.corners, not_or, and_true]
  refine ⟨⟨hne b ?_ ?_, hne c ?_ ?_, hne d ?_ ?_⟩, ⟨hne c ?_ ?_, hne d ?_ ?_⟩, hne d ?_ ?_⟩ <;>
    simp [Ne.symm hab, Ne.symm hac, Ne.symm had, Ne.symm hbc, Ne.symm hbd, Ne.symm hcd, hbc, hbd,
      hcd]

/-- **Peeling** keeps the triangles the unshared faces. -/
theorem Unshared.peeled (h : Unshared T F) (hT : T = t ::ₘ T') (ht : t.corners.Nodup)
    (honce : FaceOnce T) (hF : ∀ f ∈ F, f.corners.Nodup) (hfaces : faces t = found + rest)
    (hgone : chain gone = chain found) (htris : F' + gone = F + rest.map Tri.mirror)
    (hrest : ∀ f ∈ rest, ∀ f' ∈ F, f'.corners.toFinset ≠ f.corners.toFinset) :
    Unshared T' F' := by
  have hmem : ∀ f ∈ F', f ∈ F ∨ ∃ f' ∈ rest, f'.mirror = f := by
    intro f hf
    have hin : f ∈ F' + gone := Multiset.mem_add.mpr (Or.inl hf)
    rw [htris, Multiset.mem_add, Multiset.mem_map] at hin
    exact hin
  apply Unshared.of_boundary
  · have hchain := congrArg chain htris
    rw [chain_add, chain_add, chain_map_mirror, hgone, ← h.boundary_eq, hT, boundary_cons, hfaces,
      chain_add] at hchain
    have hsum : chain F' + chain found = boundary T' + chain found := by
      rw [hchain]
      abel
    exact (add_right_cancel hsum).symm
  · intro f hf
    rcases hmem f hf with hf | ⟨f', hf', rfl⟩
    · exact hF f hf
    · have hnodup := faces_simple ht f' (hfaces ▸ Multiset.mem_add.mpr (Or.inr hf'))
      exact (List.Perm.swap _ _ _).nodup_iff.mp hnodup
  · have hmirror : ∀ f : Tri V, f.mirror.corners.toFinset = f.corners.toFinset := by
      intro f
      ext x
      rw [List.mem_toFinset, List.mem_toFinset]
      exact mem_corners_mirror
    have hsets := congrArg (Multiset.map fun f : Tri V => f.corners.toFinset) htris
    rw [Multiset.map_add, Multiset.map_add, Multiset.map_map] at hsets
    simp only [Function.comp_def, hmirror] at hsets
    have hnodup : (F.map (fun f => f.corners.toFinset) +
        rest.map fun f => f.corners.toFinset).Nodup := by
      apply Multiset.nodup_add.mpr
      refine ⟨h.distinct honce hF, ?_, ?_⟩
      · have hall := faces_distinct ht
        rw [hfaces, Multiset.map_add] at hall
        exact (Multiset.nodup_add.mp hall).2.1
      · apply Multiset.disjoint_right.mpr
        intro S hS hS'
        obtain ⟨f, hf, rfl⟩ := Multiset.mem_map.mp hS
        obtain ⟨f', hf', hsame⟩ := Multiset.mem_map.mp hS'
        exact hrest f hf f' hf' hsame
    rw [← hsets] at hnodup
    exact (Multiset.nodup_add.mp hnodup).1

end Peeled

/-! ## Connected stars -/

/-- Two tetrahedra with a common face at a vertex. -/
def MeetsAt (v : V) (t t' : Tet V) : Prop :=
  ∃ f ∈ faces t, ∃ f' ∈ faces t', v ∈ f.corners ∧ f.corners.toFinset = f'.corners.toFinset

/-- The tetrahedra at a vertex are connected through their faces there. -/
def StarConnected (T : Multiset (Tet V)) (v : V) : Prop :=
  ∀ t ∈ T, ∀ t' ∈ T, v ∈ t.corners → v ∈ t'.corners →
    Relation.ReflTransGen (fun x y => y ∈ T ∧ MeetsAt v x y) t t'

/-- Another tetrahedron on an unshared face would share it. -/
theorem Unshared.not_meetsAt {T T' : Multiset (Tet V)} {F : Multiset (Tri V)} {t t' : Tet V} {v : V}
    (h : Unshared T F) (honce : FaceOnce T) (hT : T = t ::ₘ T')
    (hsimple : ∀ t ∈ T, t.corners.Nodup)
    (hopen : ∀ f ∈ faces t, v ∈ f.corners → ∃ f' ∈ F, Turned f' f) (ht' : t' ∈ T') :
    ¬ MeetsAt v t t' := by
  rintro ⟨f, hf, f', hf', hv, hset⟩
  have htT : t ∈ T := hT ▸ Multiset.mem_cons_self t T'
  have ht'T : t' ∈ T := hT ▸ Multiset.mem_cons_of_mem ht'
  obtain ⟨g, hg, hturn⟩ := hopen f hf hv
  have hnodup := faces_simple (hsimple t htT) f hf
  have hnodup' := faces_simple (hsimple t' ht'T) f' hf'
  have hin : ∀ x ∈ f.corners, x ∈ f'.corners := by
    intro x hx
    rw [← List.mem_toFinset, ← hset]
    exact List.mem_toFinset.mpr hx
  have hpos := hturn.multiplicity_pos hg
  have hunshared := h f.1 f.2.1 f.2.2
  have hone := honce f.1 f.2.1 f.2.2
  have hsplit : multiplicity (T.bind faces) f.1 f.2.1 f.2.2 =
      multiplicity (faces t) f.1 f.2.1 f.2.2 + multiplicity (T'.bind faces) f.1 f.2.1 f.2.2 := by
    simp only [hT, multiplicity, Multiset.cons_bind, Multiset.count_add]
    omega
  have hmine : 0 < multiplicity (faces t) f.1 f.2.1 f.2.2 :=
    Turned.multiplicity_pos hf (Or.inl rfl)
  simp only [Tri.corners, List.nodup_cons, List.mem_cons, List.not_mem_nil, or_false, not_or,
    List.nodup_nil, not_false_iff, and_true] at hnodup
  rcases turned_or_mirror hnodup' hnodup.1.1 (hin f.1 (by simp [Tri.corners]))
    (hin f.2.1 (by simp [Tri.corners])) (hin f.2.2 (by simp [Tri.corners]))
    (Ne.symm hnodup.1.2) (Ne.symm hnodup.2) with hsame | hmirror
  · have htheirs := hsame.multiplicity_pos (Multiset.mem_bind.mpr ⟨t', ht', hf'⟩)
    change 0 < multiplicity F f.1 f.2.1 f.2.2 at hpos
    omega
  · have htheirs := hmirror.multiplicity_pos (Multiset.mem_bind.mpr ⟨t', ht'T, hf'⟩)
    change 0 < multiplicity F f.1 f.2.1 f.2.2 at hpos
    omega

/-- A tetrahedron whose faces at a vertex are unshared is alone there. -/
theorem StarConnected.alone {T T' : Multiset (Tet V)} {F : Multiset (Tri V)} {t : Tet V} {v : V}
    (hstar : StarConnected T v) (h : Unshared T F) (honce : FaceOnce T) (hT : T = t ::ₘ T')
    (hsimple : ∀ t ∈ T, t.corners.Nodup) (hv : v ∈ t.corners)
    (hopen : ∀ f ∈ faces t, v ∈ f.corners → ∃ f' ∈ F, Turned f' f) :
    ∀ t' ∈ T', v ∉ t'.corners := by
  intro t' ht' hv'
  have htT : t ∈ T := hT ▸ Multiset.mem_cons_self t T'
  have hpath := hstar t htT t' (hT ▸ Multiset.mem_cons_of_mem ht') hv hv'
  have hsame : t' = t := by
    clear ht' hv'
    induction hpath with
    | refl => rfl
    | tail _ hstep ih =>
        obtain ⟨hin, hmeets⟩ := hstep
        rw [ih] at hmeets
        rw [hT, Multiset.mem_cons] at hin
        rcases hin with rfl | hin
        · rfl
        · exact absurd hmeets (h.not_meetsAt honce hT hsimple hopen hin)
  subst hsame
  obtain ⟨f, hf, hvf⟩ : ∃ f ∈ faces t', v ∈ f.corners := by
    obtain ⟨a, b, c, d⟩ := t'
    simp only [Tet.corners, List.mem_cons, List.not_mem_nil, or_false] at hv
    rcases hv with rfl | rfl | rfl | rfl
    · exact ⟨(v, b, c), by simp [faces], by simp [Tri.corners]⟩
    · exact ⟨(a, v, c), by simp [faces], by simp [Tri.corners]⟩
    · exact ⟨(a, b, v), by simp [faces], by simp [Tri.corners]⟩
    · exact ⟨(a, c, v), by simp [faces], by simp [Tri.corners]⟩
  exact h.not_meetsAt honce hT hsimple hopen ht' ⟨f, hf, f, hf, hvf, rfl⟩

/-! ## Fans -/

/-- The triangles at a vertex are connected through their edges there. -/
def OneFan (F : Multiset (Tri V)) (v : V) : Prop :=
  ∀ f ∈ F, ∀ h ∈ F, v ∈ f.corners → v ∈ h.corners →
    Relation.ReflTransGen (fun x y => y ∈ F ∧ v ∈ y.corners ∧
      ∃ w ∈ x.corners, w ≠ v ∧ w ∈ y.corners) f h

omit [DecidableEq V] in
/-- Fans in which two steps lead everywhere. -/
theorem oneFan_of_two_steps {F : Multiset (Tri V)}
    (hstep : ∀ f ∈ F, ∀ h ∈ F, ∀ v ∈ f.corners, v ∈ h.corners → ∃ k ∈ F, v ∈ k.corners ∧
      (∃ w ∈ f.corners, w ≠ v ∧ w ∈ k.corners) ∧ ∃ w ∈ k.corners, w ≠ v ∧ w ∈ h.corners)
    (v : V) : OneFan F v := by
  intro f hf h hh hvf hvh
  obtain ⟨k, hk, hvk, hfk, hkh⟩ := hstep f hf h hh v hvf hvh
  exact (Relation.ReflTransGen.single ⟨hk, hvk, hfk⟩).tail ⟨hh, hvh, hkh⟩

end Chains
