import Mathlib.Tactic
import RefineMesh.Chains

/-!
# Collapses

Moving one vertex onto another flattens the simplices that have both.  A flat
simplex is zero as a chain, so the triangles stay the boundary whatever the
mesh looks like; that no directed edge is doubled needs the link condition.
-/

namespace Chains

variable {V : Type*} [DecidableEq V]

/-- A degenerate triangle is zero. -/
theorem orient_of_not_nodup {f : Tri V} (hf : ¬ f.corners.Nodup) : orient f = 0 := by
  obtain ⟨a, b, c⟩ := f
  have hsame : a = b ∨ a = c ∨ b = c := by
    by_contra hne
    apply hf
    simp only [not_or] at hne
    simp [Tri.corners, hne]
  rcases hsame with rfl | rfl | rfl <;>
    simp only [orient] <;> abel

/-- A degenerate tetrahedron has no boundary. -/
theorem chain_faces_of_not_nodup {t : Tet V} (ht : ¬ t.corners.Nodup) : chain (faces t) = 0 := by
  obtain ⟨a, b, c, d⟩ := t
  have hsame : a = b ∨ a = c ∨ a = d ∨ b = c ∨ b = d ∨ c = d := by
    by_contra hne
    apply ht
    simp only [not_or] at hne
    simp [Tet.corners, hne]
  rcases hsame with rfl | rfl | rfl | rfl | rfl | rfl <;>
    simp only [chain_faces, orient] <;> abel

theorem not_nodup_map_move {u v : V} {l : List V} (huv : u ≠ v) (hu : u ∈ l) (hv : v ∈ l) :
    ¬ (l.map (move v u)).Nodup := by
  intro hnodup
  apply huv
  apply List.inj_on_of_nodup_map hnodup hu hv
  simp [move]

/-- What a collapse leaves of a collection, as one pass over it. -/
theorem map_filter_not_eq_bind {α β : Type*} (m : Multiset α) (P : α → Prop) [DecidablePred P]
    (k : α → β) :
    (m.filter fun x => ¬ P x).map k = m.bind fun x => if P x then 0 else {k x} := by
  induction m using Multiset.induction_on with
  | empty => rfl
  | cons x m ih =>
      rw [Multiset.cons_bind, ← ih, Multiset.filter_cons, Multiset.map_add]
      by_cases hx : P x
      · rw [if_neg (not_not.mpr hx), if_pos hx, Multiset.map_zero]
      · rw [if_pos hx, if_neg hx, Multiset.map_singleton]

/-- **A collapse** of the edge from `u` to `v`, with `v` moved to `u`, keeps the
triangles the boundary. -/
theorem boundary_collapsed {T : Multiset (Tet V)} {F : Multiset (Tri V)}
    (h : boundary T = chain F) {u v : V} (huv : u ≠ v) :
    boundary ((T.filter fun t => ¬ (u ∈ t.corners ∧ v ∈ t.corners)).map (Tet.move v u)) =
      chain ((F.filter fun f => ¬ (u ∈ f.corners ∧ v ∈ f.corners)).map (Tri.move v u)) := by
  rw [map_filter_not_eq_bind, map_filter_not_eq_bind]
  apply boundary_replaced (alternating_move v u) h
  · intro t _
    have hfaces : ((faces t).map fun f => orient (f.move v u)).sum =
        chain (faces (t.move v u)) := rfl
    rw [hfaces]
    split
    · rename_i hboth
      have hflat : ¬ (t.move v u).corners.Nodup := not_nodup_map_move huv hboth.1 hboth.2
      rw [chain_faces_of_not_nodup hflat, boundary_zero]
    · exact boundary_singleton _
  · intro f _
    split
    · rename_i hboth
      have hflat : ¬ (f.move v u).corners.Nodup := not_nodup_map_move huv hboth.1 hboth.2
      rw [orient_of_not_nodup hflat, chain_zero]
    · exact chain_singleton _

/-- Every directed edge is used at most once. -/
def DirectedOnce (F : Multiset (Tri V)) : Prop := ∀ x y, (F.bind sides).count (x, y) ≤ 1

theorem directedOnce_iff {F : Multiset (Tri V)} : DirectedOnce F ↔ (F.bind sides).Nodup := by
  rw [Multiset.nodup_iff_count_le_one, Prod.forall]
  rfl

instance (F : Multiset (Tri V)) : Decidable (DirectedOnce F) :=
  decidable_of_iff' _ directedOnce_iff

section Link

variable {F : Multiset (Tri V)} {u v : V}

theorem move_of_notMem {f : Tri V} (hv : v ∉ f.corners) : f.move v u = f := by
  obtain ⟨a, b, c⟩ := f
  simp only [Tri.corners, List.mem_cons, List.not_mem_nil, or_false, not_or] at hv
  simp [Tri.move, Chains.move, Ne.symm hv.1, Ne.symm hv.2.1, Ne.symm hv.2.2]

/-- The directed sides of a triangle after one corner has moved. -/
theorem count_sides_move {f : Tri V} (hf : f.corners.Nodup)
    (hboth : ¬ (u ∈ f.corners ∧ v ∈ f.corners)) (x y : V) :
    (sides (f.move v u)).count (x, y) ≤
      if x = u then (sides f).count (u, y) + (sides f).count (v, y)
      else if y = u then (sides f).count (x, u) + (sides f).count (x, v)
      else (sides f).count (x, y) := by
  by_cases hv : v ∈ f.corners
  · have hu : u ∉ f.corners := fun hu => hboth ⟨hu, hv⟩
    obtain ⟨a, b, c⟩ := f
    simp only [Tri.corners, List.nodup_cons, List.mem_cons, List.not_mem_nil, or_false, not_or,
      List.nodup_nil, not_false_iff, and_true] at hf hv hu
    simp only [sides, Tri.move, Chains.move, Multiset.insert_eq_cons, Multiset.count_cons,
      Multiset.count_singleton, Prod.mk.injEq]
    rcases hv with rfl | rfl | rfl <;> grind
  · rw [move_of_notMem hv]
    split_ifs with hx hy
    · subst hx
      exact Nat.le_add_right _ _
    · subst hy
      exact Nat.le_add_right _ _
    · exact le_refl _

theorem count_bind_sides_move (hF : ∀ f ∈ F, f.corners.Nodup)
    (hboth : ∀ f ∈ F, ¬ (u ∈ f.corners ∧ v ∈ f.corners)) (x y : V) :
    ((F.map (Tri.move v u)).bind sides).count (x, y) ≤
      if x = u then (F.bind sides).count (u, y) + (F.bind sides).count (v, y)
      else if y = u then (F.bind sides).count (x, u) + (F.bind sides).count (x, v)
      else (F.bind sides).count (x, y) := by
  induction F using Multiset.induction_on with
  | empty => simp
  | cons f F ih =>
      have hrest := ih (fun g hg => hF g (Multiset.mem_cons_of_mem hg))
        fun g hg => hboth g (Multiset.mem_cons_of_mem hg)
      have hhead := count_sides_move (hF f (Multiset.mem_cons_self f F))
        (hboth f (Multiset.mem_cons_self f F)) x y
      simp only [Multiset.map_cons, Multiset.cons_bind, Multiset.count_add]
      split_ifs at hrest hhead ⊢ <;> omega

omit [DecidableEq V] in
theorem corners_of_mem_sides {f : Tri V} {x y : V} (h : (x, y) ∈ sides f) :
    x ∈ f.corners ∧ y ∈ f.corners := by
  obtain ⟨a, b, c⟩ := f
  simp only [sides, Multiset.insert_eq_cons, Multiset.mem_cons, Multiset.mem_singleton,
    Prod.mk.injEq] at h
  simp only [Tri.corners, List.mem_cons, List.not_mem_nil, or_false]
  grind

omit [DecidableEq V] in
/-- A triangle on three vertices arrives at each of them from one of the
others, and leaves it for one. -/
theorem side_of_corners {f : Tri V} {y : V} (huv : u ≠ v) (hyu : y ≠ u) (hyv : y ≠ v)
    (hu : u ∈ f.corners) (hv : v ∈ f.corners) (hy : y ∈ f.corners) :
    ((u, y) ∈ sides f ∨ (v, y) ∈ sides f) ∧ ((y, u) ∈ sides f ∨ (y, v) ∈ sides f) := by
  obtain ⟨a, b, c⟩ := f
  simp only [Tri.corners, List.mem_cons, List.not_mem_nil, or_false] at hu hv hy
  simp only [sides, Multiset.insert_eq_cons, Multiset.mem_cons, Multiset.mem_singleton,
    Prod.mk.injEq]
  grind

/-- **The link condition.**  When every common neighbour of `u` and `v` is on a
triangle with both, moving `v` to `u` doubles no directed edge. -/
theorem DirectedOnce.collapsed (honce : DirectedOnce F) (hF : ∀ f ∈ F, f.corners.Nodup)
    (huv : u ≠ v)
    (hlink : ∀ y, y ≠ u → y ≠ v → (∃ f ∈ F, u ∈ f.corners ∧ y ∈ f.corners) →
      (∃ f ∈ F, v ∈ f.corners ∧ y ∈ f.corners) →
      ∃ f ∈ F, u ∈ f.corners ∧ v ∈ f.corners ∧ y ∈ f.corners) :
    DirectedOnce ((F.filter fun f => ¬ (u ∈ f.corners ∧ v ∈ f.corners)).map (Tri.move v u)) := by
  intro x y
  set A := F.filter fun f => ¬ (u ∈ f.corners ∧ v ∈ f.corners) with hA
  have hmem : ∀ f ∈ A, f ∈ F ∧ ¬ (u ∈ f.corners ∧ v ∈ f.corners) := fun f hf =>
    Multiset.mem_filter.mp hf
  -- a side of a triangle that stays and of one that goes is counted twice
  have htwice : ∀ e, e ∈ A.bind sides →
      (∃ f ∈ F, (u ∈ f.corners ∧ v ∈ f.corners) ∧ e ∈ sides f) → 2 ≤ (F.bind sides).count e := by
    intro e hstays hgoes
    obtain ⟨f, hf, hfboth, hef⟩ := hgoes
    have hsplit : F.filter (fun f => u ∈ f.corners ∧ v ∈ f.corners) + A = F :=
      Multiset.filter_add_not _ F
    have h1 : 0 < (A.bind sides).count e := Multiset.count_pos.mpr hstays
    have h2 : 0 < ((F.filter fun f => u ∈ f.corners ∧ v ∈ f.corners).bind sides).count e :=
      Multiset.count_pos.mpr (Multiset.mem_bind.mpr ⟨f, Multiset.mem_filter.mpr ⟨hf, hfboth⟩, hef⟩)
    rw [← hsplit, Multiset.add_bind, Multiset.count_add]
    omega
  have hle : ∀ e, (A.bind sides).count e ≤ (F.bind sides).count e := by
    intro e
    have hsplit : F.filter (fun f => u ∈ f.corners ∧ v ∈ f.corners) + A = F :=
      Multiset.filter_add_not _ F
    conv_rhs => rw [← hsplit, Multiset.add_bind, Multiset.count_add]
    omega
  have hcount := count_bind_sides_move (F := A) (fun f hf => hF f (hmem f hf).1)
    (fun f hf => (hmem f hf).2) x y
  split_ifs at hcount with hx hy
  · have h1 := hle (u, y)
    have h2 := hle (v, y)
    have h3 := honce u y
    have h4 := honce v y
    by_contra hmore
    have hpos1 : (u, y) ∈ A.bind sides := Multiset.count_pos.mp (by omega)
    have hpos2 : (v, y) ∈ A.bind sides := Multiset.count_pos.mp (by omega)
    obtain ⟨f1, hf1, hs1⟩ := Multiset.mem_bind.mp hpos1
    obtain ⟨f2, hf2, hs2⟩ := Multiset.mem_bind.mp hpos2
    obtain ⟨hc1, hc1'⟩ := corners_of_mem_sides hs1
    obtain ⟨hc2, hc2'⟩ := corners_of_mem_sides hs2
    have hyu : y ≠ u := fun e => (hmem f2 hf2).2 ⟨e ▸ hc2', hc2⟩
    have hyv : y ≠ v := fun e => (hmem f1 hf1).2 ⟨hc1, e ▸ hc1'⟩
    obtain ⟨f, hf, hfu, hfv, hfy⟩ := hlink y hyu hyv ⟨f1, (hmem f1 hf1).1, hc1, hc1'⟩
      ⟨f2, (hmem f2 hf2).1, hc2, hc2'⟩
    rcases (side_of_corners huv hyu hyv hfu hfv hfy).1 with hs | hs
    · have := htwice (u, y) hpos1 ⟨f, hf, ⟨hfu, hfv⟩, hs⟩
      omega
    · have := htwice (v, y) hpos2 ⟨f, hf, ⟨hfu, hfv⟩, hs⟩
      omega
  · have h1 := hle (x, u)
    have h2 := hle (x, v)
    have h3 := honce x u
    have h4 := honce x v
    by_contra hmore
    have hpos1 : (x, u) ∈ A.bind sides := Multiset.count_pos.mp (by omega)
    have hpos2 : (x, v) ∈ A.bind sides := Multiset.count_pos.mp (by omega)
    obtain ⟨f1, hf1, hs1⟩ := Multiset.mem_bind.mp hpos1
    obtain ⟨f2, hf2, hs2⟩ := Multiset.mem_bind.mp hpos2
    obtain ⟨hc1', hc1⟩ := corners_of_mem_sides hs1
    obtain ⟨hc2', hc2⟩ := corners_of_mem_sides hs2
    have hxu : x ≠ u := fun e => (hmem f2 hf2).2 ⟨e ▸ hc2', hc2⟩
    have hxv : x ≠ v := fun e => (hmem f1 hf1).2 ⟨hc1, e ▸ hc1'⟩
    obtain ⟨f, hf, hfu, hfv, hfx⟩ := hlink x hxu hxv ⟨f1, (hmem f1 hf1).1, hc1, hc1'⟩
      ⟨f2, (hmem f2 hf2).1, hc2, hc2'⟩
    rcases (side_of_corners huv hxu hxv hfu hfv hfx).2 with hs | hs
    · have := htwice (x, u) hpos1 ⟨f, hf, ⟨hfu, hfv⟩, hs⟩
      omega
    · have := htwice (x, v) hpos2 ⟨f, hf, ⟨hfu, hfv⟩, hs⟩
      omega
  · exact le_trans hcount (le_trans (hle (x, y)) (honce x y))

end Link
end Chains
