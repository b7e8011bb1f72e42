import Mathlib.Tactic

/-!
# A layer of prisms on a mesh

A mesh is a collection of cells, each given by the cycles of its faces, and a
collection of boundary cycles.  It conforms when every face of a cell is shared
by two cells or is one boundary cycle, and every boundary cycle is such a face.

A layer is put on some triangles of the boundary: a prism on each, the triangle
on top in its place, and a quadrilateral on each side that belongs to one of the
triangles only.  The layer keeps the mesh conforming.
-/

namespace Layer

open scoped List

variable {V : Type*} [DecidableEq V]

/-! ## Meshes -/

/-- Cells by the cycles of their faces, and boundary cycles. -/
structure Mesh (V : Type*) where
  cells : Multiset (List (List V))
  boundary : Multiset (List V)

namespace Mesh

/-- The cells with a face on a set of nodes. -/
def cellsOn (m : Mesh V) (s : Finset V) : Nat :=
  m.cells.countP fun cell => ∃ f ∈ cell, f.toFinset = s

/-- The boundary cycles on a set of nodes. -/
def boundaryOn (m : Mesh V) (s : Finset V) : Nat := m.boundary.countP fun b => b.toFinset = s

/-- Every face of a cell is shared by two cells, or is one boundary cycle with
the cyclic order of the face; every boundary cycle is such a face. -/
structure Conforming (m : Mesh V) : Prop where
  paired : ∀ cell ∈ m.cells, ∀ f ∈ cell,
    m.cellsOn f.toFinset = 2 ∧ m.boundaryOn f.toFinset = 0 ∨
      m.cellsOn f.toFinset = 1 ∧ m.boundaryOn f.toFinset = 1
  turned : ∀ cell ∈ m.cells, ∀ f ∈ cell, ∀ b ∈ m.boundary, b.toFinset = f.toFinset → b ~r f
  covered : ∀ b ∈ m.boundary, ∃ cell ∈ m.cells, ∃ f ∈ cell, f.toFinset = b.toFinset

end Mesh

/-! ## Triangles and prisms -/

section Prism

/-- The cycle of a triangle. -/
def tri (t : V × V × V) : List V := [t.1, t.2.1, t.2.2]

/-- The sides of a triangle in its order. -/
def edges (t : V × V × V) : List (V × V) := [(t.1, t.2.1), (t.2.1, t.2.2), (t.2.2, t.1)]

/-- The triangle on top of the layer. -/
def top (up : V → V) (t : V × V × V) : List V := (tri t).map up

/-- The quadrilateral on a side of the layer. -/
def side (up : V → V) (e : V × V) : List V := [e.1, e.2, up e.2, up e.1]

/-- The faces of the prism on a triangle: three sides, the bottom and the top. -/
def prism (up : V → V) (t : V × V × V) : List (List V) :=
  [[t.1, up t.1, up t.2.2, t.2.2], [t.2.2, up t.2.2, up t.2.1, t.2.1],
    [t.1, t.2.1, up t.2.1, up t.1], [t.1, t.2.2, t.2.1], [up t.1, up t.2.1, up t.2.2]]

variable {up : V → V} {t : V × V × V} {e e' : V × V} {a b x : V}

omit [DecidableEq V] in
theorem edge_mem (h : e ∈ edges t) : e.1 ∈ tri t ∧ e.2 ∈ tri t := by
  simp only [edges, List.mem_cons, List.not_mem_nil, or_false] at h
  rcases h with rfl | rfl | rfl <;> simp [tri]

omit [DecidableEq V] in
theorem edge_ne (hnodup : (tri t).Nodup) (h : e ∈ edges t) : e.1 ≠ e.2 := by
  simp only [tri, List.nodup_cons, List.mem_cons, List.not_mem_nil, or_false, not_or] at hnodup
  simp only [edges, List.mem_cons, List.not_mem_nil, or_false] at h
  rcases h with rfl | rfl | rfl
  · exact hnodup.1.1
  · exact hnodup.2.1
  · exact Ne.symm hnodup.1.2

omit [DecidableEq V] in
/-- Two nodes of a triangle are the ends of a side. -/
theorem exists_edge (ha : a ∈ tri t) (hb : b ∈ tri t) (hne : a ≠ b) :
    ∃ e ∈ edges t, e = (a, b) ∨ e = (b, a) := by
  simp only [tri, List.mem_cons, List.not_mem_nil, or_false] at ha hb
  simp only [edges, List.mem_cons, List.not_mem_nil, or_false]
  rcases ha with rfl | rfl | rfl <;> rcases hb with rfl | rfl | rfl <;> simp_all

omit [DecidableEq V] in
/-- The ends of a side determine the side. -/
theorem edge_unique (hnodup : (tri t).Nodup) (he : e ∈ edges t) (he' : e' ∈ edges t)
    (hfirst : e.1 = e'.1 ∨ e.1 = e'.2) (hsecond : e.2 = e'.1 ∨ e.2 = e'.2) : e = e' := by
  simp only [tri, List.nodup_cons, List.mem_cons, List.not_mem_nil, or_false, not_or] at hnodup
  obtain ⟨⟨h01, h02⟩, h12, -⟩ := hnodup
  simp only [edges, List.mem_cons, List.not_mem_nil, or_false] at he he'
  rcases he with rfl | rfl | rfl <;> rcases he' with rfl | rfl | rfl <;>
    simp_all [Ne.symm h01, Ne.symm h02, Ne.symm h12]

/-- A face of a prism is its bottom, its top or on a side of the triangle. -/
theorem prism_cases {f : List V} (h : f ∈ prism up t) :
    f.toFinset = (tri t).toFinset ∨ f = top up t ∨ ∃ e ∈ edges t, side up e ~r f := by
  simp only [prism, List.mem_cons, List.not_mem_nil, or_false] at h
  rcases h with rfl | rfl | rfl | rfl | rfl
  · exact Or.inr (Or.inr ⟨(t.2.2, t.1), by simp [edges], 1, rfl⟩)
  · exact Or.inr (Or.inr ⟨(t.2.1, t.2.2), by simp [edges], 1, rfl⟩)
  · exact Or.inr (Or.inr ⟨(t.1, t.2.1), by simp [edges], 0, rfl⟩)
  · left
    ext x
    simp [tri]
    tauto
  · exact Or.inr (Or.inl rfl)

/-- The sets of nodes of the faces of a prism. -/
theorem exists_face_iff {s : Finset V} : (∃ f ∈ prism up t, f.toFinset = s) ↔
    (tri t).toFinset = s ∨ (top up t).toFinset = s ∨
      ∃ e ∈ edges t, (side up e).toFinset = s := by
  constructor
  · rintro ⟨f, hf, rfl⟩
    rcases prism_cases hf with h | rfl | ⟨e, he, hrot⟩
    · exact Or.inl h.symm
    · exact Or.inr (Or.inl rfl)
    · exact Or.inr (Or.inr ⟨e, he, List.toFinset_eq_of_perm _ _ hrot.perm⟩)
  · rintro (rfl | rfl | ⟨e, he, rfl⟩)
    · refine ⟨[t.1, t.2.2, t.2.1], by simp [prism], ?_⟩
      ext x
      simp [tri]
      tauto
    · exact ⟨top up t, by simp [prism, top, tri], rfl⟩
    · simp only [edges, List.mem_cons, List.not_mem_nil, or_false] at he
      rcases he with rfl | rfl | rfl
      · exact ⟨[t.1, t.2.1, up t.2.1, up t.1], by simp [prism], rfl⟩
      · refine ⟨[t.2.2, up t.2.2, up t.2.1, t.2.1], by simp [prism], ?_⟩
        ext x
        simp [side]
        tauto
      · refine ⟨[t.1, up t.1, up t.2.2, t.2.2], by simp [prism], ?_⟩
        ext x
        simp [side]
        tauto

end Prism

/-! ## Counting -/

section Lists

variable {α : Type*} {l l' : List α} {P : α → Prop} [DecidablePred P]

theorem countP_eq_length (hl : l.Nodup) (hl' : l'.Nodup) (h : ∀ x, x ∈ l ∧ P x ↔ x ∈ l') :
    l.countP P = l'.length := by
  rw [List.countP_eq_length_filter]
  refine ((List.perm_ext_iff_of_nodup (hl.filter _) hl').mpr fun x => ?_).length_eq
  rw [List.mem_filter, decide_eq_true_eq]
  exact h x

theorem eq_of_countP_le_one {a b : α} (h : l.countP P ≤ 1) (ha : a ∈ l) (hb : b ∈ l) (hPa : P a)
    (hPb : P b) : a = b := by
  have ha' : a ∈ l.filter P := List.mem_filter.mpr ⟨ha, by simpa using hPa⟩
  have hb' : b ∈ l.filter P := List.mem_filter.mpr ⟨hb, by simpa using hPb⟩
  rw [List.countP_eq_length_filter] at h
  generalize l.filter P = found at h ha' hb'
  match found, h with
  | [], _ => cases ha'
  | [x], _ => rw [List.mem_singleton.mp ha', List.mem_singleton.mp hb']

end Lists

/-! ## Putting the layer on -/

/-- The triangle has both ends of a side. -/
def OnEdge (t : V × V × V) (e : V × V) : Prop := e.1 ∈ tri t ∧ e.2 ∈ tri t

instance (t : V × V × V) (e : V × V) : Decidable (OnEdge t e) := inferInstanceAs (Decidable (_ ∧ _))

/-- No other triangle of the layer has both ends. -/
def Outer (T : List (V × V × V)) (t : V × V × V) (e : V × V) : Prop :=
  ∀ t' ∈ T, OnEdge t' e → t' = t

instance (T : List (V × V × V)) (t : V × V × V) (e : V × V) : Decidable (Outer T t e) :=
  inferInstanceAs (Decidable (∀ t' ∈ T, OnEdge t' e → t' = t))

/-- The sides of the layer. -/
def sides (T : List (V × V × V)) : List (V × V) :=
  T.flatMap fun t => (edges t).filter fun e => Outer T t e

/-- The mesh with the layer; `rest` is the boundary without the triangles. -/
def inflate (m : Mesh V) (rest : Multiset (List V)) (T : List (V × V × V)) (up : V → V) : Mesh V where
  cells := m.cells + (T.map (prism up) : List (List (List V)))
  boundary := rest + (T.map (top up) : List (List V)) + ((sides T).map (side up) : List (List V))

/-- A node of the triangles. -/
def Corner (T : List (V × V × V)) (v : V) : Prop := ∃ t ∈ T, v ∈ tri t

/-- A node on top of the layer. -/
def Lifted (T : List (V × V × V)) (up : V → V) (v : V) : Prop := ∃ w, Corner T w ∧ up w = v

/-- What the triangles and the new nodes have to satisfy. -/
structure Patch (m : Mesh V) (rest : Multiset (List V)) (T : List (V × V × V)) (up : V → V) :
    Prop where
  boundary : m.boundary = rest + (T.map tri : List (List V))
  nodup : ∀ t ∈ T, (tri t).Nodup
  fresh : ∀ v, Lifted T up v → ∀ cell ∈ m.cells, ∀ f ∈ cell, v ∉ f
  once : ∀ v w, Corner T v → Corner T w → up v = up w → v = w
  few : ∀ t ∈ T, ∀ e ∈ edges t, ∀ t1 ∈ T, ∀ t2 ∈ T, OnEdge t1 e → OnEdge t2 e →
    t1 ≠ t → t2 ≠ t → t1 = t2

section Counts

variable {m : Mesh V} {rest : Multiset (List V)} {T : List (V × V × V)} {up : V → V}

theorem cellsOn_inflate (s : Finset V) : (inflate m rest T up).cellsOn s =
    m.cellsOn s + T.countP fun t => (tri t).toFinset = s ∨ (top up t).toFinset = s ∨
      ∃ e ∈ edges t, (side up e).toFinset = s := by
  rw [Mesh.cellsOn, Mesh.cellsOn, inflate, Multiset.countP_add, Multiset.coe_countP,
    List.countP_map]
  congr 1
  apply List.countP_congr
  intro t _
  simp only [Function.comp_apply, decide_eq_true_eq]
  exact exists_face_iff

theorem boundaryOn_inflate (s : Finset V) : (inflate m rest T up).boundaryOn s =
    rest.countP (fun b => b.toFinset = s) + T.countP (fun t => (top up t).toFinset = s) +
      (sides T).countP fun e => (side up e).toFinset = s := by
  simp only [Mesh.boundaryOn, inflate, Multiset.countP_add, Multiset.coe_countP, List.countP_map]
  rfl

theorem Patch.boundaryOn (h : Patch m rest T up) (s : Finset V) : m.boundaryOn s =
    rest.countP (fun b => b.toFinset = s) + T.countP fun t => (tri t).toFinset = s := by
  rw [Mesh.boundaryOn, h.boundary, Multiset.countP_add, Multiset.coe_countP, List.countP_map]
  rfl

/-- The node has a triangle, so it is in a face. -/
theorem Patch.corner_old (h : Patch m rest T up) (hm : m.Conforming) {v : V} (hv : Corner T v) :
    ¬ Lifted T up v := by
  intro hlift
  obtain ⟨t, ht, hvt⟩ := hv
  have hb : tri t ∈ m.boundary := by
    rw [h.boundary, Multiset.mem_add]
    exact Or.inr (List.mem_map_of_mem ht)
  obtain ⟨cell, hcell, f, hf, hset⟩ := hm.covered _ hb
  refine h.fresh v hlift cell hcell f hf (List.mem_toFinset.mp ?_)
  rw [hset]
  exact List.mem_toFinset.mpr hvt

/-- The boundary has no node on top. -/
theorem Patch.rest_old (h : Patch m rest T up) (hm : m.Conforming) {b : List V} (hb : b ∈ rest)
    {v : V} (hv : v ∈ b) : ¬ Lifted T up v := by
  intro hlift
  have hb' : b ∈ m.boundary := by
    rw [h.boundary]
    exact Multiset.mem_add.mpr (Or.inl hb)
  obtain ⟨cell, hcell, f, hf, hset⟩ := hm.covered _ hb'
  refine h.fresh v hlift cell hcell f hf (List.mem_toFinset.mp ?_)
  rw [hset]
  exact List.mem_toFinset.mpr hv

/-- A triangle of the layer is alone on its nodes. -/
theorem Patch.boundaryOn_tri_le (h : Patch m rest T up) (hm : m.Conforming) {t : V × V × V}
    (ht : t ∈ T) : m.boundaryOn (tri t).toFinset ≤ 1 := by
  have hb : tri t ∈ m.boundary := by
    rw [h.boundary, Multiset.mem_add]
    exact Or.inr (List.mem_map_of_mem ht)
  obtain ⟨cell, hcell, f, hf, hset⟩ := hm.covered _ hb
  rw [← hset]
  rcases hm.paired cell hcell f hf with hpair | hpair <;> omega

theorem Patch.count_tri_le (h : Patch m rest T up) (hm : m.Conforming) {t : V × V × V}
    (ht : t ∈ T) : (T.countP fun t' => (tri t').toFinset = (tri t).toFinset) ≤ 1 := by
  have hle := h.boundaryOn_tri_le hm ht
  rw [h.boundaryOn] at hle
  omega

/-- **The triangles of the layer are told apart by their nodes.** -/
theorem Patch.tri_unique (h : Patch m rest T up) (hm : m.Conforming) {t t' : V × V × V}
    (ht : t ∈ T) (ht' : t' ∈ T) (heq : (tri t').toFinset = (tri t).toFinset) : t' = t :=
  eq_of_countP_le_one (h.count_tri_le hm ht) ht' ht heq rfl

theorem Patch.nodup_tris (h : Patch m rest T up) (hm : m.Conforming) : T.Nodup := by
  apply List.nodup_iff_count_le_one.mpr
  intro t
  by_cases ht : t ∈ T
  · refine le_trans (List.countP_mono_left fun t' _ heq => ?_) (h.count_tri_le hm ht)
    rw [eq_of_beq heq]
    simp
  · rw [List.count_eq_zero_of_not_mem ht]
    exact Nat.zero_le 1

omit [DecidableEq V] in
theorem lifted_of_mem_top {t : V × V × V} (ht : t ∈ T) {v : V} (hv : v ∈ top up t) :
    Lifted T up v := by
  obtain ⟨w, hw, rfl⟩ := List.mem_map.mp hv
  exact ⟨w, ⟨t, ht, hw⟩, rfl⟩

omit [DecidableEq V] in
theorem lifted_of_edge {t : V × V × V} (ht : t ∈ T) {e : V × V} (he : e ∈ edges t) :
    Lifted T up (up e.1) ∧ Lifted T up (up e.2) :=
  ⟨⟨e.1, ⟨t, ht, (edge_mem he).1⟩, rfl⟩, ⟨e.2, ⟨t, ht, (edge_mem he).2⟩, rfl⟩⟩

/-- The nodes of a side that are not on top are its ends. -/
theorem mem_side_iff {t : V × V × V} (ht : t ∈ T) {e : V × V} (he : e ∈ edges t) {v : V}
    (hv : ¬ Lifted T up v) : v ∈ (side up e).toFinset ↔ v = e.1 ∨ v = e.2 := by
  have hne1 : v ≠ up e.1 := fun heq => hv (heq ▸ (lifted_of_edge ht he).1)
  have hne2 : v ≠ up e.2 := fun heq => hv (heq ▸ (lifted_of_edge ht he).2)
  simp [side, hne1, hne2]

/-- A set of nodes with none on top is no set of the layer but that of a
triangle. -/
theorem counts_old (rest : Multiset (List V)) {s : Finset V} (hs : ∀ v ∈ s, ¬ Lifted T up v) :
    (inflate m rest T up).cellsOn s = m.cellsOn s + T.countP (fun t => (tri t).toFinset = s) ∧
      (inflate m rest T up).boundaryOn s = rest.countP fun b => b.toFinset = s := by
  have htop : ∀ t ∈ T, (top up t).toFinset ≠ s := by
    rintro t ht rfl
    refine hs (up t.1) ?_ ⟨t.1, ⟨t, ht, by simp [tri]⟩, rfl⟩
    simp [top, tri]
  have hside : ∀ t ∈ T, ∀ e ∈ edges t, (side up e).toFinset ≠ s := by
    rintro t ht e he rfl
    exact hs (up e.1) (by simp [side]) (lifted_of_edge ht he).1
  constructor
  · rw [cellsOn_inflate]
    congr 1
    refine List.countP_congr fun t ht => ?_
    simp only [decide_eq_true_eq]
    constructor
    · rintro (heq | heq | ⟨e, he, heq⟩)
      · exact heq
      · exact absurd heq (htop t ht)
      · exact absurd heq (hside t ht e he)
    · exact Or.inl
  · have hnotop : (T.countP fun t => (top up t).toFinset = s) = 0 :=
      List.countP_eq_zero.mpr fun t ht => by simpa using htop t ht
    have hnoside : ((sides T).countP fun e => (side up e).toFinset = s) = 0 := by
      refine List.countP_eq_zero.mpr fun e he => ?_
      obtain ⟨t, ht, he⟩ := List.mem_flatMap.mp he
      simpa using hside t ht e (List.mem_filter.mp he).1
    rw [boundaryOn_inflate, hnotop, hnoside, Nat.add_zero]

/-- A set with a node on top is no set of the mesh. -/
theorem Patch.counts_new (h : Patch m rest T up) (hm : m.Conforming) {s : Finset V} {v : V}
    (hv : v ∈ s) (hlift : Lifted T up v) :
    m.cellsOn s = 0 ∧ (rest.countP fun b => b.toFinset = s) = 0 ∧
      ∀ t ∈ T, (tri t).toFinset ≠ s := by
  refine ⟨?_, ?_, ?_⟩
  · refine Multiset.countP_eq_zero.mpr ?_
    rintro cell hcell ⟨f, hf, rfl⟩
    exact h.fresh v hlift cell hcell f hf (List.mem_toFinset.mp hv)
  · refine Multiset.countP_eq_zero.mpr ?_
    rintro b hb rfl
    exact h.rest_old hm hb (List.mem_toFinset.mp hv) hlift
  · rintro t ht rfl
    exact h.corner_old hm ⟨t, ht, List.mem_toFinset.mp hv⟩ hlift

/-- Triangles with the same top are the same. -/
theorem Patch.top_unique (h : Patch m rest T up) (hm : m.Conforming) {t t' : V × V × V}
    (ht : t ∈ T) (ht' : t' ∈ T) (heq : (top up t').toFinset = (top up t).toFinset) : t' = t := by
  have hsub : ∀ t1 ∈ T, ∀ t2 ∈ T, (top up t1).toFinset = (top up t2).toFinset →
      ∀ v ∈ tri t1, v ∈ tri t2 := by
    intro t1 ht1 t2 ht2 hset v hv
    have hin : up v ∈ (top up t2).toFinset := by
      rw [← hset, List.mem_toFinset]
      exact List.mem_map_of_mem hv
    obtain ⟨w, hw, hup⟩ := List.mem_map.mp (List.mem_toFinset.mp hin)
    rw [h.once v w ⟨t1, ht1, hv⟩ ⟨t2, ht2, hw⟩ hup.symm]
    exact hw
  refine h.tri_unique hm ht ht' (Finset.ext fun v => ?_)
  rw [List.mem_toFinset, List.mem_toFinset]
  exact ⟨hsub t' ht' t ht heq v, hsub t ht t' ht' heq.symm v⟩

/-- **The top of a triangle** is a face of its prism and the triangle there. -/
theorem Patch.counts_top (h : Patch m rest T up) (hm : m.Conforming) {t : V × V × V}
    (ht : t ∈ T) : (inflate m rest T up).cellsOn (top up t).toFinset = 1 ∧
      (inflate m rest T up).boundaryOn (top up t).toFinset = 1 := by
  have hv : up t.1 ∈ (top up t).toFinset := by simp [top, tri]
  obtain ⟨hcells, hrest, htri⟩ := h.counts_new hm hv ⟨t.1, ⟨t, ht, by simp [tri]⟩, rfl⟩
  have hside : ∀ t' ∈ T, ∀ e ∈ edges t', (side up e).toFinset ≠ (top up t).toFinset := by
    intro t' ht' e he heq
    have hin : e.1 ∈ (top up t).toFinset := by
      rw [← heq]
      simp [side]
    exact h.corner_old hm ⟨t', ht', (edge_mem he).1⟩ (lifted_of_mem_top ht (List.mem_toFinset.mp hin))
  have htop : ∀ t', t' ∈ T ∧ (top up t').toFinset = (top up t).toFinset ↔ t' ∈ [t] := by
    intro t'
    rw [List.mem_singleton]
    constructor
    · rintro ⟨ht', heq⟩
      exact h.top_unique hm ht ht' heq
    · rintro rfl
      exact ⟨ht, rfl⟩
  have hnodup := h.nodup_tris hm
  constructor
  · rw [cellsOn_inflate, hcells, Nat.zero_add]
    refine countP_eq_length hnodup (List.nodup_singleton t) fun t' => ?_
    rw [← htop t']
    refine and_congr_right fun ht' => ?_
    constructor
    · rintro (heq | heq | ⟨e, he, heq⟩)
      · exact absurd heq (htri t' ht')
      · exact heq
      · exact absurd heq (hside t' ht' e he)
    · exact fun heq => Or.inr (Or.inl heq)
  · have hnoside : ((sides T).countP fun e => (side up e).toFinset = (top up t).toFinset) = 0 := by
      refine List.countP_eq_zero.mpr fun e he => ?_
      obtain ⟨t', ht', he⟩ := List.mem_flatMap.mp he
      simpa using hside t' ht' e (List.mem_filter.mp he).1
    rw [boundaryOn_inflate, hrest, hnoside, countP_eq_length hnodup (List.nodup_singleton t) htop]
    rfl

/-- Two sides have the same nodes when they have the same ends. -/
theorem Patch.side_eq_iff (h : Patch m rest T up) (hm : m.Conforming) {t t' : V × V × V}
    {e e' : V × V} (ht : t ∈ T) (ht' : t' ∈ T) (he : e ∈ edges t) (he' : e' ∈ edges t') :
    (side up e').toFinset = (side up e).toFinset ↔ e' = e ∨ e' = (e.2, e.1) := by
  have hold : ∀ v, Corner T v → (v ∈ (side up e).toFinset ↔ v = e.1 ∨ v = e.2) ∧
      (v ∈ (side up e').toFinset ↔ v = e'.1 ∨ v = e'.2) := fun v hv =>
    ⟨mem_side_iff ht he (h.corner_old hm hv), mem_side_iff ht' he' (h.corner_old hm hv)⟩
  constructor
  · intro heq
    have hends : ∀ v, Corner T v → ((v = e'.1 ∨ v = e'.2) ↔ (v = e.1 ∨ v = e.2)) := by
      intro v hv
      rw [← (hold v hv).1, ← (hold v hv).2, heq]
    have hne := edge_ne (h.nodup t ht) he
    have h1 := (hends e'.1 ⟨t', ht', (edge_mem he').1⟩).mp (Or.inl rfl)
    have h2 := (hends e'.2 ⟨t', ht', (edge_mem he').2⟩).mp (Or.inr rfl)
    have h3 := (hends e.1 ⟨t, ht, (edge_mem he).1⟩).mpr (Or.inl rfl)
    have h4 := (hends e.2 ⟨t, ht, (edge_mem he).2⟩).mpr (Or.inr rfl)
    rw [Prod.ext_iff, Prod.ext_iff]
    grind
  · rintro (rfl | rfl)
    · rfl
    · ext v
      simp [side]
      tauto

/-- A triangle has a side with the same nodes when it has both ends. -/
theorem Patch.exists_side_iff (h : Patch m rest T up) (hm : m.Conforming) {t t' : V × V × V}
    {e : V × V} (ht : t ∈ T) (ht' : t' ∈ T) (he : e ∈ edges t) :
    (∃ e' ∈ edges t', (side up e').toFinset = (side up e).toFinset) ↔ OnEdge t' e := by
  constructor
  · rintro ⟨e', he', heq⟩
    rcases (h.side_eq_iff hm ht ht' he he').mp heq with rfl | rfl
    · exact edge_mem he'
    · exact (edge_mem he').symm
  · rintro ⟨h1, h2⟩
    obtain ⟨e', he', hcase⟩ := exists_edge h1 h2 (edge_ne (h.nodup t ht) he)
    exact ⟨e', he', (h.side_eq_iff hm ht ht' he he').mpr hcase⟩

/-- The triangles with both ends of a side. -/
theorem Patch.count_onEdge (h : Patch m rest T up) (hm : m.Conforming) {t : V × V × V}
    {e : V × V} (ht : t ∈ T) (he : e ∈ edges t) :
    (T.countP fun t' => OnEdge t' e) = if Outer T t e then 1 else 2 := by
  have hnodup := h.nodup_tris hm
  by_cases houter : Outer T t e
  · rw [if_pos houter]
    refine countP_eq_length hnodup (List.nodup_singleton t) fun t' => ?_
    rw [List.mem_singleton]
    constructor
    · rintro ⟨ht', hon⟩
      exact houter t' ht' hon
    · rintro rfl
      exact ⟨ht, edge_mem he⟩
  · rw [if_neg houter]
    have hother : ∃ t1 ∈ T, OnEdge t1 e ∧ t1 ≠ t := by
      by_contra hnone
      refine houter fun t' ht' hon => ?_
      by_contra hne
      exact hnone ⟨t', ht', hon, hne⟩
    obtain ⟨t1, ht1, hon1, hne1⟩ := hother
    have htwo : [t, t1].Nodup := by simp [Ne.symm hne1]
    refine countP_eq_length hnodup htwo fun t' => ?_
    rw [List.mem_cons, List.mem_singleton]
    constructor
    · rintro ⟨ht', hon⟩
      by_cases hne : t' = t
      · exact Or.inl hne
      · exact Or.inr (h.few t ht e he t' ht' t1 ht1 hon hon1 hne hne1)
    · rintro (rfl | rfl)
      · exact ⟨ht, edge_mem he⟩
      · exact ⟨ht1, hon1⟩

theorem mem_sides {e : V × V} : e ∈ sides T ↔ ∃ t ∈ T, e ∈ edges t ∧ Outer T t e := by
  simp [sides, List.mem_flatMap, List.mem_filter]

/-- **A side of the layer is there once.** -/
theorem Patch.nodup_sides (h : Patch m rest T up) (hm : m.Conforming) : (sides T).Nodup := by
  refine List.nodup_flatMap.mpr ⟨fun t ht => ?_, ?_⟩
  · have hnodup := h.nodup t ht
    refine List.Nodup.filter _ ?_
    obtain ⟨a, b, c⟩ := t
    simp only [tri, List.nodup_cons, List.mem_cons, List.not_mem_nil, or_false, not_or] at hnodup
    obtain ⟨⟨h01, h02⟩, h12, -⟩ := hnodup
    simp [edges, h01, h02, Ne.symm h01, Ne.symm h02]
  · refine (h.nodup_tris hm).imp_of_mem fun {t t'} ht ht' hne e he he' => hne ?_
    simp only [List.mem_filter, decide_eq_true_eq] at he he'
    exact he'.2 t ht (edge_mem he.1)

/-- A quadrilateral on the nodes of a side is that of the side itself. -/
theorem Patch.side_self (h : Patch m rest T up) (hm : m.Conforming) {t : V × V × V}
    {e e' : V × V} (ht : t ∈ T) (he : e ∈ edges t) (hin : e' ∈ sides T)
    (heq : (side up e').toFinset = (side up e).toFinset) : e' = e ∧ Outer T t e := by
  obtain ⟨t', ht', he', houter⟩ := Iff.mp mem_sides hin
  have hon : OnEdge t e' := (h.exists_side_iff hm ht' ht he').mp ⟨e, he, heq.symm⟩
  obtain rfl := houter t ht hon
  have hsame : e' = e := by
    rcases (h.side_eq_iff hm ht ht he he').mp heq with rfl | rfl
    · rfl
    · exact edge_unique (h.nodup t ht) he' he (Or.inr rfl) (Or.inl rfl)
  exact ⟨hsame, hsame ▸ houter⟩

/-- **A side of the prisms** is shared by two of them, or is in one of them and
is a quadrilateral. -/
theorem Patch.counts_side (h : Patch m rest T up) (hm : m.Conforming) {t : V × V × V}
    {e : V × V} (ht : t ∈ T) (he : e ∈ edges t) :
    (inflate m rest T up).cellsOn (side up e).toFinset = (if Outer T t e then 1 else 2) ∧
      (inflate m rest T up).boundaryOn (side up e).toFinset = if Outer T t e then 1 else 0 := by
  have hv : up e.1 ∈ (side up e).toFinset := by simp [side]
  obtain ⟨hcells, hrest, htri⟩ := h.counts_new hm hv (lifted_of_edge ht he).1
  have htop : ∀ t' ∈ T, (top up t').toFinset ≠ (side up e).toFinset := by
    intro t' ht' heq
    have hin : e.1 ∈ (top up t').toFinset := by
      rw [heq]
      simp [side]
    exact h.corner_old hm ⟨t, ht, (edge_mem he).1⟩ (lifted_of_mem_top ht' (List.mem_toFinset.mp hin))
  constructor
  · rw [cellsOn_inflate, hcells, Nat.zero_add, ← h.count_onEdge hm ht he]
    refine List.countP_congr fun t' ht' => ?_
    simp only [decide_eq_true_eq, htri t' ht', htop t' ht', false_or]
    exact h.exists_side_iff hm ht ht' he
  · have hnotop : (T.countP fun t' => (top up t').toFinset = (side up e).toFinset) = 0 :=
      List.countP_eq_zero.mpr fun t' ht' => by simpa using htop t' ht'
    rw [boundaryOn_inflate, hrest, hnotop]
    by_cases houter : Outer T t e
    · rw [if_pos houter, countP_eq_length (h.nodup_sides hm) (List.nodup_singleton e)]
      · rfl
      · intro e'
        rw [List.mem_singleton]
        constructor
        · exact fun hin => (h.side_self hm ht he hin.1 hin.2).1
        · rintro rfl
          exact ⟨Iff.mpr mem_sides ⟨t, ht, he, houter⟩, rfl⟩
    · rw [if_neg houter, List.countP_eq_zero.mpr fun e' he' => ?_]
      simpa using fun heq => houter (h.side_self hm ht he he' heq).2

/-- A face of the mesh before is paired after. -/
theorem Patch.paired_old (h : Patch m rest T up) (hm : m.Conforming) {cell : List (List V)}
    (hcell : cell ∈ m.cells) {f : List V} (hf : f ∈ cell) :
    (inflate m rest T up).cellsOn f.toFinset = 2 ∧ (inflate m rest T up).boundaryOn f.toFinset = 0 ∨
      (inflate m rest T up).cellsOn f.toFinset = 1 ∧
        (inflate m rest T up).boundaryOn f.toFinset = 1 := by
  have hold : ∀ v ∈ f.toFinset, ¬ Lifted T up v := fun v hv hlift =>
    h.fresh v hlift cell hcell f hf (List.mem_toFinset.mp hv)
  obtain ⟨hcells, hboundary⟩ := counts_old (m := m) rest hold
  have hbefore := h.boundaryOn f.toFinset
  rw [hcells, hboundary]
  rcases hm.paired cell hcell f hf with hpair | hpair <;> omega

/-- **The faces of the mesh with the layer are paired.** -/
theorem Patch.paired (h : Patch m rest T up) (hm : m.Conforming) {cell : List (List V)}
    (hcell : cell ∈ (inflate m rest T up).cells) {f : List V} (hf : f ∈ cell) :
    (inflate m rest T up).cellsOn f.toFinset = 2 ∧ (inflate m rest T up).boundaryOn f.toFinset = 0 ∨
      (inflate m rest T up).cellsOn f.toFinset = 1 ∧
        (inflate m rest T up).boundaryOn f.toFinset = 1 := by
  rcases Multiset.mem_add.mp hcell with hcell | hcell
  · exact h.paired_old hm hcell hf
  · obtain ⟨t, ht, rfl⟩ := List.mem_map.mp hcell
    rcases prism_cases hf with hset | rfl | ⟨e, he, hrot⟩
    · -- the bottom was a face of a cell of the mesh
      have hb : tri t ∈ m.boundary := by
        rw [h.boundary, Multiset.mem_add]
        exact Or.inr (List.mem_map_of_mem ht)
      obtain ⟨cell, hcell, f', hf', hset'⟩ := hm.covered _ hb
      rw [hset, ← hset']
      exact h.paired_old hm hcell hf'
    · exact Or.inr (h.counts_top hm ht)
    · obtain ⟨hcells, hboundary⟩ := h.counts_side hm ht he
      rw [← List.toFinset_eq_of_perm _ _ hrot.perm, hcells, hboundary]
      by_cases houter : Outer T t e
      · simp [houter]
      · simp [houter]

/-- **The boundary of the mesh with the layer has the order of the faces.** -/
theorem Patch.turned (h : Patch m rest T up) (hm : m.Conforming) {cell : List (List V)}
    (hcell : cell ∈ (inflate m rest T up).cells) {f : List V} (hf : f ∈ cell) {b : List V}
    (hb : b ∈ (inflate m rest T up).boundary) (heq : b.toFinset = f.toFinset) : b ~r f := by
  have hmem : ∀ v, v ∈ b ↔ v ∈ f := fun v => by
    rw [← List.mem_toFinset, heq, List.mem_toFinset]
  have hrest : ∀ v ∈ f, Lifted T up v → b ∉ rest := fun v hv hlift hb =>
    h.rest_old hm hb ((hmem v).mpr hv) hlift
  have hbottom : (∀ v ∈ f, ¬ Lifted T up v) → b ∈ rest := by
    intro hold
    rcases Multiset.mem_add.mp hb with hb | hb
    · rcases Multiset.mem_add.mp hb with hb | hb
      · exact hb
      · obtain ⟨t, ht, rfl⟩ := List.mem_map.mp hb
        have hin : up t.1 ∈ top up t := by simp [top, tri]
        exact absurd (lifted_of_mem_top ht hin) (hold _ ((hmem _).mp hin))
    · obtain ⟨e, he, rfl⟩ := List.mem_map.mp hb
      obtain ⟨t, ht, he, _⟩ := Iff.mp mem_sides he
      exact absurd (lifted_of_edge ht he).1 (hold _ ((hmem _).mp (by simp [side])))
  rcases Multiset.mem_add.mp hcell with hcell | hcell
  · refine hm.turned cell hcell f hf b ?_ heq
    rw [h.boundary]
    exact Multiset.mem_add.mpr (Or.inl (hbottom fun v hv hlift => h.fresh v hlift cell hcell f hf hv))
  · obtain ⟨t, ht, rfl⟩ := List.mem_map.mp hcell
    rcases prism_cases hf with hset | rfl | ⟨e, he, hrot⟩
    · -- the triangle itself is no longer there, and it was the only one
      have hin : b ∈ rest := hbottom fun v hv => by
        have hv' : v ∈ tri t := by
          rw [← List.mem_toFinset, ← hset, List.mem_toFinset]
          exact hv
        exact h.corner_old hm ⟨t, ht, hv'⟩
      have hle := h.boundaryOn_tri_le hm ht
      have hone : 0 < rest.countP fun b => b.toFinset = (tri t).toFinset :=
        Multiset.countP_pos.mpr ⟨b, hin, heq.trans hset⟩
      have htwo : 0 < T.countP fun t' => (tri t').toFinset = (tri t).toFinset :=
        List.countP_pos_iff.mpr ⟨t, ht, by simp⟩
      rw [h.boundaryOn] at hle
      omega
    · have hv : up t.1 ∈ top up t := by simp [top, tri]
      rcases Multiset.mem_add.mp hb with hb | hb
      · rcases Multiset.mem_add.mp hb with hb | hb
        · exact absurd hb (hrest _ hv (lifted_of_mem_top ht hv))
        · obtain ⟨t', ht', rfl⟩ := List.mem_map.mp hb
          rw [h.top_unique hm ht ht' heq]
      · obtain ⟨e, he, rfl⟩ := List.mem_map.mp hb
        obtain ⟨t', ht', he, _⟩ := Iff.mp mem_sides he
        have hin : e.1 ∈ top up t := (hmem _).mp (by simp [side])
        exact absurd (lifted_of_mem_top ht hin) (h.corner_old hm ⟨t', ht', (edge_mem he).1⟩)
    · have hside : ∀ v, v ∈ f ↔ v ∈ side up e := fun v => hrot.mem_iff.symm
      have hv : up e.1 ∈ f := (hside _).mpr (by simp [side])
      rcases Multiset.mem_add.mp hb with hb | hb
      · rcases Multiset.mem_add.mp hb with hb | hb
        · exact absurd hb (hrest _ hv (lifted_of_edge ht he).1)
        · obtain ⟨t', ht', rfl⟩ := List.mem_map.mp hb
          have hin : e.1 ∈ top up t' := (hmem _).mpr ((hside _).mpr (by simp [side]))
          exact absurd (lifted_of_mem_top ht' hin) (h.corner_old hm ⟨t, ht, (edge_mem he).1⟩)
      · obtain ⟨e', hin, rfl⟩ := List.mem_map.mp hb
        have hset : (side up e').toFinset = (side up e).toFinset :=
          heq.trans (List.toFinset_eq_of_perm _ _ hrot.perm).symm
        rw [(h.side_self hm ht he hin hset).1]
        exact hrot

/-- **A layer keeps a mesh conforming.** -/
theorem Patch.conforming (h : Patch m rest T up) (hm : m.Conforming) :
    (inflate m rest T up).Conforming := by
  refine ⟨fun cell hcell f hf => h.paired hm hcell hf,
    fun cell hcell f hf b hb heq => h.turned hm hcell hf hb heq, fun b hb => ?_⟩
  have hprism : ∀ t ∈ T, prism up t ∈ (inflate m rest T up).cells := fun t ht =>
    Multiset.mem_add.mpr (Or.inr (List.mem_map_of_mem ht))
  rcases Multiset.mem_add.mp hb with hb | hb
  · rcases Multiset.mem_add.mp hb with hb | hb
    · have hb' : b ∈ m.boundary := by
        rw [h.boundary]
        exact Multiset.mem_add.mpr (Or.inl hb)
      obtain ⟨cell, hcell, hface⟩ := hm.covered b hb'
      exact ⟨cell, Multiset.mem_add.mpr (Or.inl hcell), hface⟩
    · obtain ⟨t, ht, rfl⟩ := List.mem_map.mp hb
      exact ⟨_, hprism t ht, Iff.mpr exists_face_iff (Or.inr (Or.inl rfl))⟩
  · obtain ⟨e, he, rfl⟩ := List.mem_map.mp hb
    obtain ⟨t, ht, he, _⟩ := Iff.mp mem_sides he
    exact ⟨_, hprism t ht, Iff.mpr exists_face_iff (Or.inr (Or.inr ⟨e, he, rfl⟩))⟩

end Counts

end Layer
