import Mathlib.Tactic

/-!
# Cutting a mesh by a table

A mesh of simplices is cut edge by edge: on every edge that is cut there is one
new point, and a table says which of these points are the corners of the pieces
inside a simplex.  The pieces are glued along the facets: how many pieces have
all points of a facet is decided by how many simplices have that facet, whatever
the numbering of the simplices on its two sides.
-/

namespace CutTable

variable {ι V P : Type}

/-- A cell contributes to both sums alike. -/
theorem countP_flatMap_eq {α β : Type} {f : α → List β} {q : β → Bool} {r : α → Bool} {l : List α}
    (h : ∀ c ∈ l, (f c).countP q = if r c then 1 else 0) :
    (l.flatMap f).countP q = l.countP r := by
  induction l with
  | nil => rfl
  | cons c rest ih =>
      rw [List.flatMap_cons, List.countP_append, List.countP_cons,
        h c List.mem_cons_self, ih fun d hd => h d (List.mem_cons_of_mem c hd), add_comm]

/-- Simplices with numbered corners, the edges of a simplex as pairs of numbers,
the pieces of each simplex as lists of edges and the point on an edge. -/
structure Cutting (ι V P : Type) where
  size : Nat
  ends : List (Nat × Nat)
  corner : ι → Nat → V
  pieces : ι → List (List Nat)
  point : Sym2 V → P

namespace Cutting

variable (T : Cutting ι V P)

/-- The two numbers of an edge. -/
def endsAt (k : Nat) : Nat × Nat := T.ends.getD k (0, 0)

/-- The edge with number `k` of a simplex. -/
def edgeAt (c : ι) (k : Nat) : Sym2 V := s(T.corner c (T.endsAt k).1, T.corner c (T.endsAt k).2)

/-- The pieces of a simplex, point by point. -/
def points (c : ι) : List (List P) := (T.pieces c).map fun K => K.map fun k => T.point (T.edgeAt c k)

/-- The edges of a simplex. -/
def HasEdge (c : ι) (e : Sym2 V) : Prop := ∃ k, k < T.ends.length ∧ T.edgeAt c k = e

/-- A table for simplices with distinct corners: the edges are the pairs of
corners, each once; a piece has points on cut edges only and reaches every
corner; no two pieces of a simplex have the same points. -/
structure Fits (cut : Set (Sym2 V)) (cells : List ι) : Prop where
  corners : ∀ c ∈ cells, ∀ i j, i < T.size → j < T.size → T.corner c i = T.corner c j → i = j
  bound : ∀ k, k < T.ends.length → (T.endsAt k).1 < (T.endsAt k).2 ∧ (T.endsAt k).2 < T.size
  once : ∀ k l, k < T.ends.length → l < T.ends.length → T.endsAt k = T.endsAt l → k = l
  every : ∀ i j, i < j → j < T.size → ∃ k, k < T.ends.length ∧ T.endsAt k = (i, j)
  inside : ∀ c ∈ cells, ∀ K ∈ T.pieces c, ∀ k ∈ K, k < T.ends.length ∧ T.edgeAt c k ∈ cut
  spans : ∀ c ∈ cells, ∀ K ∈ T.pieces c, ∀ i, i < T.size →
    ∃ k ∈ K, i = (T.endsAt k).1 ∨ i = (T.endsAt k).2
  distinct : ∀ c ∈ cells, (T.pieces c).Pairwise fun K L => ¬ ∀ k, k ∈ K ↔ k ∈ L
  injective : Set.InjOn T.point cut

variable {T} {cut : Set (Sym2 V)} {cells : List ι}

/-- An edge has one number in a simplex. -/
theorem Fits.edgeAt_inj (h : T.Fits cut cells) {c : ι} (hc : c ∈ cells) {k l : Nat}
    (hk : k < T.ends.length) (hl : l < T.ends.length) (heq : T.edgeAt c k = T.edgeAt c l) :
    k = l := by
  obtain ⟨hklt, hkb⟩ := h.bound k hk
  obtain ⟨hllt, hlb⟩ := h.bound l hl
  apply h.once k l hk hl
  rcases Sym2.eq_iff.mp heq with ⟨h1, h2⟩ | ⟨h1, h2⟩
  · exact Prod.ext (h.corners c hc _ _ (by omega) (by omega) h1)
      (h.corners c hc _ _ hkb hlb h2)
  · have e1 := h.corners c hc _ _ (by omega) hlb h1
    have e2 := h.corners c hc _ _ hkb (by omega) h2
    omega

/-- Two corners are the ends of an edge. -/
theorem Fits.hasEdge_of_corners (h : T.Fits cut cells) {c : ι} {i j : Nat} (hi : i < T.size)
    (hj : j < T.size) (hne : i ≠ j) : T.HasEdge c s(T.corner c i, T.corner c j) := by
  rcases Nat.lt_or_gt_of_ne hne with hij | hij
  · obtain ⟨k, hk, hends⟩ := h.every i j hij hj
    exact ⟨k, hk, by rw [edgeAt, hends]⟩
  · obtain ⟨k, hk, hends⟩ := h.every j i hij hi
    exact ⟨k, hk, by rw [edgeAt, hends, Sym2.eq_swap]⟩

/-- The points of a piece determine its edges. -/
theorem Fits.mem_points_iff (h : T.Fits cut cells) {c : ι} (hc : c ∈ cells) {K : List Nat}
    (hK : K ∈ T.pieces c) {k : Nat} (hk : k < T.ends.length) (hcut : T.edgeAt c k ∈ cut) :
    T.point (T.edgeAt c k) ∈ (K.map fun l => T.point (T.edgeAt c l)) ↔ k ∈ K := by
  constructor
  · intro hin
    obtain ⟨l, hl, heq⟩ := List.mem_map.mp hin
    obtain ⟨hlb, hlcut⟩ := h.inside c hc K hK l hl
    have hedge := h.injective hlcut hcut heq
    rwa [h.edgeAt_inj hc hk hlb hedge.symm]
  · intro hin
    exact List.mem_map.mpr ⟨k, hin, rfl⟩

/-- A piece of a simplex has no point on an edge of another. -/
theorem Fits.hasEdge_of_mem (h : T.Fits cut cells) {c : ι} (hc : c ∈ cells) {q : List P}
    (hq : q ∈ T.points c) {e : Sym2 V} (he : e ∈ cut) (hin : T.point e ∈ q) : T.HasEdge c e := by
  obtain ⟨K, hK, rfl⟩ := List.mem_map.mp hq
  obtain ⟨k, hk, heq⟩ := List.mem_map.mp hin
  obtain ⟨hkb, hkcut⟩ := h.inside c hc K hK k hk
  exact ⟨k, hkb, h.injective hkcut he heq⟩

section Glue

variable [DecidableEq P]

/-- The pieces of a mesh that have the points on all edges of a list. -/
def having (T : Cutting ι V P) (cells : List ι) (side : List (Sym2 V)) : Nat :=
  (cells.flatMap T.points).countP fun q => ∀ e ∈ side, T.point e ∈ q

/-- **Gluing.**  When the table gives one piece to each simplex with the edges
of a side, the side has as many pieces as simplices. -/
theorem Fits.having_eq (h : T.Fits cut cells) {side : List (Sym2 V)}
    (hside : ∀ e ∈ side, e ∈ cut) (r : ι → Bool)
    (hr : ∀ c ∈ cells, r c = true ↔ ∀ e ∈ side, T.HasEdge c e)
    (hone : ∀ c ∈ cells, ∀ K : List Nat, (∀ k ∈ K, k < T.ends.length) →
      K.map (T.edgeAt c) = side → (T.pieces c).countP (fun L => ∀ k ∈ K, k ∈ L) = 1) :
    T.having cells side = cells.countP r := by
  apply countP_flatMap_eq
  intro c hc
  by_cases hrc : r c = true
  · rw [if_pos hrc]
    have hall := (hr c hc).mp hrc
    have hpick : ∃ K : List Nat, (∀ k ∈ K, k < T.ends.length) ∧ K.map (T.edgeAt c) = side := by
      clear hone hr hside
      induction side with
      | nil => exact ⟨[], by simp, rfl⟩
      | cons e rest ih =>
          obtain ⟨k, hk, hek⟩ := hall e List.mem_cons_self
          obtain ⟨K, hK, hmap⟩ := ih fun e' he' => hall e' (List.mem_cons_of_mem e he')
          refine ⟨k :: K, ?_, by rw [List.map_cons, hek, hmap]⟩
          intro l hl
          rcases List.mem_cons.mp hl with rfl | hl
          · exact hk
          · exact hK l hl
    obtain ⟨K, hK, hmap⟩ := hpick
    rw [← hone c hc K hK hmap, points, List.countP_map]
    apply List.countP_congr
    intro L hL
    simp only [Function.comp_apply, decide_eq_true_eq, ← hmap, List.forall_mem_map]
    constructor
    · intro hin k hk
      exact (h.mem_points_iff hc hL (hK k hk)
        (hside _ (hmap ▸ List.mem_map_of_mem hk))).mp (hin k hk)
    · intro hin k hk
      exact (h.mem_points_iff hc hL (hK k hk)
        (hside _ (hmap ▸ List.mem_map_of_mem hk))).mpr (hin k hk)
  · rw [if_neg hrc, List.countP_eq_zero]
    intro q hq hin
    apply hrc
    rw [hr c hc]
    intro e he
    exact h.hasEdge_of_mem hc hq (hside e he) (by simpa using of_decide_eq_true hin e he)

end Glue

/-- The points of a piece determine the corners of its simplex. -/
theorem Fits.corner_mem (h : T.Fits cut cells) {c c' : ι} (hc : c ∈ cells) (hc' : c' ∈ cells)
    {q q' : List P} (hq : q ∈ T.points c) (hq' : q' ∈ T.points c') (hsub : ∀ x, x ∈ q → x ∈ q')
    {i : Nat} (hi : i < T.size) : ∃ j, j < T.size ∧ T.corner c' j = T.corner c i := by
  obtain ⟨K, hK, rfl⟩ := List.mem_map.mp hq
  obtain ⟨k, hk, hend⟩ := h.spans c hc K hK i hi
  have hcut := (h.inside c hc K hK k hk).2
  obtain ⟨l, hl, heq⟩ := h.hasEdge_of_mem hc' hq' hcut
    (hsub _ (List.mem_map.mpr ⟨k, hk, rfl⟩))
  have hmem : T.corner c i ∈ T.edgeAt c' l := by
    rw [heq, edgeAt, Sym2.mem_iff]
    exact hend.imp (congrArg _) (congrArg _)
  obtain ⟨hlt, hb⟩ := h.bound l hl
  rcases Sym2.mem_iff.mp hmem with hv | hv
  · exact ⟨_, by omega, hv.symm⟩
  · exact ⟨_, hb, hv.symm⟩

/-- **No two pieces with the same points**, when no two simplices have the same
corners. -/
theorem Fits.nodup_points [DecidableEq P] (h : T.Fits cut cells)
    (hdiff : cells.Pairwise fun c c' => ¬ ∀ v, (∃ i, i < T.size ∧ T.corner c i = v) ↔
      ∃ i, i < T.size ∧ T.corner c' i = v) :
    ((cells.flatMap T.points).map List.toFinset).Nodup := by
  rw [List.map_flatMap, List.nodup_flatMap]
  constructor
  · intro c hc
    rw [points, List.map_map, List.Nodup, List.pairwise_map]
    refine (h.distinct c hc).imp_of_mem ?_
    intro K L hK hL hne heq
    apply hne
    intro k
    have hmem : ∀ x, x ∈ (K.map fun k => T.point (T.edgeAt c k)) ↔
        x ∈ (L.map fun k => T.point (T.edgeAt c k)) := by
      intro x
      have := Finset.ext_iff.mp heq x
      simpa using this
    constructor
    · intro hk
      obtain ⟨hkb, hkcut⟩ := h.inside c hc K hK k hk
      exact (h.mem_points_iff hc hL hkb hkcut).mp ((hmem _).mp (List.mem_map.mpr ⟨k, hk, rfl⟩))
    · intro hk
      obtain ⟨hkb, hkcut⟩ := h.inside c hc L hL k hk
      exact (h.mem_points_iff hc hK hkb hkcut).mp ((hmem _).mpr (List.mem_map.mpr ⟨k, hk, rfl⟩))
  · refine hdiff.imp_of_mem ?_
    intro c c' hc hc' hne F hF hF'
    obtain ⟨q, hq, rfl⟩ := List.mem_map.mp hF
    obtain ⟨q', hq', heq⟩ := List.mem_map.mp hF'
    have hmem : ∀ x, x ∈ q ↔ x ∈ q' := by
      intro x
      have := Finset.ext_iff.mp heq x
      simpa using this.symm
    apply hne
    intro v
    constructor
    · intro hv
      obtain ⟨i, hi, rfl⟩ := hv
      exact h.corner_mem hc hc' hq hq' (fun x => (hmem x).mp) hi
    · intro hv
      obtain ⟨i, hi, rfl⟩ := hv
      exact h.corner_mem hc' hc hq' hq (fun x => (hmem x).mpr) hi

end Cutting

end CutTable
