import Mathlib.Tactic
import RefineMesh.MarkClosure

/-!
# The marks of one tetrahedron

The marks of the six edges of a tetrahedron as the bits of a number below 64.
One visit promotes two marked edges of a face to three, face by face, and then
two marked edges of the tetrahedron to six.  There are only 64 patterns, so
what a visit does to each of them is computed; the sets of edges of the other
modules come in through `Shows`.
-/

namespace MarkClosure

/-- The edge between two corners. -/
def edgeBetween (i j : Nat) : Nat :=
  match min i j, max i j with
  | 0, 1 => 0
  | 0, 2 => 1
  | 0, 3 => 2
  | 1, 2 => 3
  | 1, 3 => 4
  | _, _ => 5

/-- How many of the edges are marked. -/
def marks (x : Nat) (edges : List Nat) : Nat := (edges.map fun i => (x.testBit i).toNat).sum

/-- The edges that are marked afterwards. -/
def withEdges (x : Nat) (edges : List Nat) : Nat := edges.foldl (fun x i => x ||| 2 ^ i) x

/-- Two marked edges bring the others. -/
def promote (edges : List Nat) (x : Nat × Bool) : Nat × Bool :=
  if marks x.1 edges = 2 then (withEdges x.1 edges, true) else x

/-- One visit: the four faces and then the whole. -/
def visits : List (List Nat) := [[3, 4, 5], [1, 2, 5], [0, 2, 4], [0, 1, 3], [0, 1, 2, 3, 4, 5]]

/-- The patterns after one visit, with a flag for a promotion. -/
def relax (x : Nat) : Nat × Bool := visits.foldl (fun x edges => promote edges x) (x, false)

/-- Whether the edge between two corners is marked. -/
def on (x i j : Nat) : Bool := x.testBit (edgeBetween i j)

/-- The corners of the faces, in all orders. -/
def corners3 : List (Nat × Nat × Nat) :=
  (List.range 4).flatMap fun i => (List.range 4).flatMap fun j => (List.range 4).filterMap fun k =>
    if i ≠ j ∧ i ≠ k ∧ j ≠ k then some (i, j, k) else none

/-- The corners, in all orders. -/
def corners4 : List (Nat × Nat × Nat × Nat) :=
  corners3.flatMap fun t => (List.range 4).filterMap fun l =>
    if t.1 ≠ l ∧ t.2.1 ≠ l ∧ t.2.2 ≠ l then some (t.1, t.2.1, t.2.2, l) else none

theorem mem_corners3 {i j k : Nat} :
    (i, j, k) ∈ corners3 ↔ (i < 4 ∧ j < 4 ∧ k < 4) ∧ i ≠ j ∧ i ≠ k ∧ j ≠ k := by
  simp only [corners3, List.mem_flatMap, List.mem_filterMap, List.mem_range]
  grind

theorem mem_corners4 {i j k l : Nat} :
    (i, j, k, l) ∈ corners4 ↔ (i < 4 ∧ j < 4 ∧ k < 4 ∧ l < 4) ∧ Distinct4 i j k l := by
  simp only [corners4, List.mem_flatMap, List.mem_filterMap, List.mem_range, Prod.exists,
    mem_corners3, Distinct4]
  grind

/-- A pattern to which the rules add nothing. -/
def ClosedBits (x : Nat) : Prop :=
  (∀ t ∈ corners3, on x t.1 t.2.1 = true → on x t.2.1 t.2.2 = true → on x t.1 t.2.2 = true) ∧
    ∀ t ∈ corners4, on x t.1 t.2.1 = true → on x t.2.2.1 t.2.2.2 = true → on x t.1 t.2.2.1 = true

instance (x : Nat) : Decidable (ClosedBits x) := inferInstanceAs (Decidable (_ ∧ _))

/-- The marked edges of one pattern are marked in the other. -/
def Below (x y : Nat) : Prop := ∀ i < 6, x.testBit i = true → y.testBit i = true

instance (x y : Nat) : Decidable (Below x y) := inferInstanceAs (Decidable (∀ i < 6, _))

theorem promotes_flag (l : List (List Nat)) : ∀ (x : Nat) (flag : Bool),
    l.foldl (fun x edges => promote edges x) (x, flag) =
      ((l.foldl (fun x edges => promote edges x) (x, false)).1,
        flag || (l.foldl (fun x edges => promote edges x) (x, false)).2) := by
  induction l with
  | nil =>
      intro x flag
      simp
  | cons edges l ih =>
      intro x flag
      rw [List.foldl_cons, List.foldl_cons]
      have hstep : ∀ flag, promote edges (x, flag) =
          if marks x edges = 2 then (withEdges x edges, true) else (x, flag) := fun _ => rfl
      rw [hstep flag, hstep false]
      split
      · rw [ih _ true]
        simp
      · exact ih x flag

/-- The flag of a visit is added to that of the visits before. -/
theorem relax_flag (x : Nat) (flag : Bool) :
    visits.foldl (fun x edges => promote edges x) (x, flag) = ((relax x).1, flag || (relax x).2) :=
  promotes_flag visits x flag

/-! ## The 64 patterns -/

/-- What one visit does to a pattern, and which patterns are closed. -/
@[mk_iff] structure Visited (x : Nat) : Prop where
  mono : Below x (relax x).1
  lt : (relax x).1 < 64
  face : ∀ t ∈ corners3, on x t.1 t.2.1 = true → on x t.2.1 t.2.2 = true →
    on (relax x).1 t.1 t.2.2 = true
  -- two opposite edges bring one of the other two at each corner
  opposite : ∀ t ∈ corners4, on x t.1 t.2.1 = true → on x t.2.2.1 t.2.2.2 = true →
    on (relax x).1 t.1 t.2.2.1 = true ∨ on (relax x).1 t.1 t.2.2.2 = true
  -- a closed pattern stays above
  sound : ClosedBits x → ∀ y < 64, Below y x → Below (relax y).1 x
  still : (relax x).2 = false → (relax x).1 = x ∧ ClosedBits x
  moved : (relax x).2 = true →
    (∃ t ∈ corners3, on x t.1 t.2.1 = true ∧ on x t.2.1 t.2.2 = true ∧ on x t.1 t.2.2 = false) ∨
    ∃ t ∈ corners4, on x t.1 t.2.1 = true ∧ on x t.2.2.1 t.2.2.2 = true ∧
      on x t.1 t.2.2.1 = false ∧ on x t.1 t.2.2.2 = false ∧ on x t.2.1 t.2.2.1 = false ∧
      on x t.2.1 t.2.2.2 = false
  closed_cases : ClosedBits x → x ∈ [0, 1, 2, 4, 8, 16, 32, 11, 56, 38, 21, 63]
  -- without two marked edges in a face and without two opposite edges only
  settled : (∀ edges ∈ [[3, 4, 5], [1, 2, 5], [0, 4, 2], [0, 1, 3]], marks x edges ≠ 2) →
    ¬ (marks x [0, 1, 2, 3, 4, 5] = 2 ∧
      ∃ t ∈ [(0, 5), (1, 4), (2, 3)], x.testBit t.1 = true ∧ x.testBit t.2 = true) → ClosedBits x

instance (x : Nat) : Decidable (Visited x) := decidable_of_iff _ (visited_iff x).symm

/-- **The 64 patterns**, one by one. -/
theorem visited : ∀ x < 64, Visited x := by
  decide +kernel

/-! ## Patterns of sets of edges -/

variable {V : Type*}

theorem edgeBetween_lt (i j : Nat) : edgeBetween i j < 6 := by
  unfold edgeBetween
  split <;> omega

theorem edgeBetween_of_sym2 {i j k l : Nat} (h : s(i, j) = s(k, l)) :
    edgeBetween i j = edgeBetween k l := by
  rcases Sym2.eq_iff.mp h with ⟨rfl, rfl⟩ | ⟨rfl, rfl⟩
  · rfl
  · unfold edgeBetween
    rw [Nat.min_comm, Nat.max_comm]

/-- The ends of the edges. -/
theorem exists_ends : ∀ e < 6, ∃ i < 4, ∃ j < 4, i ≠ j ∧ edgeBetween i j = e := by
  decide

/-- The corners are different. -/
def Corners (g : Nat → V) : Prop := ∀ i < 4, ∀ j < 4, g i = g j → i = j

theorem Corners.ne {g : Nat → V} (hg : Corners g) {i j : Nat} (hi : i < 4) (hj : j < 4)
    (hij : i ≠ j) : g i ≠ g j := fun e => hij (hg i hi j hj e)

theorem Corners.distinct4 {g : Nat → V} (hg : Corners g) {i j k l : Nat} (hi : i < 4) (hj : j < 4)
    (hk : k < 4) (hl : l < 4) (h : Distinct4 i j k l) : Distinct4 (g i) (g j) (g k) (g l) :=
  ⟨hg.ne hi hj h.1, hg.ne hi hk h.2.1, hg.ne hi hl h.2.2.1, hg.ne hj hk h.2.2.2.1,
    hg.ne hj hl h.2.2.2.2.1, hg.ne hk hl h.2.2.2.2.2⟩

theorem Distinct4.of_image {g : Nat → V} {i j k l : Nat}
    (h : Distinct4 (g i) (g j) (g k) (g l)) : Distinct4 i j k l := by
  obtain ⟨hij, hik, hil, hjk, hjl, hkl⟩ := h
  exact ⟨fun e => hij (e ▸ rfl), fun e => hik (e ▸ rfl), fun e => hil (e ▸ rfl),
    fun e => hjk (e ▸ rfl), fun e => hjl (e ▸ rfl), fun e => hkl (e ▸ rfl)⟩

/-- The tetrahedron with the corners. -/
def tetra [DecidableEq V] (g : Nat → V) : Finset V := (Finset.range 4).image g

/-- The pattern shows the marked edges between the corners. -/
def Shows (g : Nat → V) (x : Nat) (S : Set (Sym2 V)) : Prop :=
  ∀ i < 4, ∀ j < 4, i ≠ j → (on x i j = true ↔ s(g i, g j) ∈ S)

/-- Every set has a pattern. -/
theorem exists_shows (g : Nat → V) (S : Set (Sym2 V)) : ∃ x < 64, Shows g x S := by
  classical
  let ends : Fin 6 → Sym2 V := fun e =>
    s(g ([0, 0, 0, 1, 1, 2].getD e 0), g ([1, 2, 3, 2, 3, 3].getD e 0))
  refine ⟨Nat.ofBits fun e => decide (ends e ∈ S), Nat.ofBits_lt_two_pow _, ?_⟩
  intro i hi j hj hij
  rw [on, Nat.testBit_ofBits_lt _ _ (edgeBetween_lt i j), decide_eq_true_iff]
  have hends : ends ⟨edgeBetween i j, edgeBetween_lt i j⟩ = s(g i, g j) := by
    interval_cases i <;> interval_cases j <;> first
      | exact absurd rfl hij
      | rfl
      | exact Sym2.eq_swap
  rw [hends]

section Tetra

variable {g : Nat → V} {x : Nat} {S : Set (Sym2 V)}

theorem Shows.below {y : Nat} {S' : Set (Sym2 V)} (h : Shows g x S) (h' : Shows g y S')
    (hsub : S ⊆ S') : Below x y := by
  intro e he hx
  obtain ⟨i, hi, j, hj, hij, rfl⟩ := exists_ends e he
  exact (h' i hi j hj hij).mpr (hsub ((h i hi j hj hij).mp hx))

variable [DecidableEq V]

theorem mem_tetra {v : V} : v ∈ tetra g ↔ ∃ i < 4, g i = v := by
  simp [tetra]

theorem corner_mem (g : Nat → V) {i : Nat} (hi : i < 4) : g i ∈ tetra g := mem_tetra.mpr ⟨i, hi, rfl⟩

/-- Closed sets show closed patterns. -/
theorem Shows.closed_iff (h : Shows g x S) (hg : Corners g) :
    Closed (tetra g) S ↔ ClosedBits x := by
  rw [MarkClosure.closed_iff]
  constructor
  · intro hS
    constructor
    · rintro ⟨i, j, k⟩ ht h1 h2
      obtain ⟨⟨hi, hj, hk⟩, hij, hik, hjk⟩ := mem_corners3.mp ht
      exact (h i hi k hk hik).mpr (hS _ (.face (corner_mem g hi) (corner_mem g hj)
        (corner_mem g hk) (hg.ne hi hj hij) (hg.ne hi hk hik) (hg.ne hj hk hjk)
        ((h i hi j hj hij).mp h1) ((h j hj k hk hjk).mp h2)))
    · rintro ⟨i, j, k, l⟩ ht h1 h2
      obtain ⟨⟨hi, hj, hk, hl⟩, hne⟩ := mem_corners4.mp ht
      exact (h i hi k hk hne.2.1).mpr (hS _ (.opposite (corner_mem g hi) (corner_mem g hj)
        (corner_mem g hk) (corner_mem g hl) (hg.distinct4 hi hj hk hl hne)
        ((h i hi j hj hne.1).mp h1) ((h k hk l hl hne.2.2.2.2.2).mp h2)))
  · rintro ⟨hface, hopposite⟩ k hk
    cases hk with
    | face ha hb hc hab hac hbc h1 h2 =>
        obtain ⟨i, hi, rfl⟩ := mem_tetra.mp ha
        obtain ⟨j, hj, rfl⟩ := mem_tetra.mp hb
        obtain ⟨k, hk, rfl⟩ := mem_tetra.mp hc
        have hij : i ≠ j := fun e => hab (e ▸ rfl)
        have hik : i ≠ k := fun e => hac (e ▸ rfl)
        have hjk : j ≠ k := fun e => hbc (e ▸ rfl)
        exact (h i hi k hk hik).mp (hface (i, j, k)
          (mem_corners3.mpr ⟨⟨hi, hj, hk⟩, hij, hik, hjk⟩) ((h i hi j hj hij).mpr h1)
          ((h j hj k hk hjk).mpr h2))
    | opposite ha hb hc hd hne h1 h2 =>
        obtain ⟨i, hi, rfl⟩ := mem_tetra.mp ha
        obtain ⟨j, hj, rfl⟩ := mem_tetra.mp hb
        obtain ⟨k, hk, rfl⟩ := mem_tetra.mp hc
        obtain ⟨l, hl, rfl⟩ := mem_tetra.mp hd
        have hne' := hne.of_image
        exact (h i hi k hk hne'.2.1).mp (hopposite (i, j, k, l)
          (mem_corners4.mpr ⟨⟨hi, hj, hk, hl⟩, hne'⟩) ((h i hi j hj hne'.1).mpr h1)
          ((h k hk l hl hne'.2.2.2.2.2).mpr h2))

/-- A visit of one tetrahedron is a sweep over it. -/
theorem sweep_tetra (hg : Corners g) (hx : x < 64) (h : Shows g x S) {S' : Set (Sym2 V)}
    (hS' : ∀ k, k ∈ S' ↔ k ∈ S ∨
      ∃ i < 4, ∃ j < 4, i ≠ j ∧ on (relax x).1 i j = true ∧ s(g i, g j) = k) :
    Sweep {tetra g} S S' (relax x).2 := by
  have hshows : ∀ i < 4, ∀ j < 4, i ≠ j → on (relax x).1 i j = true → s(g i, g j) ∈ S' := by
    intro i hi j hj hij hon
    exact (hS' _).mpr (Or.inr ⟨i, hi, j, hj, hij, hon, rfl⟩)
  refine ⟨fun k hk => (hS' k).mpr (Or.inl hk), ?sound, ?face, ?opposite, ?still, ?moved⟩
  case sound =>
    intro S0 hclosed hsub k hk
    obtain ⟨y, hy, hshow⟩ := exists_shows g S0
    have hbits := (hshow.closed_iff hg).mp (hclosed _ rfl)
    have hbelow := (visited y hy).sound hbits x hx (h.below hshow hsub)
    rcases (hS' k).mp hk with hk | ⟨i, hi, j, hj, hij, hon, rfl⟩
    · exact hsub hk
    · exact (hshow i hi j hj hij).mp (hbelow _ (edgeBetween_lt i j) hon)
  case face =>
    rintro T rfl a ha b hb c hc hab hac hbc h1 h2
    obtain ⟨i, hi, rfl⟩ := mem_tetra.mp ha
    obtain ⟨j, hj, rfl⟩ := mem_tetra.mp hb
    obtain ⟨k, hk, rfl⟩ := mem_tetra.mp hc
    have hij : i ≠ j := fun e => hab (e ▸ rfl)
    have hik : i ≠ k := fun e => hac (e ▸ rfl)
    have hjk : j ≠ k := fun e => hbc (e ▸ rfl)
    exact hshows i hi k hk hik ((visited x hx).face (i, j, k)
      (mem_corners3.mpr ⟨⟨hi, hj, hk⟩, hij, hik, hjk⟩) ((h i hi j hj hij).mpr h1)
      ((h j hj k hk hjk).mpr h2))
  case opposite =>
    rintro T rfl a ha b hb c hc d hd hne h1 h2
    obtain ⟨i, hi, rfl⟩ := mem_tetra.mp ha
    obtain ⟨j, hj, rfl⟩ := mem_tetra.mp hb
    obtain ⟨k, hk, rfl⟩ := mem_tetra.mp hc
    obtain ⟨l, hl, rfl⟩ := mem_tetra.mp hd
    have hne' := hne.of_image
    exact ((visited x hx).opposite (i, j, k, l) (mem_corners4.mpr ⟨⟨hi, hj, hk, hl⟩, hne'⟩)
      ((h i hi j hj hne'.1).mpr h1) ((h k hk l hl hne'.2.2.2.2.2).mpr h2)).imp
      (hshows i hi k hk hne'.2.1) (hshows i hi l hl hne'.2.2.1)
  case still =>
    intro hagain
    obtain ⟨hsame, hbits⟩ := (visited x hx).still hagain
    constructor
    · ext k
      rw [hS', hsame]
      refine ⟨fun hk => ?_, Or.inl⟩
      rcases hk with hk | ⟨i, hi, j, hj, hij, hon, rfl⟩
      · exact hk
      · exact (h i hi j hj hij).mp hon
    · rintro T rfl
      exact (h.closed_iff hg).mpr hbits
  case moved =>
    intro hagain
    have hoff : ∀ i < 4, ∀ j < 4, i ≠ j → on x i j = false → s(g i, g j) ∉ S := by
      intro i hi j hj hij hoff hk
      rw [(h i hi j hj hij).mpr hk] at hoff
      cases hoff
    refine ⟨tetra g, rfl, ?_⟩
    rcases (visited x hx).moved hagain with ⟨⟨i, j, k⟩, ht, h1, h2, h3⟩ |
      ⟨⟨i, j, k, l⟩, ht, h1, h2, h3, h4, h5, h6⟩
    · obtain ⟨⟨hi, hj, hk⟩, hij, hik, hjk⟩ := mem_corners3.mp ht
      exact Or.inl ⟨g i, corner_mem g hi, g j, corner_mem g hj, g k, corner_mem g hk,
        ⟨hg.ne hi hj hij, hg.ne hi hk hik, hg.ne hj hk hjk⟩, (h i hi j hj hij).mp h1,
        (h j hj k hk hjk).mp h2, hoff i hi k hk hik h3⟩
    · obtain ⟨⟨hi, hj, hk, hl⟩, hne⟩ := mem_corners4.mp ht
      have hne' := hne
      obtain ⟨hij, hik, hil, hjk, hjl, hkl⟩ := hne'
      exact Or.inr ⟨g i, corner_mem g hi, g j, corner_mem g hj, g k, corner_mem g hk, g l,
        corner_mem g hl, hg.distinct4 hi hj hk hl hne, (h i hi j hj hij).mp h1,
        (h k hk l hl hkl).mp h2, hoff i hi k hk hik h3, hoff i hi l hl hil h4,
        hoff j hj k hk hjk h5, hoff j hj l hl hjl h6⟩

end Tetra

end MarkClosure
