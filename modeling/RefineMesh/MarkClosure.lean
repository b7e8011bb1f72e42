import Mathlib.Tactic

/-!
# Closed sets of edges

A set of edges is closed on a tetrahedron when two edges of a triangle bring
the third and two opposite edges alone bring all six.  Over a closed set of
triangles, two opposite edges with a third one bring all six anyway, so the
second rule can be read for any two opposite edges.  Read so, both rules are
monotone and there is a least closed set.
-/

namespace MarkClosure

variable {V : Type*}

/-- The four corners are distinct. -/
def Distinct4 (a b c d : V) : Prop := a ≠ b ∧ a ≠ c ∧ a ≠ d ∧ b ≠ c ∧ b ≠ d ∧ c ≠ d

/-- A set of edges that is closed on a tetrahedron. -/
structure Closed (T : Finset V) (S : Set (Sym2 V)) : Prop where
  face : ∀ a ∈ T, ∀ b ∈ T, ∀ c ∈ T, a ≠ b → a ≠ c → b ≠ c →
    s(a, b) ∈ S → s(b, c) ∈ S → s(a, c) ∈ S
  opposite : ∀ a ∈ T, ∀ b ∈ T, ∀ c ∈ T, ∀ d ∈ T, Distinct4 a b c d →
    s(a, b) ∈ S → s(c, d) ∈ S → s(a, c) ∉ S → s(a, d) ∉ S → s(b, c) ∉ S → s(b, d) ∉ S →
    s(a, c) ∈ S ∧ s(a, d) ∈ S ∧ s(b, c) ∈ S ∧ s(b, d) ∈ S

/-- An edge that the rules bring. -/
inductive Forced (T : Finset V) (S : Set (Sym2 V)) : Sym2 V → Prop
  | face {a b c : V} : a ∈ T → b ∈ T → c ∈ T → a ≠ b → a ≠ c → b ≠ c →
      s(a, b) ∈ S → s(b, c) ∈ S → Forced T S s(a, c)
  | opposite {a b c d : V} : a ∈ T → b ∈ T → c ∈ T → d ∈ T → Distinct4 a b c d →
      s(a, b) ∈ S → s(c, d) ∈ S → Forced T S s(a, c)

theorem Forced.mono {T : Finset V} {S S' : Set (Sym2 V)} (h : S ⊆ S') {k : Sym2 V}
    (hk : Forced T S k) : Forced T S' k := by
  cases hk with
  | face ha hb hc hab hac hbc h1 h2 => exact .face ha hb hc hab hac hbc (h h1) (h h2)
  | opposite ha hb hc hd hne h1 h2 => exact .opposite ha hb hc hd hne (h h1) (h h2)

/-- Closed sets are those to which the rules add nothing. -/
theorem closed_iff {T : Finset V} {S : Set (Sym2 V)} :
    Closed T S ↔ ∀ k, Forced T S k → k ∈ S := by
  constructor
  · intro h k hk
    cases hk with
    | face ha hb hc hab hac hbc h1 h2 => exact h.face _ ha _ hb _ hc hab hac hbc h1 h2
    | @opposite a b c d ha hb hc hd hne h1 h2 =>
        obtain ⟨hab, hac, had, hbc, hbd, hcd⟩ := hne
        have sym : ∀ x y : V, s(x, y) = s(y, x) := fun x y => Sym2.eq_swap
        -- a third edge brings the wanted one through a face
        by_contra hnot
        have hnad : s(a, d) ∉ S := by
          intro had'
          exact hnot (h.face a ha d hd c hc had hac hcd.symm had' (sym c d ▸ h2))
        have hnbc : s(b, c) ∉ S := by
          intro hbc'
          exact hnot (h.face a ha b hb c hc hab hac hbc h1 hbc')
        have hnbd : s(b, d) ∉ S := by
          intro hbd'
          exact hnad (h.face a ha b hb d hd hab had hbd h1 hbd')
        exact hnot (h.opposite a ha b hb c hc d hd ⟨hab, hac, had, hbc, hbd, hcd⟩ h1 h2 hnot hnad
          hnbc hnbd).1
  · intro h
    constructor
    · intro a ha b hb c hc hab hac hbc h1 h2
      exact h _ (.face ha hb hc hab hac hbc h1 h2)
    · intro a ha b hb c hc d hd hne h1 h2 hac _ _ _
      exact absurd (h _ (.opposite ha hb hc hd hne h1 h2)) hac

/-! ## Sweeps -/

/-- Some edge is missing: the third of a face, or those between two opposite
edges. -/
def Unclosed (T : Finset V) (S : Set (Sym2 V)) : Prop :=
  (∃ a ∈ T, ∃ b ∈ T, ∃ c ∈ T, (a ≠ b ∧ a ≠ c ∧ b ≠ c) ∧ s(a, b) ∈ S ∧ s(b, c) ∈ S ∧
    s(a, c) ∉ S) ∨
  ∃ a ∈ T, ∃ b ∈ T, ∃ c ∈ T, ∃ d ∈ T, Distinct4 a b c d ∧ s(a, b) ∈ S ∧ s(c, d) ∈ S ∧
    s(a, c) ∉ S ∧ s(a, d) ∉ S ∧ s(b, c) ∉ S ∧ s(b, d) ∉ S

/-- What a sweep over some tetrahedra does to the marked edges.  Two opposite
edges bring only one more edge for sure at each corner. -/
structure Sweep (cells : Set (Finset V)) (M M' : Set (Sym2 V)) (again : Bool) : Prop where
  mono : M ⊆ M'
  sound : ∀ S, (∀ T ∈ cells, Closed T S) → M ⊆ S → M' ⊆ S
  face : ∀ T ∈ cells, ∀ a ∈ T, ∀ b ∈ T, ∀ c ∈ T, a ≠ b → a ≠ c → b ≠ c → s(a, b) ∈ M →
    s(b, c) ∈ M → s(a, c) ∈ M'
  opposite : ∀ T ∈ cells, ∀ a ∈ T, ∀ b ∈ T, ∀ c ∈ T, ∀ d ∈ T, Distinct4 a b c d →
    s(a, b) ∈ M → s(c, d) ∈ M → s(a, c) ∈ M' ∨ s(a, d) ∈ M'
  still : again = false → M' = M ∧ ∀ T ∈ cells, Closed T M
  moved : again = true → ∃ T ∈ cells, Unclosed T M

theorem Sweep.nil (M : Set (Sym2 V)) : Sweep ∅ M M false where
  mono := subset_rfl
  sound _ _ h := h
  face _ hT := hT.elim
  opposite _ hT := hT.elim
  still _ := ⟨rfl, fun _ hT => hT.elim⟩
  moved h := by cases h

/-- One sweep after the other. -/
theorem Sweep.trans {A B : Set (Finset V)} {M M1 M2 : Set (Sym2 V)} {f g : Bool}
    (h : Sweep A M M1 f) (h' : Sweep B M1 M2 g) : Sweep (A ∪ B) M M2 (f || g) where
  mono := h.mono.trans h'.mono
  sound S hS hM :=
    h'.sound S (fun T hT => hS T (Or.inr hT)) (h.sound S (fun T hT => hS T (Or.inl hT)) hM)
  face T hT a ha b hb c hc hab hac hbc h1 h2 := by
    rcases hT with hT | hT
    · exact h'.mono (h.face T hT a ha b hb c hc hab hac hbc h1 h2)
    · exact h'.face T hT a ha b hb c hc hab hac hbc (h.mono h1) (h.mono h2)
  opposite T hT a ha b hb c hc d hd hne h1 h2 := by
    rcases hT with hT | hT
    · exact (h.opposite T hT a ha b hb c hc d hd hne h1 h2).imp (fun h => h'.mono h)
        fun h => h'.mono h
    · exact h'.opposite T hT a ha b hb c hc d hd hne (h.mono h1) (h.mono h2)
  still hfg := by
    rw [Bool.or_eq_false_iff] at hfg
    obtain ⟨rfl, hA⟩ := h.still hfg.1
    obtain ⟨rfl, hB⟩ := h'.still hfg.2
    exact ⟨rfl, fun T hT => hT.elim (hA T) (hB T)⟩
  moved hfg := by
    cases hf : f with
    | true =>
        obtain ⟨T, hT, hopen⟩ := h.moved hf
        exact ⟨T, Or.inl hT, hopen⟩
    | false =>
        obtain ⟨rfl, _⟩ := h.still hf
        rw [hf, Bool.false_or] at hfg
        obtain ⟨T, hT, hopen⟩ := h'.moved hfg
        exact ⟨T, Or.inr hT, hopen⟩

/-- Sets with the same edges of a tetrahedron are closed together. -/
theorem Closed.congr {T : Finset V} {S S' : Set (Sym2 V)} (h : Closed T S)
    (heq : ∀ a ∈ T, ∀ b ∈ T, a ≠ b → (s(a, b) ∈ S ↔ s(a, b) ∈ S')) : Closed T S' := by
  constructor
  · intro a ha b hb c hc hab hac hbc h1 h2
    exact (heq a ha c hc hac).mp (h.face a ha b hb c hc hab hac hbc
      ((heq a ha b hb hab).mpr h1) ((heq b hb c hc hbc).mpr h2))
  · intro a ha b hb c hc d hd hne h1 h2
    rw [← heq a ha b hb hne.1] at h1
    rw [← heq c hc d hd hne.2.2.2.2.2] at h2
    rw [← heq a ha c hc hne.2.1, ← heq a ha d hd hne.2.2.1, ← heq b hb c hc hne.2.2.2.1,
      ← heq b hb d hd hne.2.2.2.2.1]
    exact h.opposite a ha b hb c hc d hd hne h1 h2

/-! ## Rounds -/

/-- The tetrahedra and edges that some ranks hold, and the edges that each of
them owns.  A tetrahedron is held by the owner of its edges up from each of its
corners. -/
structure Shared [LinearOrder V] (p : Nat) (cells : Nat → Set (Finset V))
    (edges owned : Nat → Set (Sym2 V)) : Prop where
  edge : ∀ r, r < p → ∀ T ∈ cells r, ∀ a ∈ T, ∀ b ∈ T, a ≠ b → s(a, b) ∈ edges r
  sub : ∀ r, r < p → owned r ⊆ edges r
  owner : ∀ r, r < p → ∀ k ∈ edges r, ∃ q, q < p ∧ k ∈ owned q
  held : ∀ r, r < p → ∀ T ∈ cells r, ∀ a ∈ T, ∃ q, q < p ∧ T ∈ cells q ∧
    ∀ b ∈ T, a < b → s(a, b) ∈ owned q

/-- The marks of the owners. -/
def ofOwners (p : Nat) (owned M : Nat → Set (Sym2 V)) : Set (Sym2 V) :=
  {k | ∃ r, r < p ∧ k ∈ owned r ∧ k ∈ M r}

/-- Closed on every tetrahedron of every rank. -/
def ClosedAll (p : Nat) (cells : Nat → Set (Finset V)) (S : Set (Sym2 V)) : Prop :=
  ∀ r, r < p → ∀ T ∈ cells r, Closed T S

section Round

variable {p : Nat} {cells : Nat → Set (Finset V)} {edges owned M' : Nat → Set (Sym2 V)}
  {G : Set (Sym2 V)} {again : Nat → Bool}

theorem ofOwners_subset (hsweep : ∀ r, r < p → Sweep (cells r) (edges r ∩ G) (M' r) (again r))
    {S : Set (Sym2 V)} (hS : ClosedAll p cells S) (hG : G ⊆ S) : ofOwners p owned M' ⊆ S := by
  rintro k ⟨r, hr, _, hk⟩
  exact (hsweep r hr).sound S (hS r hr) (fun k hk => hG hk.2) hk

variable [LinearOrder V]

theorem Shared.subset (h : Shared p cells edges owned)
    (hsweep : ∀ r, r < p → Sweep (cells r) (edges r ∩ G) (M' r) (again r))
    (hG : ∀ k ∈ G, ∃ r, r < p ∧ k ∈ edges r) : G ⊆ ofOwners p owned M' := by
  intro k hk
  obtain ⟨r, hr, hedge⟩ := hG k hk
  obtain ⟨q, hq, hown⟩ := h.owner r hr k hedge
  exact ⟨q, hq, hown, (hsweep q hq).mono ⟨h.sub q hq hown, hk⟩⟩

/-- A round without a promotion ends with a closed set. -/
theorem Shared.still (h : Shared p cells edges owned)
    (hsweep : ∀ r, r < p → Sweep (cells r) (edges r ∩ G) (M' r) (again r))
    (hagain : ∀ r, r < p → again r = false) :
    ofOwners p owned M' ⊆ G ∧ ClosedAll p cells G := by
  constructor
  · rintro k ⟨r, hr, _, hk⟩
    rw [((hsweep r hr).still (hagain r hr)).1] at hk
    exact hk.2
  · intro r hr T hT
    refine (((hsweep r hr).still (hagain r hr)).2 T hT).congr ?_
    intro a ha b hb hab
    exact ⟨fun hk => hk.2, fun hk => ⟨h.edge r hr T hT a ha b hb hab, hk⟩⟩

/-- The owner of two edges up from a corner marks one of them. -/
theorem Shared.grows_opposite (h : Shared p cells edges owned)
    (hsweep : ∀ r, r < p → Sweep (cells r) (edges r ∩ G) (M' r) (again r)) {r : Nat} (hr : r < p)
    {T : Finset V} (hT : T ∈ cells r) {a b c d : V} (ha : a ∈ T) (hb : b ∈ T) (hc : c ∈ T)
    (hd : d ∈ T) (hne : Distinct4 a b c d) (h1 : s(a, b) ∈ G) (h2 : s(c, d) ∈ G)
    (hac : s(a, c) ∉ G) (had : s(a, d) ∉ G) (hlt : a < c) (hlt' : a < d) :
    ∃ k ∈ ofOwners p owned M', k ∉ G := by
  obtain ⟨q, hq, hTq, hown⟩ := h.held r hr T hT a ha
  rcases (hsweep q hq).opposite T hTq a ha b hb c hc d hd hne
    ⟨h.edge q hq T hTq a ha b hb hne.1, h1⟩ ⟨h.edge q hq T hTq c hc d hd hne.2.2.2.2.2, h2⟩ with
    hk | hk
  · exact ⟨s(a, c), ⟨q, hq, hown c hc hlt, hk⟩, hac⟩
  · exact ⟨s(a, d), ⟨q, hq, hown d hd hlt', hk⟩, had⟩

/-- A round with a promotion on some rank adds a mark of an owner: the owner of
the missing edge of a face holds the tetrahedron, and of the edges between two
opposite ones those at the least corner have one owner. -/
theorem Shared.grows (h : Shared p cells edges owned)
    (hsweep : ∀ r, r < p → Sweep (cells r) (edges r ∩ G) (M' r) (again r)) {r : Nat} (hr : r < p)
    (hagain : again r = true) : ∃ k ∈ ofOwners p owned M', k ∉ G := by
  obtain ⟨T, hT, hopen⟩ := (hsweep r hr).moved hagain
  have hout : ∀ a ∈ T, ∀ b ∈ T, a ≠ b → s(a, b) ∉ edges r ∩ G → s(a, b) ∉ G :=
    fun a ha b hb hab hnot hk => hnot ⟨h.edge r hr T hT a ha b hb hab, hk⟩
  rcases hopen with ⟨a, ha, b, hb, c, hc, ⟨hab, hac, hbc⟩, h1, h2, h3⟩ |
    ⟨a, ha, b, hb, c, hc, d, hd, hne, h1, h2, h3, h4, h5, h6⟩
  · refine ⟨s(a, c), ?_, hout a ha c hc hac h3⟩
    have hface : ∀ q, q < p → T ∈ cells q → s(a, c) ∈ M' q := fun q hq hTq =>
      (hsweep q hq).face T hTq a ha b hb c hc hab hac hbc ⟨h.edge q hq T hTq a ha b hb hab, h1.2⟩
        ⟨h.edge q hq T hTq b hb c hc hbc, h2.2⟩
    rcases lt_or_gt_of_ne hac with hlt | hlt
    · obtain ⟨q, hq, hTq, hown⟩ := h.held r hr T hT a ha
      exact ⟨q, hq, hown c hc hlt, hface q hq hTq⟩
    · obtain ⟨q, hq, hTq, hown⟩ := h.held r hr T hT c hc
      refine ⟨q, hq, ?_, hface q hq hTq⟩
      rw [Sym2.eq_swap]
      exact hown a ha hlt
  · have hne' := hne
    obtain ⟨hab, hac, had, hbc, hbd, hcd⟩ := hne'
    replace h3 := hout a ha c hc hac h3
    replace h4 := hout a ha d hd had h4
    replace h5 := hout b hb c hc hbc h5
    replace h6 := hout b hb d hd hbd h6
    -- the least of the four corners comes first
    have hleast : (a < c ∧ a < d) ∨ (b < c ∧ b < d) ∨ (c < a ∧ c < b) ∨ (d < a ∧ d < b) := by
      grind
    rcases hleast with ⟨h7, h8⟩ | ⟨h7, h8⟩ | ⟨h7, h8⟩ | ⟨h7, h8⟩
    · exact h.grows_opposite hsweep hr hT ha hb hc hd hne h1.2 h2.2 h3 h4 h7 h8
    · exact h.grows_opposite hsweep hr hT hb ha hc hd ⟨hab.symm, hbc, hbd, hac, had, hcd⟩
        (Sym2.eq_swap ▸ h1.2) h2.2 h5 h6 h7 h8
    · exact h.grows_opposite hsweep hr hT hc hd ha hb ⟨hcd, hac.symm, hbc.symm, had.symm,
        hbd.symm, hab⟩ h2.2 h1.2 (Sym2.eq_swap ▸ h3) (Sym2.eq_swap ▸ h5) h7 h8
    · exact h.grows_opposite hsweep hr hT hd hc ha hb ⟨hcd.symm, had.symm, hbd.symm, hac.symm,
        hbc.symm, hab⟩ (Sym2.eq_swap ▸ h2.2) h1.2 (Sym2.eq_swap ▸ h4) (Sym2.eq_swap ▸ h6) h7 h8

end Round

end MarkClosure
