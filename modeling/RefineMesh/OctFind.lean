import Mathlib.Tactic
import RefineMesh.OctRuns

/-!
# The leaf at a point

`ref_oct_contains` descends to the first child that has the point, so it ends
at a leaf wherever the point is in the root.  `ref_oct_split_at` splits this
leaf until it is small enough.
-/

namespace RefineMesh

open Octree Fueled

namespace RefOct

variable {K : Type} [Field K] [LinearOrder K] [IsStrictOrderedRing K]

/-- A leaf below the cube that has the point, with its box. -/
def Found (s : RefOct K) (xyz : Fin 3 → K) (c : Cube) (found : Int × (Fin 6 → K)) : Prop :=
  ∃ v d, found = (((v : Nat) : Int), cubeBox K d) ∧ s.At v d ∧ s.LeafNode v ∧ c.Below d ∧ d.Has xyz

omit [IsStrictOrderedRing K] in
theorem not_has_iff {c : Cube} {xyz : Fin 3 → K} : ¬ c.Has xyz ↔
    xyz 0 < cubeBox K c 0 ∨ cubeBox K c 1 < xyz 0 ∨ xyz 1 < cubeBox K c 2 ∨
      cubeBox K c 3 < xyz 1 ∨ xyz 2 < cubeBox K c 4 ∨ cubeBox K c 5 < xyz 2 := by
  simp only [Cube.Has, Fin.forall_fin_succ, Fin.forall_fin_zero, cubeBox, Matrix.cons_val, not_and_or,
    not_le]
  tauto

/-- **The search below a row.** -/
theorem containsNode_ends {xyz : Fin 3 → K} {nodeBbox : Fin 6 → K} (fuel : Nat) {s : RefOct K}
    {v : Nat} {c : Cube} (hat : s.At v c) :
    Ends (s.containsNode xyz fuel (cubeBox K c) v nodeBbox)
      (fun r => s.Found xyz c r ∨ r = (refEmpty, nodeBbox) ∧ ¬ c.Has xyz)
      (fun _ => False) (∀ L, s.Deep L → fuel + c.level ≤ L) := by
  induction fuel generalizing v c nodeBbox with
  | zero =>
      refine ends_out fun L hdeep => ?_
      rw [Nat.zero_add]
      exact hdeep.at_le hat
  | succ fuel ih =>
      rw [containsNode]
      by_cases hhas : c.Has xyz
      · rw [if_neg fun hout => not_has_iff.mpr hout hhas]
        by_cases hleaf : s.LeafNode v
        · rw [if_pos hleaf]
          exact ends_done (Or.inl ⟨v, c, rfl, hat, hleaf, .refl, hhas⟩)
        · rw [if_neg hleaf]
          -- the children that have been tried do not have the point
          refine (ends_loop (I := fun k r => s.Found xyz c r ∨
            r = (refEmpty, nodeBbox) ∧ ∀ i < k, ¬ (c.child (octant i)).Has xyz)
            (Or.inr ⟨rfl, fun i hi => absurd hi (Nat.not_lt_zero i)⟩) ?_).imp ?_ (fun _ => id) id
          · rintro k r hk (hfound | ⟨rfl, hnone⟩)
            · obtain ⟨w, d, hr, _⟩ := id hfound
              rw [if_pos (by rw [hr]; exact natCast_ne_refEmpty w)]
              exact ends_done (Or.inl hfound)
            · rw [if_neg (not_not.mpr rfl)]
              refine (ends_ok (childBbox_cubeBox c hk) (Q := fun box => box = _) rfl).bind ?_
              rintro _ rfl
              refine (ih (.child hat hleaf hk)).imp ?_ (fun _ => id) fun hO L hdeep => ?_
              · rintro r (⟨w, d, hr, hw, hwleaf, hbelow, hd⟩ | ⟨rfl, hno⟩)
                · exact Or.inl ⟨w, d, hr, hw, hwleaf, hbelow.of_child, hd⟩
                · refine Or.inr ⟨rfl, fun i hi => ?_⟩
                  rcases Nat.lt_succ_iff_lt_or_eq.mp hi with hi | rfl
                  · exact hnone i hi
                  · exact hno
              · have hle := hO L hdeep
                rw [Cube.child_level] at hle
                omega
          · rintro r (hfound | ⟨rfl, hnone⟩)
            · exact Or.inl hfound
            · obtain ⟨o, ho⟩ := hhas.exists_child
              obtain ⟨i, hi, rfl⟩ := exists_octant o
              exact absurd ho (hnone i hi)
      · rw [if_pos (not_has_iff.mp hhas)]
        exact ends_done (Or.inr ⟨rfl, hhas⟩)

theorem contains_ends {xyz : Fin 3 → K} {bbox : Fin 6 → K} (fuel : Nat) {s : RefOct K}
    (hbox : s.bbox = cubeBox K .root) :
    Ends (s.contains xyz fuel bbox)
      (fun r => s.Found xyz .root r ∨ r = (refEmpty, bbox) ∧ ¬ Cube.root.Has xyz)
      (fun _ => False) (∀ L, s.Deep L → fuel ≤ L) := by
  rw [contains, hbox]
  exact containsNode_ends fuel .root

variable [ExactSqrt K]

/-- The cubes that `ref_oct_split_at` may cut. -/
def Around (xyz : Fin 3 → K) (h : K) (c : Cube) : Prop := c.Has xyz ∧ h < bboxDiag (cubeBox K c)

/-- **The refinement at a point.** -/
theorem splitAt_ends {xyz : Fin 3 → K} {h : K} {depth : Nat} (fuel : Nat) {s : RefOct K}
    (hs : s.OctInv) (hbox : s.bbox = cubeBox K .root) :
    Ends (splitAt xyz h depth fuel s)
      (fun t => Grows (fun _ => Around xyz h) s t ∧
        ∃ r, t.contains xyz depth (fun _ => 0) = done r ∧ t.Found xyz .root r ∧ bboxDiag r.2 ≤ h)
      (fun e => Full (fun _ => Around xyz h) s e ∨ e = .failure ∧ ¬ Cube.root.Has xyz)
      (fuel + s.n ≤ refIntMax / 27 ∨
        ∀ L, s.Deep L → (∀ d, Around xyz h d → d.level < L) → depth ≤ L) := by
  induction fuel generalizing s with
  | zero =>
      refine ends_out (Or.inl ?_)
      rw [Nat.zero_add]
      exact hs.n_le_limit
  | succ fuel ih =>
      rw [splitAt]
      refine Ends.bind ((contains_ends depth hbox).and_run.imp (fun _ => id)
        (fun _ hfalse => hfalse.elim) fun hO => Or.inr fun L hdeep _ => hO L hdeep) ?_
      rintro _ ⟨hrun, ⟨v, c, rfl, hat, hleaf, hbelow, hhas⟩ | ⟨rfl, hout⟩⟩
      · dsimp only at hrun ⊢
        rw [if_neg (by omega)]
        by_cases hdiag : h < bboxDiag (cubeBox K c)
        · rw [if_pos hdiag]
          obtain ⟨herr, hfull⟩ | ⟨t, ht, hsplit⟩ := split_spec hs (hat.lt hs) hleaf
          · exact (ends_error herr (Q := fun _ => False)
              (Or.inl ⟨rfl, s, v, c, .refl, hat, hleaf, ⟨hhas, hdiag⟩, hfull⟩)).bind
                fun _ hfalse => hfalse.elim
          · refine (ends_ok ht (Q := fun u => u = t) rfl).bind ?_
            rintro _ rfl
            have hgrow : Grows (fun _ => Around xyz h) s _ :=
              .single ⟨v, c, hat, ⟨hhas, hdiag⟩, hsplit⟩
            refine (ih (hsplit.inv hs) (hsplit.bbox.trans hbox)).imp ?_ ?_ ?_
            · exact fun u hu => ⟨hgrow.trans hu.1, hu.2⟩
            · exact fun e he => he.imp_left fun he => he.of_grows hgrow
            · rw [hsplit.n]
              refine Or.imp (fun hn => by omega) fun hO L hdeep hover => hO L ?_ hover
              exact fun d hd => Grows.cut_inv hgrow hs (J := {d | d.level < L}) hdeep
                (fun _ d _ _ _ hd => hover d hd) hd
        · rw [if_neg hdiag]
          exact ends_done ⟨.refl, _, hrun, ⟨v, c, rfl, hat, hleaf, hbelow, hhas⟩, not_lt.mp hdiag⟩
      · dsimp only
        rw [if_pos (by decide)]
        exact ends_error rfl (Or.inr ⟨rfl, hout⟩)

end RefOct

end RefineMesh
