import Mathlib.Tactic
import RefineMesh.IsoSurface

/-!
# Tets that the surface only grazes

A field may be zero at nodes.  An edge is cut when its ends have strictly
opposite signs, so a tet with zeros can have one or two cut edges; these are
the patterns that the `switch` of `ref_iso_insert` leaves to its default case.
-/

namespace RefineMesh

open ArrayLoop Segments Spmd

variable {D : Type}

/-! ## The table -/

/-- The edges of a simplex whose corners have strictly opposite signs. -/
def signCut (ends : List (Nat × Nat)) (sign : Nat → Ordering) (k : Nat) : Bool :=
  let e := ends.getD k (0, 0)
  (sign e.1 = .gt ∧ sign e.2 = .lt) ∨ (sign e.1 = .lt ∧ sign e.2 = .gt)

/-- The corners of a tet with a sign. -/
def signCount (sign : Nat → Ordering) (o : Ordering) : Nat :=
  (List.range 4).countP fun i => sign i = o

/-- One positive corner and one or two negative ones, or the other way round,
and zeros at the rest. -/
def Grazed (sign : Nat → Ordering) : Prop :=
  signCount sign .gt * signCount sign .lt = 1 ∨ signCount sign .gt * signCount sign .lt = 2

instance (sign : Nat → Ordering) : Decidable (Grazed sign) := inferInstanceAs (Decidable (_ ∨ _))

/-- The signs of the first corners only. -/
def cornerSigns (signs : List Ordering) (i : Nat) : Ordering := signs.getD i .eq

/-- What the `switch` does for each pattern of signs: the default case for
grazed tets, otherwise at most two triangles on cut edges. -/
theorem tetCut_signs_table : ∀ o0 o1 o2 o3 : Ordering,
    let sign := cornerSigns [o0, o1, o2, o3]
    let cut := signCut CellType.tet.e2n sign
    (Grazed sign → tetCut cut = .error .implement) ∧
      (¬ Grazed sign → tetCut cut = .ok (tetPieces cut) ∧ (tetPieces cut).length ≤ 2 ∧
        ∀ K ∈ tetPieces cut, K.length = 3 ∧ ∀ k ∈ K, k < 6 ∧ cut k = true) := by
  decide

theorem tetCut_signs (sign : Nat → Ordering) :
    let cut := signCut CellType.tet.e2n sign
    (Grazed sign → tetCut cut = .error .implement) ∧
      (¬ Grazed sign → tetCut cut = .ok (tetPieces cut) ∧ (tetPieces cut).length ≤ 2 ∧
        ∀ K ∈ tetPieces cut, K.length = 3 ∧ ∀ k ∈ K, k < 6 ∧ cut k = true) := by
  have hfirst : ∀ i, i < 4 → cornerSigns [sign 0, sign 1, sign 2, sign 3] i = sign i := by
    intro i hi
    match i, hi with
    | 0, _ => rfl
    | 1, _ => rfl
    | 2, _ => rfl
    | 3, _ => rfl
  have hcut : signCut CellType.tet.e2n (cornerSigns [sign 0, sign 1, sign 2, sign 3]) =
      signCut CellType.tet.e2n sign := by
    funext k
    have hk : (CellType.tet.e2n.getD k (0, 0)).1 < 4 ∧ (CellType.tet.e2n.getD k (0, 0)).2 < 4 := by
      rw [List.getD_eq_getElem?_getD]
      cases hget : CellType.tet.e2n[k]? with
      | none => exact ⟨by decide, by decide⟩
      | some e =>
          obtain ⟨h1, h2, _⟩ := CellType.tet.e2n_lt e (List.mem_of_getElem? hget)
          exact ⟨h1, h2⟩
    simp only [signCut, hfirst _ hk.1, hfirst _ hk.2]
  have hgrazed : Grazed (cornerSigns [sign 0, sign 1, sign 2, sign 3]) ↔ Grazed sign := Iff.rfl
  have htable := tetCut_signs_table (sign 0) (sign 1) (sign 2) (sign 3)
  simp only [hcut, hgrazed] at htable
  exact htable

/-! ## The loop over the tets -/

section Loop

variable [RefIsoDbl D]

/-- The sign of the field at a node. -/
def signAt (field : Nat → D) (v : Int) : Ordering := cmp (field v.toNat) RefDbl.zero

theorem crosses_iff_signs {field : Nat → D} {v w : Int} :
    Crosses field v.toNat w.toNat ↔
      (signAt field v = .gt ∧ signAt field w = .lt) ∨
        (signAt field v = .lt ∧ signAt field w = .gt) := by
  unfold Crosses signAt
  rw [cmp_eq_gt_iff, cmp_eq_gt_iff, cmp_eq_lt_iff, cmp_eq_lt_iff, lt_max_iff, min_lt_iff]
  constructor
  · intro h
    obtain ⟨hpos | hpos, hneg | hneg⟩ := h
    · exact absurd hpos hneg.not_gt
    · exact Or.inl ⟨hpos, hneg⟩
    · exact Or.inr ⟨hneg, hpos⟩
    · exact absurd hpos hneg.not_gt
  · intro h
    obtain ⟨hpos, hneg⟩ | ⟨hneg, hpos⟩ := h
    · exact ⟨Or.inl hpos, Or.inr hneg⟩
    · exact ⟨Or.inr hpos, Or.inl hneg⟩

/-- The signs of the field at the corners of a tet. -/
def RefGrid.tetSigns (g : RefGrid D) (field : Nat → D) (c : Nat) (i : Nat) : Ordering :=
  signAt field ((g.cell .tet).c2n c i)

/-- The new nodes on the edges of a rank: a slot of the surface where the field
changes its sign. -/
structure CutNodes (g : RefGrid D) (field : Nat → D) (s : RefEdge) (newNode : Nat → Int)
    (max : Nat) : Prop where
  covers : s.Covers (RefEdge.gridEdges g)
  iff_crosses : ∀ e, e < s.n →
    (newNode e ≠ refEmpty ↔ Crosses field (s.endNode e 0) (s.endNode e 1))
  range : ∀ e, e < s.n → newNode e ≠ refEmpty → 0 ≤ newNode e ∧ newNode e < max

variable {g : RefGrid D} {field : Nat → D} {s : RefEdge} {newNode : Nat → Int} {max : Nat}

/-- The new nodes of one tet. -/
theorem CutNodes.tet_nodes (h : CutNodes g field s newNode max)
    (htype : (g.cell .tet).cellType = .tet) {c : Nat} (hc : (g.cell .tet).Live c) :
    ∃ edgeNodes : List Int, s.newNodes newNode ((g.cell .tet).cellType.e2n.map fun e =>
        ((g.cell .tet).c2n c e.1, (g.cell .tet).c2n c e.2)) = .ok edgeNodes ∧
      (fun k => decide (edgeNodes.getD k refEmpty ≠ refEmpty)) =
        signCut CellType.tet.e2n (g.tetSigns field c) ∧
      ∀ k, edgeNodes.getD k refEmpty ≠ refEmpty →
        0 ≤ edgeNodes.getD k refEmpty ∧ edgeNodes.getD k refEmpty < max := by
  have hedge : ∀ e ∈ CellType.tet.e2n, ∃ k, k < s.n ∧
      s.Joins k ((g.cell .tet).c2n c e.1) ((g.cell .tet).c2n c e.2) := by
    intro e he
    apply h.covers.found ((g.cell .tet).c2n c e.1, (g.cell .tet).c2n c e.2)
    apply RefEdge.mem_gridEdges (t := .tet) (by decide)
    exact RefEdge.mem_cellEdges.mpr ⟨c, hc, e, by rw [htype]; exact he, rfl, rfl⟩
  set point := RefEdge.pointOn h.covers.inv newNode with hpoint
  refine ⟨(CellType.tet.e2n.map fun e =>
    ((g.cell .tet).c2n c e.1, (g.cell .tet).c2n c e.2)).map fun pair => point s(pair.1, pair.2),
    ?_, ?_, ?_⟩
  · rw [htype]
    apply RefEdge.newNodes_ok h.covers.inv
    intro pair hp
    obtain ⟨e, he, rfl⟩ := List.mem_map.mp hp
    exact hedge e he
  · funext k
    by_cases hk : k < CellType.tet.e2n.length
    · have he : CellType.tet.e2n.getD k (0, 0) ∈ CellType.tet.e2n := by
        rw [List.getD_eq_getElem?_getD, List.getElem?_eq_getElem hk]
        exact List.getElem_mem hk
      obtain ⟨edge, hlt, hjoins⟩ := hedge _ he
      rw [List.map_map, getD_map _ _ (0, 0) _ hk, Bool.eq_iff_iff, decide_eq_true_eq]
      simp only [Function.comp_apply]
      rw [hpoint, RefEdge.pointOn_joins h.covers.inv hlt hjoins, h.iff_crosses edge hlt,
        RefEdge.crosses_of_joins hjoins, crosses_iff_signs]
      simp [signCut, RefGrid.tetSigns]
    · have hout : CellType.tet.e2n.getD k (0, 0) = (0, 0) := by
        rw [List.getD_eq_getElem?_getD, List.getElem?_eq_none (by omega), Option.getD_none]
      rw [List.getD_eq_getElem?_getD, List.getElem?_eq_none (by simpa using hk), Option.getD_none,
        signCut, hout]
      -- one corner does not have two signs
      cases g.tetSigns field c 0 <;> rfl
  · intro k hne
    by_cases hk : k < CellType.tet.e2n.length
    · have he : CellType.tet.e2n.getD k (0, 0) ∈ CellType.tet.e2n := by
        rw [List.getD_eq_getElem?_getD, List.getElem?_eq_getElem hk]
        exact List.getElem_mem hk
      obtain ⟨edge, hlt, hjoins⟩ := hedge _ he
      rw [List.map_map, getD_map _ _ (0, 0) _ hk] at hne ⊢
      simp only [Function.comp_apply] at hne ⊢
      rw [hpoint, RefEdge.pointOn_joins h.covers.inv hlt hjoins] at hne ⊢
      exact h.range edge hlt hne
    · rw [List.getD_eq_getElem?_getD, List.getElem?_eq_none (by simpa using hk)] at hne
      exact absurd rfl hne

/-- **One tet**: the default case for a grazed one, otherwise at most two new
triangles. -/
theorem CutNodes.isoTri_eq (h : CutNodes g field s newNode max)
    (htype : (g.cell .tet).cellType = .tet) (hroom : max + 100 ≤ refIntMax) {c : Nat}
    (hc : (g.cell .tet).Live c) :
    (Grazed (g.tetSigns field c) →
      ∀ acc, isoTri s newNode (g.cell .tet) acc c = .error .implement) ∧
    (¬ Grazed (g.tetSigns field c) → ∃ rows : List (Nat → Int), rows.length ≤ 2 ∧
      (∀ nodes ∈ rows, ∀ i, i < CellType.tri.nodePer → 0 ≤ nodes i ∧ nodes i + 100 ≤ refIntMax) ∧
      ∀ acc, isoTri s newNode (g.cell .tet) acc c = RefSubdiv.addRows acc rows) := by
  obtain ⟨edgeNodes, hnodes, hcut, hrange⟩ := h.tet_nodes htype hc
  have hcellNodes : (g.cell .tet).nodes c = .ok ((g.cell .tet).c2n c) := by
    simp [RefCell.nodes, hc]
  have hbody : ∀ acc, isoTri s newNode (g.cell .tet) acc c =
      (tetCut (signCut CellType.tet.e2n (g.tetSigns field c))).bind fun places =>
        RefSubdiv.addRows acc (places.map (isoRow edgeNodes)) := by
    intro acc
    simp only [isoTri, hcellNodes, hnodes, hcut, bind, Except.bind]
  obtain ⟨hgrazed, hplain⟩ := tetCut_signs (g.tetSigns field c)
  constructor
  · intro hg acc
    rw [hbody, hgrazed hg]
    rfl
  · intro hg
    obtain ⟨hok, htwo, hpieces⟩ := hplain hg
    refine ⟨(tetPieces (signCut CellType.tet.e2n (g.tetSigns field c))).map (isoRow edgeNodes),
      by rw [List.length_map]; exact htwo, ?_, fun acc => by rw [hbody, hok]; rfl⟩
    intro nodes hin i hi
    obtain ⟨K, hK, rfl⟩ := List.mem_map.mp hin
    obtain ⟨hlen, hall⟩ := hpieces K hK
    have hi3 : i < K.length := hlen ▸ hi
    obtain ⟨-, hk⟩ := hall _ (List.getElem_mem hi3)
    have hne : edgeNodes.getD K[i] refEmpty ≠ refEmpty := by
      rw [← hcut] at hk
      exact of_decide_eq_true hk
    have hrow : isoRow edgeNodes K i = edgeNodes.getD K[i] refEmpty := by
      rw [isoRow, List.getD_eq_getElem?_getD, List.getElem?_append_left (by simpa using hi3)]
      simp [hi3]
    obtain ⟨h0, hlt⟩ := hrange _ hne
    rw [hrow]
    omega

end Loop

end RefineMesh
