import Mathlib.Tactic
import RefineMesh.Oct

/-!
# The rows as a tree

Each row of the table lies at one cube.  The invariant says that a row that is
no leaf has eight rows behind it for children, that each row but the first is a
child of one row, and that no index leaves the table.
-/

namespace RefineMesh

open Octree Fueled

namespace RefOct

variable {K : Type}

/-- The sides of the middle planes on which the child lies. -/
def octant (i : Nat) : Fin 3 → Bool :=
  ![decide (i % 4 = 1 ∨ i % 4 = 2), decide (2 ≤ i % 4), decide (4 ≤ i)]

theorem octant_inj : ∀ i < 8, ∀ j < 8, octant i = octant j → i = j := by decide

theorem exists_octant : ∀ o, ∃ i < 8, octant i = o := by decide

/-- The row lies at the cube. -/
inductive At (s : RefOct K) : Nat → Cube → Prop
  | root : s.At 0 .root
  | child {v : Nat} {c : Cube} {i : Nat} (h : s.At v c) (hinner : ¬ s.LeafNode v) (hi : i < 8) :
      s.At (s.children v i).toNat (c.child (octant i))

/-- The cubes of the rows with children. -/
def cut (s : RefOct K) : Set Cube := {c | ∃ v, s.At v c ∧ ¬ s.LeafNode v}

/-- The sizes that the table can have. -/
def tableSizes : List Nat :=
  [102400, 256000, 640000, 1600000, 4000000, 10000000, 25000000, 62500000, 79536431]

/-- **The invariant of the table.** -/
structure OctInv (s : RefOct K) : Prop where
  pos : 0 < s.n
  le_max : s.n ≤ s.max
  size : s.max ∈ tableSizes
  row : ∀ v, v < s.n → s.Childless v ∨
    ∃ base, v < base ∧ base + 8 ≤ s.n ∧ ∀ i < 8, s.children v i = (base + i : Nat)
  fresh : ∀ v, s.n ≤ v → s.Childless v
  parent : ∀ u, 0 < u → u < s.n → ∃ v < u, ∃ i < 8, s.children v i = u
  once : ∀ v w, v < s.n → w < s.n → ∀ i < 8, ∀ j < 8, s.children v i = s.children w j →
    s.children v i ≠ refEmpty → v = w ∧ i = j

section Tree

variable {s : RefOct K}

theorem OctInv.childless (h : s.OctInv) {v : Nat} (hleaf : s.LeafNode v) : s.Childless v := by
  by_cases hv : v < s.n
  · refine (h.row v hv).resolve_right ?_
    rintro ⟨base, -, -, hbase⟩
    have h0 := hbase 0 (by decide)
    rw [hleaf] at h0
    exact refEmpty_ne_natCast _ h0
  · exact h.fresh v (not_lt.mp hv)

/-- The children of a row that is no leaf. -/
theorem OctInv.inner (h : s.OctInv) {v : Nat} (hinner : ¬ s.LeafNode v) :
    v < s.n ∧ ∃ base, v < base ∧ base + 8 ≤ s.n ∧ ∀ i < 8, s.children v i = (base + i : Nat) := by
  have hv : v < s.n := by
    by_contra hv
    exact hinner (h.fresh v (not_lt.mp hv) 0 (by decide))
  exact ⟨hv, (h.row v hv).resolve_left fun hnone => hinner (hnone 0 (by decide))⟩

theorem At.lt (h : s.OctInv) {v : Nat} {c : Cube} (hat : s.At v c) : v < s.n := by
  cases hat with
  | root => exact h.pos
  | child _ hinner hi =>
      obtain ⟨_, base, _, hle, hbase⟩ := h.inner hinner
      rw [hbase _ hi, Int.toNat_natCast]
      omega

theorem OctInv.n_le_limit {s : RefOct K} (hs : s.OctInv) : s.n ≤ refIntMax / 27 := by
  have hall : ∀ max ∈ tableSizes, max ≤ refIntMax / 27 := by decide
  exact hs.le_max.trans (hall s.max hs.size)

/-- A child lies behind its parent. -/
theorem OctInv.lt_child (h : s.OctInv) {v i : Nat} (hinner : ¬ s.LeafNode v) (hi : i < 8) :
    v < (s.children v i).toNat := by
  obtain ⟨_, base, hlt, _, hbase⟩ := h.inner hinner
  rw [hbase i hi, Int.toNat_natCast]
  omega

theorem OctInv.child_inj (h : s.OctInv) {v w i j : Nat} (hv : ¬ s.LeafNode v)
    (hw : ¬ s.LeafNode w) (hi : i < 8) (hj : j < 8)
    (heq : (s.children v i).toNat = (s.children w j).toNat) : v = w ∧ i = j := by
  obtain ⟨hvn, base, _, _, hbase⟩ := h.inner hv
  obtain ⟨hwn, base', _, _, hbase'⟩ := h.inner hw
  refine h.once v w hvn hwn i hi j hj ?_ ?_
  · rw [hbase i hi, hbase' j hj, Int.toNat_natCast, Int.toNat_natCast] at heq
    rw [hbase i hi, hbase' j hj, heq]
  · rw [hbase i hi]
    exact natCast_ne_refEmpty _

/-- **A row lies at one cube.** -/
theorem At.cube_unique (h : s.OctInv) {v : Nat} {c d : Cube} (hc : s.At v c) (hd : s.At v d) :
    c = d := by
  induction hc generalizing d with
  | root =>
      generalize hv : 0 = v at hd
      cases hd with
      | root => rfl
      | child _ hinner hi => exact absurd (hv ▸ h.lt_child hinner hi) (Nat.not_lt_zero _)
  | @child p e i hp hinner hi ih =>
      generalize hv : (s.children p i).toNat = v at hd
      cases hd with
      | root => exact absurd (hv ▸ h.lt_child hinner hi) (Nat.not_lt_zero _)
      | @child q f j hq hinner' hj =>
          obtain ⟨rfl, rfl⟩ := h.child_inj hinner hinner' hi hj hv
          rw [ih hq]

/-- **A cube has one row.** -/
theorem At.row_unique {v w : Nat} {c : Cube} (hv : s.At v c) (hw : s.At w c) : v = w := by
  induction hv generalizing w with
  | root =>
      generalize hroot : Cube.root = c at hw
      cases hw with
      | root => rfl
      | child _ _ _ => exact absurd hroot.symm (Cube.child_ne_root _ _)
  | @child p e i hp hinner hi ih =>
      generalize hc : e.child (octant i) = c at hw
      cases hw with
      | root => exact absurd hc (Cube.child_ne_root _ _)
      | @child q f j hq _ hj =>
          obtain ⟨rfl, ho⟩ := Cube.child_inj.mp hc
          rw [ih hq, octant_inj i hi j hj ho]

theorem cell_iff {c : Cube} : Cell s.cut c ↔ ∃ v, s.At v c := by
  constructor
  · rintro (rfl | ⟨p, ⟨v, hat, hinner⟩, o, rfl⟩)
    · exact ⟨0, .root⟩
    · obtain ⟨i, hi, rfl⟩ := exists_octant o
      exact ⟨_, .child hat hinner hi⟩
  · rintro ⟨v, hat⟩
    cases hat with
    | root => exact Or.inl rfl
    | child hat hinner hi => exact Or.inr ⟨_, ⟨_, hat, hinner⟩, _, rfl⟩

theorem leaf_iff {c : Cube} : Leaf s.cut c ↔ ∃ v, s.At v c ∧ s.LeafNode v := by
  rw [Leaf, cell_iff]
  constructor
  · rintro ⟨⟨v, hat⟩, hcut⟩
    exact ⟨v, hat, by_contra fun hinner => hcut ⟨v, hat, hinner⟩⟩
  · rintro ⟨v, hat, hleaf⟩
    refine ⟨⟨v, hat⟩, fun hcut => ?_⟩
    obtain ⟨w, hw, hinner⟩ := hcut
    exact hinner (hat.row_unique hw ▸ hleaf)

/-- Every row of the table is in the tree. -/
theorem OctInv.exists_cube (h : s.OctInv) {v : Nat} (hv : v < s.n) : ∃ c, s.At v c := by
  induction v using Nat.strong_induction_on with
  | _ v ih =>
      rcases Nat.eq_zero_or_pos v with rfl | hpos
      · exact ⟨_, .root⟩
      · obtain ⟨p, hp, i, hi, hchild⟩ := h.parent v hpos hv
        obtain ⟨c, hc⟩ := ih p hp (hp.trans hv)
        have hinner : ¬ s.LeafNode p := by
          intro hleaf
          rw [h.childless hleaf i hi] at hchild
          exact refEmpty_ne_natCast _ hchild
        have hat := At.child hc hinner hi
        rw [hchild, Int.toNat_natCast] at hat
        exact ⟨_, hat⟩

end Tree

/-! ## The splits -/

theorem addChildren_eq (s : RefOct K) (node : Nat) : s.addChildren node = { s with
    n := s.n + 8
    children := Function.update s.children node fun i =>
      if i < 8 then ((s.n + i : Nat) : Int) else s.children node i } := by
  have hloop : ∀ k, (List.range k).foldl (fun (s : RefOct K) i => { s with
      children := Function.update s.children node
        (Function.update (s.children node) i (s.n : Int))
      n := s.n + 1 }) s = { s with
        n := s.n + k
        children := Function.update s.children node fun i =>
          if i < k then ((s.n + i : Nat) : Int) else s.children node i } := by
    intro k
    induction k with
    | zero => simp
    | succ k ih =>
        rw [List.range_succ, List.foldl_append, ih]
        simp only [List.foldl_cons, List.foldl_nil, Function.update_self, Function.update_idem,
          RefOct.mk.injEq, true_and, and_true]
        refine ⟨by omega, ?_⟩
        congr 1
        funext i
        rcases lt_trichotomy i k with hi | rfl | hi
        · rw [Function.update_of_ne hi.ne, if_pos hi, if_pos (by omega)]
        · rw [Function.update_self, if_pos (by omega)]
        · rw [Function.update_of_ne hi.ne', if_neg (by omega), if_neg (by omega)]
  exact hloop 8

/-- The table after a split of the row. -/
structure SplitOf (s s' : RefOct K) (v : Nat) : Prop where
  leaf : v < s.n ∧ s.LeafNode v
  bbox : s'.bbox = s.bbox
  n : s'.n = s.n + 8
  nnode : s'.nnode = s.nnode
  nodes : (∀ w i, s.nodes w i = refEmpty) → ∀ w i, s'.nodes w i = refEmpty
  child : ∀ i < 8, s'.children v i = (s.n + i : Nat)
  other : ∀ w, w ≠ v → ∀ i < 8, s'.children w i = s.children w i
  max : s.n + 8 ≤ s'.max ∧ s'.max ∈ tableSizes

theorem grow_spec {s : RefOct K} (h : s.OctInv) (hfull : s.max < s.n + 8) :
    (s.grow = .error .failure ∧ refIntMax / 27 < s.n + 8) ∨
      ∃ s', s.grow = .ok s' ∧ s'.bbox = s.bbox ∧ s'.n = s.n ∧ s'.nnode = s.nnode ∧
        ((∀ w i, s.nodes w i = refEmpty) → ∀ w i, s'.nodes w i = refEmpty) ∧
        (∀ w i, i < 8 → s'.children w i = s.children w i) ∧
        s.n + 8 ≤ s'.max ∧ s'.max ∈ tableSizes := by
  have hle := h.le_max
  by_cases hlimit : refIntMax / 27 ≤ s.max
  · exact Or.inl ⟨if_pos hlimit, by omega⟩
  · refine Or.inr ⟨_, if_neg hlimit, rfl, rfl, rfl, ?_, ?_, ?_⟩
    · intro hblank w i
      dsimp only
      split
      · rfl
      · exact hblank w i
    · intro w i hi
      dsimp only
      split
      · rename_i hw
        exact (h.fresh w (by omega) i hi).symm
      · rfl
    · have hsize := h.size
      have hnot : s.max ≠ 79536431 := fun heq => hlimit (by rw [heq]; decide)
      simp only [tableSizes, List.mem_cons, List.not_mem_nil, or_false, hnot, refIntMax] at hsize ⊢
      rcases hsize with hm | hm | hm | hm | hm | hm | hm | hm <;> rw [hm] at hfull hle ⊢ <;>
        constructor <;> omega

/-- **What a split does**: it fails when the table is at its limit. -/
theorem split_spec {s : RefOct K} (h : s.OctInv) {v : Nat} (hv : v < s.n) (hleaf : s.LeafNode v) :
    (s.split v = .error .failure ∧ refIntMax / 27 < s.n + 8) ∨
      ∃ s', s.split v = .ok s' ∧ SplitOf s s' v := by
  have hle := h.le_max
  have hchildless := h.childless hleaf
  rw [split, if_neg (by omega), if_neg (by omega), if_neg (by omega), Int.toNat_natCast,
    if_neg (not_not.mpr hchildless)]
  by_cases hfull : s.max < s.n + 8
  · rw [if_pos hfull]
    obtain ⟨hgrow, hlimit⟩ | ⟨s', hgrow, hbbox, hn, hnnode, hnodes, hchildren, hmax, hsize⟩ :=
      grow_spec h hfull
    · rw [hgrow]
      exact Or.inl ⟨rfl, hlimit⟩
    · rw [hgrow]
      refine Or.inr ⟨_, rfl, ?_⟩
      rw [addChildren_eq]
      refine ⟨⟨hv, hleaf⟩, hbbox, by rw [hn], hnnode, hnodes, fun i hi => ?_, fun w hw i hi => ?_,
        hmax, hsize⟩
      · dsimp only
        rw [Function.update_self, if_pos hi, hn]
      · dsimp only
        rw [Function.update_of_ne hw, hchildren w i hi]
  · rw [if_neg hfull]
    refine Or.inr ⟨_, rfl, ?_⟩
    rw [addChildren_eq]
    refine ⟨⟨hv, hleaf⟩, rfl, rfl, rfl, id, fun i hi => ?_, fun w hw i _ => ?_, by simpa using hfull,
      h.size⟩
    · dsimp only
      rw [Function.update_self, if_pos hi]
    · dsimp only
      rw [Function.update_of_ne hw]

/-- A split that succeeds is one of a leaf. -/
theorem split_ok {s s' : RefOct K} (h : s.OctInv) {node : Int} (hrun : s.split node = .ok s') :
    ∃ v : Nat, node = v ∧ SplitOf s s' v := by
  have hvalid : ¬ node < 0 ∧ ¬ (s.n : Int) ≤ node ∧ s.Childless node.toNat := by
    rw [split] at hrun
    split_ifs at hrun with hneg hlt hmax hchild hfull
    all_goals exact ⟨hneg, hlt, hchild⟩
  obtain ⟨v, rfl⟩ : ∃ v : Nat, node = v := ⟨node.toNat, by omega⟩
  rw [Int.toNat_natCast] at hvalid
  obtain ⟨herr, -⟩ | ⟨t, ht, hsplit⟩ := split_spec h (by omega) (hvalid.2.2 0 (by decide))
  · rw [herr] at hrun
    cases hrun
  · rw [ht] at hrun
    cases hrun
    exact ⟨v, rfl, hsplit⟩

namespace SplitOf

variable {s s' : RefOct K} {v : Nat}

theorem leafNode_iff (h : SplitOf s s' v) {w : Nat} : s'.LeafNode w ↔ w ≠ v ∧ s.LeafNode w := by
  by_cases hw : w = v
  · subst hw
    constructor
    · intro hleaf
      have h0 := h.child 0 (by decide)
      rw [hleaf] at h0
      exact absurd h0 (refEmpty_ne_natCast _)
    · exact fun hboth => absurd rfl hboth.1
  · rw [LeafNode, LeafNode, h.other w hw 0 (by decide)]
    exact ⟨fun hleaf => ⟨hw, hleaf⟩, fun hboth => hboth.2⟩

/-- **A split keeps the invariant.** -/
theorem inv (h : SplitOf s s' v) (hs : s.OctInv) : s'.OctInv := by
  have hv := h.leaf.1
  refine ⟨by rw [h.n]; omega, by rw [h.n]; exact h.max.1, h.max.2, ?_, ?_, ?_, ?_⟩
  · intro w hw
    by_cases hwv : w = v
    · subst hwv
      exact Or.inr ⟨s.n, hv, by rw [h.n], h.child⟩
    by_cases hwn : w < s.n
    · rcases hs.row w hwn with hnone | ⟨base, hlt, hle, hbase⟩
      · exact Or.inl fun i hi => (h.other w hwv i hi).trans (hnone i hi)
      · exact Or.inr ⟨base, hlt, by rw [h.n]; omega,
          fun i hi => (h.other w hwv i hi).trans (hbase i hi)⟩
    · exact Or.inl fun i hi => (h.other w hwv i hi).trans (hs.fresh w (not_lt.mp hwn) i hi)
  · intro w hw i hi
    rw [h.n] at hw
    rw [h.other w (by omega) i hi]
    exact hs.fresh w (by omega) i hi
  · intro u hpos hu
    rw [h.n] at hu
    by_cases hun : u < s.n
    · obtain ⟨p, hp, i, hi, hchild⟩ := hs.parent u hpos hun
      have hne : p ≠ v := by
        rintro rfl
        rw [hs.childless h.leaf.2 i hi] at hchild
        exact refEmpty_ne_natCast _ hchild
      exact ⟨p, hp, i, hi, (h.other p hne i hi).trans hchild⟩
    · refine ⟨v, by omega, u - s.n, by omega, ?_⟩
      rw [h.child _ (by omega)]
      congr 1
      omega
  · -- the new rows are numbers from `n` on, the old ones are below
    have hold : ∀ w, w ≠ v → ∀ i < 8, s'.children w i ≠ refEmpty →
        w < s.n ∧ ∃ u < s.n, s.children w i = (u : Nat) := by
      intro w hw i hi hne
      rw [h.other w hw i hi] at hne
      have hinner : ¬ s.LeafNode w := fun hleaf => hne (hs.childless hleaf i hi)
      obtain ⟨hwn, base, _, hle, hbase⟩ := hs.inner hinner
      exact ⟨hwn, base + i, by omega, hbase i hi⟩
    intro w x hw hx i hi j hj heq hne
    by_cases hwv : w = v <;> by_cases hxv : x = v
    · subst hwv hxv
      rw [h.child i hi, h.child j hj] at heq
      exact ⟨rfl, by omega⟩
    · subst hwv
      rw [heq] at hne
      obtain ⟨_, u, hu, hchild⟩ := hold x hxv j hj hne
      rw [h.child i hi, h.other x hxv j hj, hchild] at heq
      omega
    · subst hxv
      obtain ⟨_, u, hu, hchild⟩ := hold w hwv i hi hne
      rw [h.child j hj, h.other w hwv i hi, hchild] at heq
      omega
    · obtain ⟨hwn, _⟩ := hold w hwv i hi hne
      obtain ⟨hxn, _⟩ := hold x hxv j hj (heq ▸ hne)
      rw [h.other w hwv i hi, h.other x hxv j hj] at heq
      rw [h.other w hwv i hi] at hne
      exact hs.once w x hwn hxn i hi j hj heq hne

theorem at_of_at (h : SplitOf s s' v) {w : Nat} {d : Cube} (hat : s.At w d) : s'.At w d := by
  induction hat with
  | root => exact .root
  | @child p e i hp hinner hi ih =>
      have hne : p ≠ v := fun heq => hinner (heq ▸ h.leaf.2)
      have hstep := At.child ih (fun hleaf => hinner (h.leafNode_iff.mp hleaf).2) hi
      rwa [h.other p hne i hi] at hstep

/-- The rows after a split are those before and the new children. -/
theorem at_iff (h : SplitOf s s' v) (hs : s.OctInv) {c : Cube} (hc : s.At v c) {w : Nat}
    {d : Cube} : s'.At w d ↔ s.At w d ∨ ∃ i < 8, w = s.n + i ∧ d = c.child (octant i) := by
  constructor
  · intro hat
    induction hat with
    | root => exact Or.inl .root
    | @child p e i hp hinner hi ih =>
        rcases ih with hat | ⟨j, hj, rfl, rfl⟩
        · by_cases hpv : p = v
          · subst hpv
            rw [h.child i hi, Int.toNat_natCast, hat.cube_unique hs hc]
            exact Or.inr ⟨i, hi, rfl, rfl⟩
          · rw [h.other p hpv i hi]
            exact Or.inl (.child hat (fun hleaf => hinner (h.leafNode_iff.mpr ⟨hpv, hleaf⟩)) hi)
        · have hv := h.leaf.1
          refine absurd (h.leafNode_iff.mpr ⟨by omega, ?_⟩) hinner
          exact hs.fresh _ (Nat.le_add_right _ _) 0 (by decide)
  · rintro (hat | ⟨i, hi, rfl, rfl⟩)
    · exact h.at_of_at hat
    · have hinner : ¬ s'.LeafNode v := fun hleaf => (h.leafNode_iff.mp hleaf).1 rfl
      have hstep := At.child (h.at_of_at hc) hinner hi
      rwa [h.child i hi, Int.toNat_natCast] at hstep

/-- **A split cuts one cube more.** -/
theorem cut_eq (h : SplitOf s s' v) (hs : s.OctInv) {c : Cube} (hc : s.At v c) :
    s'.cut = insert c s.cut := by
  ext d
  constructor
  · rintro ⟨w, hat, hinner⟩
    rcases (h.at_iff hs hc).mp hat with hat | ⟨i, hi, rfl, rfl⟩
    · by_cases hwv : w = v
      · subst hwv
        exact Or.inl (hat.cube_unique hs hc)
      · exact Or.inr ⟨w, hat, fun hleaf => hinner (h.leafNode_iff.mpr ⟨hwv, hleaf⟩)⟩
    · have hv := h.leaf.1
      refine absurd (h.leafNode_iff.mpr ⟨by omega, ?_⟩) hinner
      exact hs.fresh _ (Nat.le_add_right _ _) 0 (by decide)
  · rintro (rfl | ⟨w, hat, hinner⟩)
    · exact ⟨v, h.at_of_at hc, fun hleaf => (h.leafNode_iff.mp hleaf).1 rfl⟩
    · exact ⟨w, h.at_of_at hat, fun hleaf => hinner (h.leafNode_iff.mp hleaf).2⟩

end SplitOf

theorem create_inv [Field K] : (create : RefOct K).OctInv where
  pos := Nat.one_pos
  le_max := show 1 ≤ 100 * 1024 by decide
  size := show 100 * 1024 ∈ tableSizes by decide
  row := fun _ _ => Or.inl fun _ _ => rfl
  fresh := fun _ _ _ _ => rfl
  parent := fun u hpos hu => absurd hu (by show ¬ u < 1; omega)
  once := fun _ _ _ _ _ _ _ _ _ hne => absurd rfl hne

end RefOct

end RefineMesh
