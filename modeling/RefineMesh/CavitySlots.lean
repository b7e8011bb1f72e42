import Mathlib.Tactic
import RefineMesh.Cavity

/-!
# The rows of a cavity

The faces and the segments of a cavity live in slot arrays with a blank list.
Adding a row makes one blank slot live, destroying one makes a live slot blank,
and no other row changes.
-/

namespace RefineMesh

open SlotList

namespace CavityRows

/-- The blank list has the slots without a row, `n` counts the others, and the
array can be indexed by `REF_INT`. -/
structure RowsInv (s : CavityRows) : Prop where
  blank : FreeList plainLink refEmpty (fun slot => s.entry slot 1) s.blank
    (fun slot => slot < s.max ∧ ¬ s.Live slot)
  count : liveCount s.max s.Live = s.n
  fits : 3 * s.max ≤ refIntMax

/-- The rows as a multiset. -/
def rows (s : CavityRows) : Multiset (Int × Int × Int) := s.valid.map s.row

variable {s s' : CavityRows}

theorem mem_valid {slot : Nat} : slot ∈ s.valid ↔ s.Live slot := by
  rw [valid, List.mem_filter, List.mem_range, decide_eq_true_eq]
  exact ⟨fun h => h.2, fun h => ⟨h.1, h⟩⟩

theorem nodup_valid (s : CavityRows) : s.valid.Nodup := List.nodup_range.filter _

theorem mem_rows {f : Int × Int × Int} : f ∈ s.rows ↔ ∃ slot, s.Live slot ∧ s.row slot = f := by
  simp [rows, mem_valid]

/-- The count is the number of rows. -/
theorem RowsInv.card_rows (h : s.RowsInv) : s.rows.card = s.n := by
  rw [← h.count, rows, Multiset.coe_card, List.length_map, liveCount,
    ← List.toFinset_card_of_nodup s.nodup_valid]
  congr 1
  ext slot
  simp only [List.mem_toFinset, mem_valid, Finset.mem_filter, Finset.mem_range]
  exact ⟨fun hl => ⟨hl.1, hl⟩, fun hl => hl.2⟩

/-- An array with one row more. -/
theorem rows_insert {slot : Nat} (hdead : ¬ s.Live slot)
    (hlive : ∀ k, s'.Live k ↔ s.Live k ∨ k = slot) (hrows : ∀ k, s.Live k → s'.row k = s.row k) :
    s'.rows = s'.row slot ::ₘ s.rows := by
  have hperm : s'.valid.Perm (slot :: s.valid) := by
    apply (List.perm_ext_iff_of_nodup s'.nodup_valid ?_).mpr
    · intro k
      rw [mem_valid, hlive k, List.mem_cons, mem_valid, or_comm]
    · exact List.nodup_cons.mpr ⟨fun hs => hdead (mem_valid.mp hs), s.nodup_valid⟩
  have hmap : s.valid.map s'.row = s.valid.map s.row := by
    apply List.map_congr_left
    intro k hk
    exact hrows k (mem_valid.mp hk)
  rw [rows, rows, Multiset.cons_coe, ← hmap]
  exact Multiset.coe_eq_coe.mpr (hperm.map _)

/-! ## Creation -/

theorem create_dead (slot : Nat) : ¬ create.Live slot := by
  intro hlive
  have hrow : RefCell.linkRows 0 10 (fun _ _ => 0) slot 0 ≠ refEmpty := hlive.2
  exact (RefCell.linkRows_live_iff.mp hrow).1 ⟨Nat.zero_le slot, hlive.1⟩

theorem create_inv : create.RowsInv := by
  refine ⟨?_, ?_, by decide⟩
  · refine (freeList_linkFresh plainLink refEmpty (fun _ => 0) (show 0 < 10 by omega)).congr
      (fun slot => ?_) (fun slot _ => rfl)
    have hdead := create_dead slot
    change slot < 10 ∧ _ ↔ _
    simp [hdead]
  · simp only [liveCount, create_dead, Finset.filter_false, Finset.card_empty]
    rfl

theorem rows_create : create.rows = 0 := by
  apply Multiset.eq_zero_of_forall_notMem
  intro f hf
  obtain ⟨slot, hlive, -⟩ := mem_rows.mp hf
  exact create_dead slot hlive

/-! ## Growth -/

/-- Growing adds blank slots and changes no row. -/
theorem grow_spec (h : s.RowsInv) (hrun : s.grow = .ok s') :
    s'.RowsInv ∧ s'.blank ≠ refEmpty ∧ (∀ slot, s'.Live slot ↔ s.Live slot) ∧
      (∀ slot, s.Live slot → s'.entry slot = s.entry slot) ∧ s'.n = s.n := by
  by_cases hblank : s.blank = refEmpty
  swap
  · simp only [grow, hblank, ne_eq, not_false_iff, if_true, Except.ok.injEq] at hrun
    subst hrun
    exact ⟨h, hblank, fun _ => Iff.rfl, fun _ _ => rfl, rfl⟩
  simp only [grow, hblank, ne_eq, not_true, if_false] at hrun
  set size := s.max + Nat.max 100 (3 * s.max / 2) with hsize
  by_cases hover : refIntMax < 3 * size
  · simp [hover] at hrun
  simp only [hover, if_false, Except.ok.injEq] at hrun
  have hlt : s.max < size := by
    have : 100 ≤ Nat.max 100 (3 * s.max / 2) := Nat.le_max_left _ _
    omega
  -- with the blank list exhausted every slot has a row
  have hfull : ∀ slot, slot < s.max → s.Live slot := by
    intro slot hslot
    by_contra hdead
    exact (h.blank.eq_stop_iff plainLink_ne_refEmpty).mp hblank slot ⟨hslot, hdead⟩
  have hold : ∀ slot, slot < s.max → s'.entry slot = s.entry slot := by
    intro slot hslot
    rw [← hrun]
    exact RefCell.linkRows_old s.entry hlt hslot
  have hmax : s'.max = size := by rw [← hrun]
  have hlive : ∀ slot, s'.Live slot ↔ s.Live slot := by
    intro slot
    by_cases hslot : slot < s.max
    · unfold Live
      rw [hold slot hslot, hmax]
      exact ⟨fun hl => ⟨hslot, hl.2⟩, fun hl => ⟨hslot.trans hlt, hl.2⟩⟩
    · constructor
      · intro hl
        have hrow := hl.2
        have hbound := hl.1
        rw [hmax] at hbound
        rw [← hrun] at hrow
        exact absurd ⟨by omega, hbound⟩ (RefCell.linkRows_live_iff.mp hrow).1
      · intro hl
        exact absurd hl.1 hslot
  have hn : s'.n = s.n := by rw [← hrun]
  refine ⟨⟨?_, ?_, ?_⟩, ?_, hlive, fun slot hl => hold slot hl.1, hn⟩
  · have hseg := freeList_linkFresh plainLink refEmpty (fun slot => s.entry slot 1) hlt
    have hb : s'.blank = plainLink s.max := by rw [← hrun]; rfl
    rw [hb, hmax]
    refine hseg.congr (fun slot => ?_) (fun slot _ => by rw [← hrun]; rfl)
    rw [hlive slot]
    constructor
    · intro hslot
      exact ⟨by by_contra hlt'; exact hslot.2 (hfull slot (by omega)), hslot.1⟩
    · intro hslot
      exact ⟨hslot.2, fun hl => absurd hl.1 (by omega)⟩
  · rw [hn, ← h.count]
    refine liveCount_congr fun slot => ?_
    rw [hlive slot]
    exact ⟨fun hl => ⟨hl.2.1, hl.2⟩, fun hl => ⟨((hlive slot).mpr hl.2).1, hl.2⟩⟩
  · rw [hmax]
    omega
  · rw [← hrun]
    exact natCast_ne_refEmpty _

/-! ## Adding and destroying -/

/-- A new row is in the array, once more than before. -/
theorem add_spec {nodes : Nat → Int} (h : s.RowsInv) (hnode : nodes 0 ≠ refEmpty)
    (hrun : s.add nodes = .ok s') :
    s'.RowsInv ∧ s'.rows = (nodes 0, nodes 1, nodes 2) ::ₘ s.rows := by
  simp only [add, bind_eq_ok, Except.ok.injEq] at hrun
  obtain ⟨s1, hgrow, hs'⟩ := hrun
  obtain ⟨h1, hblank, hlive1, hold1, hn1⟩ := grow_spec h hgrow
  obtain ⟨slot, hslot, hfree, hrest⟩ := h1.blank.pop hblank
  rw [hslot, toNat_plainLink] at hs'
  have hself : s'.entry slot = fun node => if node < 3 then nodes node else s1.entry slot node := by
    rw [← hs']
    exact Function.update_self _ _ _
  have hother : ∀ k, k ≠ slot → s'.entry k = s1.entry k := by
    intro k hk
    rw [← hs']
    exact Function.update_of_ne hk _ _
  have hmax : s'.max = s1.max := by rw [← hs']
  have hlive : ∀ k, s'.Live k ↔ s1.Live k ∨ k = slot := by
    intro k
    unfold Live
    by_cases hk : k = slot
    · subst hk
      simp [hself, hmax, hfree.1, hnode]
    · simp [hother k hk, hmax, hk]
  have hn : s'.n = s1.n + 1 := by rw [← hs']
  refine ⟨⟨?_, ?_, hmax ▸ h1.fits⟩, ?_⟩
  · have hb : s'.blank = s1.entry slot 1 := by rw [← hs']
    rw [hb]
    refine hrest.congr (fun k => ?_) (fun k hk => by rw [hother k hk.2])
    rw [hmax, hlive k]
    tauto
  · rw [hn, ← h1.count, hmax]
    exact liveCount_insert hfree.1 hfree.2 hlive
  · have hrows : s'.rows = s'.row slot ::ₘ s.rows := by
      apply rows_insert (fun hl => hfree.2 ((hlive1 slot).mpr hl))
      · intro k
        rw [hlive k, hlive1 k]
      · intro k hk
        have hne : k ≠ slot := fun e => hfree.2 ((hlive1 slot).mpr (e ▸ hk))
        simp only [row, hother k hne, hold1 k hk]
    rw [hrows, row, hself]
    rfl

/-- A destroyed row is no longer in the array. -/
theorem erase_spec {slot : Nat} (h : s.RowsInv) (hlive : s.Live slot) :
    (s.erase slot).RowsInv ∧ s.rows = s.row slot ::ₘ (s.erase slot).rows := by
  have hself : (s.erase slot).entry slot = fun node =>
      if node = 0 then refEmpty else if node = 1 then s.blank else s.entry slot node :=
    Function.update_self _ _ _
  have hother : ∀ k, k ≠ slot → (s.erase slot).entry k = s.entry k := fun k hk =>
    Function.update_of_ne hk _ _
  have hlv : ∀ k, (s.erase slot).Live k ↔ s.Live k ∧ k ≠ slot := by
    intro k
    unfold Live
    by_cases hk : k = slot
    · subst hk
      simp [hself]
    · rw [hother k hk]
      exact ⟨fun hl => ⟨hl, hk⟩, fun hl => hl.1⟩
  have hcount : liveCount s.max s.Live = liveCount s.max (s.erase slot).Live + 1 :=
    liveCount_erase hlive.1 hlive hlv
  refine ⟨⟨?_, ?_, h.fits⟩, ?_⟩
  · have hpush := h.blank.push (fun hfree => hfree.2 hlive)
    refine hpush.congr (fun k => ?_) (fun k _ => ?_)
    · change k < s.max ∧ _ ↔ _
      rw [hlv k]
      by_cases hk : k = slot
      · simp [hk, hlive.1]
      · simp [hk]
    · by_cases hk : k = slot
      · subst hk
        rw [Function.update_self, hself]
        rfl
      · rw [Function.update_of_ne hk, hother k hk]
  · change liveCount s.max (s.erase slot).Live = s.n - 1
    rw [← h.count, hcount, Nat.add_sub_cancel]
  · apply rows_insert fun hl => ((hlv slot).mp hl).2 rfl
    · intro k
      rw [hlv k]
      constructor
      · intro hl
        by_cases hk : k = slot
        · exact Or.inr hk
        · exact Or.inl ⟨hl, hk⟩
      · rintro (hl | rfl)
        · exact hl.1
        · exact hlive
    · intro k hk
      simp only [row, hother k ((hlv k).mp hk).2]

end CavityRows

end RefineMesh
