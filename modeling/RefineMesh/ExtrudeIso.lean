import Mathlib.Tactic
import RefineMesh.GridParts
import RefineMesh.ExtrudeSlots

/-!
# Extrusion of isomorphic grids

Grids that differ in the slots of their nodes only.  Where the slots match, the
extruded grids differ in their slots only: the used nodes keep their places and
the unused ones have the same coordinates in some order.
-/

namespace RefineMesh

open Spmd

/-! ## Multisets with equal images -/

section Images

variable {α β κ ι : Type*}

/-- What equal images determine is equal. -/
theorem map_eq_map_of_images {s : Multiset α} {t : Multiset β} {f : α → κ} {g : β → κ}
    {F : α → ι} {G : β → ι} (h : s.map f = t.map g)
    (heq : ∀ a ∈ s, ∀ b ∈ t, f a = g b → F a = G b) : s.map F = t.map G := by
  have hrel : Multiset.Rel (fun a b => f a = g b) s t := by
    rw [← Multiset.rel_map, Multiset.rel_eq]
    exact h
  rw [← Multiset.rel_eq, Multiset.rel_map]
  exact hrel.mono heq

/-- Finite sets with equal images are matched by a function that keeps the
images. -/
theorem exists_bijOn_of_images [DecidableEq α] [DecidableEq β] [Inhabited β] {f : α → κ} {g : β → κ}
    {s : Finset α} {t : Finset β} (h : s.val.map f = t.val.map g) :
    ∃ m : α → β, Set.BijOn m s t ∧ ∀ a ∈ s, g (m a) = f a := by
  induction s using Finset.induction_on generalizing t with
  | empty =>
      have ht : t = ∅ := by
        rw [Finset.empty_val, Multiset.map_zero, eq_comm, Multiset.map_eq_zero] at h
        exact Finset.val_eq_zero.mp h
      rw [ht]
      exact ⟨fun _ => default, by simp, by simp⟩
  | insert a s ha ih =>
      rw [Finset.insert_val_of_notMem ha, Multiset.map_cons] at h
      have hmem : f a ∈ t.val.map g := by
        rw [← h]
        exact Multiset.mem_cons_self _ _
      obtain ⟨b, hb, hba⟩ := Multiset.mem_map.mp hmem
      have hb' : b ∈ t := hb
      have hrest : s.val.map f = (t.erase b).val.map g := by
        rw [← Finset.insert_erase hb', Finset.insert_val_of_notMem (Finset.notMem_erase b t),
          Multiset.map_cons, hba] at h
        exact (Multiset.cons_inj_right _).mp h
      obtain ⟨m, hm, hkeep⟩ := ih hrest
      have hother : ∀ x ∈ s, Function.update m a b x = m x := by
        intro x hx
        exact Function.update_of_ne (fun heq : x = a => ha (heq ▸ hx)) _ _
      refine ⟨Function.update m a b, ?_, ?_⟩
      · rw [Finset.coe_insert, ← Finset.insert_erase hb', Finset.coe_insert]
        have hbij : Set.BijOn (Function.update m a b) s (t.erase b) :=
          hm.congr fun x hx => (hother x hx).symm
        have hinsert := hbij.insert (a := a) (by
          rw [Function.update_self]
          simp)
        rw [Function.update_self] at hinsert
        exact hinsert
      · intro x hx
        rcases Finset.mem_insert.mp hx with rfl | hx
        · rw [Function.update_self, hba]
        · rw [hother x hx]
          exact hkeep x hx

/-- A match of a part can be completed. -/
theorem exists_bijOn_extending [DecidableEq α] [DecidableEq β] [Inhabited β] {f : α → κ} {g : β → κ}
    {s u : Finset α} {t w : Finset β} (h : s.val.map f = t.val.map g) (hu : u ⊆ s) (hw : w ⊆ t)
    {m : α → β} (hm : Set.BijOn m u w) (hkeep : ∀ a ∈ u, g (m a) = f a) :
    ∃ m' : α → β, Set.BijOn m' s t ∧ (∀ a ∈ u, m' a = m a) ∧ ∀ a ∈ s, g (m' a) = f a := by
  have hpart : u.val.map f = w.val.map g := by
    have himage : w = u.image m := by
      rw [← Finset.coe_inj, Finset.coe_image, hm.image_eq]
    rw [himage, Finset.image_val_of_injOn hm.injOn, Multiset.map_map]
    exact Multiset.map_congr rfl fun a ha => (hkeep a ha).symm
  have hrest : (s \ u).val.map f = (t \ w).val.map g := by
    have hs : u.val + (s \ u).val = s.val := by
      rw [Finset.sdiff_val, add_tsub_cancel_of_le (Finset.val_le_iff.mpr hu)]
    have ht : w.val + (t \ w).val = t.val := by
      rw [Finset.sdiff_val, add_tsub_cancel_of_le (Finset.val_le_iff.mpr hw)]
    rw [← hs, ← ht, Multiset.map_add, Multiset.map_add, hpart] at h
    exact add_left_cancel h
  obtain ⟨rest, hbij, hrestKeep⟩ := exists_bijOn_of_images hrest
  have hin {a : α} (ha : a ∈ u) : (if a ∈ u then m a else rest a) = m a := if_pos ha
  have hout {a : α} (ha : a ∉ u) : (if a ∈ u then m a else rest a) = rest a := if_neg ha
  refine ⟨fun a => if a ∈ u then m a else rest a, ?_, fun a ha => hin ha, fun a ha => ?_⟩
  · have h1 : Set.BijOn (fun a => if a ∈ u then m a else rest a) u w :=
      hm.congr fun a ha => (hin ha).symm
    have h2 : Set.BijOn (fun a => if a ∈ u then m a else rest a) (s \ u : Finset α)
        (t \ w : Finset β) :=
      hbij.congr fun a ha => (hout (Finset.mem_sdiff.mp ha).2).symm
    have hunion := h1.union h2 (by
      rw [Set.injOn_union]
      · refine ⟨h1.injOn, h2.injOn, fun a ha b hb heq => ?_⟩
        have hnot := (Finset.mem_sdiff.mp (h2.mapsTo hb)).2
        rw [← heq] at hnot
        exact hnot (h1.mapsTo ha)
      · rw [Finset.disjoint_coe]
        exact Finset.disjoint_sdiff)
    rw [← Finset.coe_union, ← Finset.coe_union, Finset.union_sdiff_of_subset hu,
      Finset.union_sdiff_of_subset hw] at hunion
    exact hunion
  · by_cases hau : a ∈ u
    · simp only [hin hau]
      exact hkeep a hau
    · simp only [hout hau]
      exact hrestKeep a (Finset.mem_sdiff.mpr ⟨ha, hau⟩)

end Images

variable {D : Type}

/-! ## Renamed grids -/

/-- A row with its nodes renamed. -/
def renameRow (t : CellType) (f : Nat → Nat) (row : List Int) : List Int :=
  (row.take t.nodePer).map (fun x => (f x.toNat : Int)) ++ row.drop t.nodePer

/-- Two grids that differ in the slots of their nodes. -/
structure RenamedBy (f : Nat → Nat) (g h : RefGrid D) : Prop where
  bij : Set.BijOn f {v | g.node.Live v} {v | h.node.Live v}
  coords : ∀ v, g.node.Live v → ∀ i, i < 3 → h.node.real (f v) i = g.node.real v i
  cells : ∀ t, (h.cell t).cells = (g.cell t).cells.map (renameRow t f)

/-- Isomorphic grids. -/
def Isomorphic (g h : RefGrid D) : Prop := ∃ f, RenamedBy f g h

section Renamed

variable {f : Nat → Nat} {g h : RefGrid D}

/-- The cells of the second grid are those of the first, renamed. -/
theorem RenamedBy.rows (hf : RenamedBy f g h) (t : CellType) :
    ((h.cell t).validCells : Multiset Nat).map (h.cell t).cellRow =
      ((g.cell t).validCells : Multiset Nat).map fun c => renameRow t f ((g.cell t).cellRow c) := by
  have hcells := hf.cells t
  rw [RefCell.cells, RefCell.cells, Multiset.map_coe, List.map_map] at hcells
  rw [Multiset.map_coe, Multiset.map_coe]
  exact hcells

theorem RenamedBy.exists_live (hf : RenamedBy f g h) {t : CellType} {c : Nat}
    (hc : (g.cell t).Live c) : ∃ c', (h.cell t).Live c' ∧
      (h.cell t).cellRow c' = renameRow t f ((g.cell t).cellRow c) := by
  have hmem : renameRow t f ((g.cell t).cellRow c) ∈ (h.cell t).cells := by
    rw [hf.cells]
    exact Multiset.mem_map_of_mem _ (RefCell.mem_cells.mpr ⟨c, hc, rfl⟩)
  exact RefCell.mem_cells.mp hmem

theorem RenamedBy.exists_source (hf : RenamedBy f g h) {t : CellType} {c' : Nat}
    (hc : (h.cell t).Live c') : ∃ c, (g.cell t).Live c ∧
      (h.cell t).cellRow c' = renameRow t f ((g.cell t).cellRow c) := by
  have hmem := RefCell.mem_cells.mpr ⟨c', hc, rfl⟩
  rw [hf.cells, Multiset.mem_map] at hmem
  obtain ⟨row, hrow, heq⟩ := hmem
  obtain ⟨c, hlive, rfl⟩ := RefCell.mem_cells.mp hrow
  exact ⟨c, hlive, heq.symm⟩

/-- The nodes and the rest of a renamed row. -/
theorem renamed_entries {t : CellType} (hg : (g.cell t).cellType = t)
    (hh : (h.cell t).cellType = t) {c c' : Nat}
    (hrow : (h.cell t).cellRow c' = renameRow t f ((g.cell t).cellRow c)) :
    (∀ i, i < t.nodePer → (h.cell t).c2n c' i = f ((g.cell t).c2n c i).toNat) ∧
      ∀ i, t.nodePer ≤ i → i < t.sizePer → (h.cell t).c2n c' i = (g.cell t).c2n c i := by
  have hentry {i : Nat} (hi : i < t.sizePer) :
      some ((h.cell t).c2n c' i) = (renameRow t f ((g.cell t).cellRow c))[i]? := by
    rw [← hrow, RefCell.cellRow, RefCell.sizePer, hh, List.getElem?_map, List.getElem?_range hi]
    rfl
  have hsource {i : Nat} (hi : i < t.sizePer) :
      ((g.cell t).cellRow c)[i]? = some ((g.cell t).c2n c i) := by
    rw [RefCell.cellRow, RefCell.sizePer, hg, List.getElem?_map, List.getElem?_range hi]
    rfl
  have hlength : ((g.cell t).cellRow c).length = t.sizePer := by
    rw [RefCell.length_cellRow, RefCell.sizePer, hg]
  have hper := t.nodePer_le_sizePer
  constructor
  · intro i hi
    have h := hentry (lt_of_lt_of_le hi hper)
    rw [renameRow, List.getElem?_append_left (by simp [hlength]; omega), List.getElem?_map,
      List.getElem?_take_of_lt hi, hsource (lt_of_lt_of_le hi hper)] at h
    exact Option.some.inj h
  · intro i hle hi
    have h := hentry hi
    rw [renameRow, List.getElem?_append_right (by simp [hlength]; omega), List.getElem?_drop] at h
    simp only [List.length_map, List.length_take, hlength, Nat.min_eq_left hper] at h
    rw [show t.nodePer + (i - t.nodePer) = i by omega, hsource hi] at h
    exact Option.some.inj h

/-! ## Used nodes -/

theorem RenamedBy.uses_of_uses (hf : RenamedBy f g h) (hg : g.CellsInv) (hh : h.CellsInv) {v : Nat}
    (hv : TwodUses g v) : TwodUses h (f v) := by
  obtain ⟨t, ht, c, hc, hmem⟩ := hv
  obtain ⟨c', hc', hrow⟩ := hf.exists_live hc
  obtain ⟨i, hi, heq⟩ := RefCell.mem_nodeList.mp hmem
  have hrename := (renamed_entries (hg.type t) (hh.type t) hrow).1 i (by
    rw [RefCell.nodePer, hg.type] at hi
    exact hi)
  refine ⟨t, ht, c', hc', RefCell.mem_nodeList.mpr ⟨i, ?_, ?_⟩⟩
  · rw [RefCell.nodePer, hh.type, ← hg.type t]
    exact hi
  · rw [hrename, heq]
    rfl

theorem RenamedBy.exists_used (hf : RenamedBy f g h) (hg : SlotGrid g) (hh : h.CellsInv) {v' : Nat}
    (hv : TwodUses h v') : ∃ v, TwodUses g v ∧ f v = v' := by
  obtain ⟨t, ht, c', hc', hmem⟩ := hv
  obtain ⟨c, hc, hrow⟩ := hf.exists_source hc'
  obtain ⟨i, hi, heq⟩ := RefCell.mem_nodeList.mp hmem
  rw [RefCell.nodePer, hh.type] at hi
  have hrename := (renamed_entries (hg.cell.type t) (hh.type t) hrow).1 i hi
  have hcorner : (g.cell t).c2n c i ∈ (g.cell t).nodeList c := by
    apply RefCell.c2n_mem_nodeList
    rw [RefCell.nodePer, hg.cell.type]
    exact hi
  have hpos := (hg.corners t c hc _ hcorner).1
  refine ⟨((g.cell t).c2n c i).toNat, ⟨t, ht, c, hc, ?_⟩, ?_⟩
  · rw [Int.toNat_of_nonneg hpos]
    exact hcorner
  · rw [hrename] at heq
    exact Nat.cast_inj.mp heq

theorem SlotGrid.live_of_uses (hg : SlotGrid g) {v : Nat} (hv : TwodUses g v) : g.node.Live v := by
  obtain ⟨t, -, c, hc, hmem⟩ := hv
  simpa using (hg.corners t c hc v hmem).2

/-! ## Places of the nodes -/

/-- The 2D coordinates of a node. -/
def planeCoords (s : RefNode D) (v : Nat) : D × D := (s.real v 0, s.real v 1)

/-- The 2D coordinates of the node with the given number. -/
def numberedCoords (s : RefNode D) (j : Nat) : D × D := planeCoords s (s.validNodes.getD j 0)

theorem map_numberedCoords {s : RefNode D} (hinv : s.SlotInv) :
    (Finset.range s.n).val.map (numberedCoords s) =
      ((s.validNodes : Multiset Nat)).map (planeCoords s) := by
  rw [Finset.range_val, Multiset.range, Multiset.map_coe, Multiset.map_coe]
  congr 1
  apply List.ext_getElem
  · simp [hinv.length_validNodes]
  · intro i h1 h2
    have hi : i < s.validNodes.length := by simpa using h2
    simp [numberedCoords, List.getD_eq_getElem?_getD, hi]

/-- The valid nodes of the second grid are those of the first, renamed. -/
theorem RenamedBy.validNodes (hf : RenamedBy f g h) :
    (h.node.validNodes : Multiset Nat) = (g.node.validNodes : Multiset Nat).map f := by
  rw [Multiset.map_coe, Multiset.coe_eq_coe]
  apply (List.perm_ext_iff_of_nodup h.node.nodup_validNodes _).mpr
  · intro v'
    rw [RefNode.mem_validNodes, List.mem_map]
    constructor
    · intro hlive
      obtain ⟨v, hv, heq⟩ := hf.bij.surjOn hlive
      exact ⟨v, RefNode.mem_validNodes.mpr hv, heq⟩
    · intro hv
      obtain ⟨v, hv, rfl⟩ := hv
      exact hf.bij.mapsTo (RefNode.mem_validNodes.mp hv)
  · apply List.Nodup.map_on _ g.node.nodup_validNodes
    intro x hx y hy heq
    exact hf.bij.injOn (RefNode.mem_validNodes.mp hx) (RefNode.mem_validNodes.mp hy) heq

theorem RenamedBy.n_eq (hf : RenamedBy f g h) (hg : SlotGrid g) (hh : SlotGrid h) :
    h.node.n = g.node.n := by
  have hcard := congrArg Multiset.card hf.validNodes
  rw [Multiset.card_map, Multiset.coe_card, Multiset.coe_card] at hcard
  rwa [hh.node.toSlotInv.length_validNodes, hg.node.toSlotInv.length_validNodes] at hcard

/-- Both grids have the same 2D coordinates. -/
theorem RenamedBy.coords_eq (hf : RenamedBy f g h) (hg : SlotGrid g) (hh : SlotGrid h) :
    (Finset.range g.node.n).val.map (numberedCoords g.node) =
      (Finset.range g.node.n).val.map (numberedCoords h.node) := by
  rw [map_numberedCoords hg.node.toSlotInv, ← hf.n_eq hg hh,
    map_numberedCoords hh.node.toSlotInv, hf.validNodes, Multiset.map_map]
  apply Multiset.map_congr rfl
  intro v hv
  have hlive : g.node.Live v := RefNode.mem_validNodes.mp hv
  simp [planeCoords, hf.coords v hlive]

theorem SlotsMatch.numbered (hg : SlotGrid g) (hmatch : SlotsMatch g) {v : Nat}
    (hv : TwodUses g v) : v < g.node.n ∧ numberedCoords g.node v = planeCoords g.node v := by
  obtain ⟨w, hw, hx, hy⟩ := hmatch v hv
  refine ⟨?_, ?_⟩
  · rw [← hg.node.toSlotInv.length_validNodes]
    exact (List.getElem?_eq_some_iff.mp hw).1
  · rw [numberedCoords, List.getD_eq_getElem?_getD, hw]
    exact Prod.ext hx hy

open Classical in
/-- The used slots of a grid. -/
noncomputable def usedSlots (g : RefGrid D) : Finset Nat :=
  (Finset.range g.node.n).filter fun v => TwodUses g v

/-- **The used slots keep their names and the others can be matched.** -/
theorem RenamedBy.exists_places (hf : RenamedBy f g h) (hg : SlotGrid g) (hh : SlotGrid h)
    (hmatch : SlotsMatch g) (hmatch' : SlotsMatch h) :
    ∃ place : Nat → Nat, Set.BijOn place {j | j < g.node.n} {j | j < g.node.n} ∧
      (∀ v, TwodUses g v → place v = f v) ∧
      ∀ j, j < g.node.n → numberedCoords h.node (place j) = numberedCoords g.node j := by
  classical
  have hn := hf.n_eq hg hh
  have hused (v : Nat) : v ∈ usedSlots g ↔ TwodUses g v := by
    simp only [usedSlots, Finset.mem_filter, Finset.mem_range]
    exact ⟨fun hv => hv.2, fun hv => ⟨(hmatch.numbered hg hv).1, hv⟩⟩
  have hused' (v : Nat) : v ∈ usedSlots h ↔ TwodUses h v := by
    simp only [usedSlots, Finset.mem_filter, Finset.mem_range]
    exact ⟨fun hv => hv.2, fun hv => ⟨(hmatch'.numbered hh hv).1, hv⟩⟩
  have hkeep : ∀ v ∈ usedSlots g,
      numberedCoords h.node (f v) = numberedCoords g.node v := by
    intro v hv
    rw [hused] at hv
    have hlive := hg.live_of_uses hv
    rw [(hmatch.numbered hg hv).2,
      (hmatch'.numbered hh (hf.uses_of_uses hg.cell hh.cell hv)).2]
    simp [planeCoords, hf.coords v hlive]
  have hbij : Set.BijOn f (usedSlots g) (usedSlots h) := by
    refine ⟨fun v hv => ?_, fun x hx y hy heq => ?_, fun v' hv => ?_⟩
    · exact (hused' _).mpr (hf.uses_of_uses hg.cell hh.cell ((hused v).mp hv))
    · exact hf.bij.injOn (hg.live_of_uses ((hused x).mp hx)) (hg.live_of_uses ((hused y).mp hy)) heq
    · obtain ⟨v, hv, heq⟩ := hf.exists_used hg hh.cell ((hused' v').mp hv)
      exact ⟨v, (hused v).mpr hv, heq⟩
  have hsub : usedSlots g ⊆ Finset.range g.node.n := Finset.filter_subset _ _
  have hsub' : usedSlots h ⊆ Finset.range g.node.n := by
    rw [← hn]
    exact Finset.filter_subset _ _
  obtain ⟨place, hplace, hextends, hcoords⟩ :=
    exists_bijOn_extending (hf.coords_eq hg hh) hsub hsub' hbij hkeep
  have hrange : ((Finset.range g.node.n : Finset Nat) : Set Nat) = {j | j < g.node.n} := by
    ext j
    simp
  rw [hrange] at hplace
  exact ⟨place, hplace, fun v hv => hextends v ((hused v).mpr hv),
    fun j hj => hcoords j (Finset.mem_range.mpr hj)⟩

/-! ## Renamed edges -/

/-- A used node and its new name. -/
def NamesTo (f : Nat → Nat) (g : RefGrid D) (x x' : Int) : Prop :=
  ∃ v, TwodUses g v ∧ x = v ∧ x' = f v

theorem RenamedBy.namesTo_inj (hf : RenamedBy f g h) (hg : SlotGrid g) {x y x' y' : Int}
    (hx : NamesTo f g x x') (hy : NamesTo f g y y') : x = y ↔ x' = y' := by
  obtain ⟨v, hv, rfl, rfl⟩ := hx
  obtain ⟨w, hw, rfl, rfl⟩ := hy
  rw [Nat.cast_inj, Nat.cast_inj]
  constructor
  · intro heq
    rw [heq]
  · exact fun heq => hf.bij.injOn (hg.live_of_uses hv) (hg.live_of_uses hw) heq

/-- The corners of a renamed cell. -/
theorem RenamedBy.namesTo_corner (hg : SlotGrid g) (hh : h.CellsInv) {t : CellType}
    (ht : t ∈ [CellType.tri, CellType.qua, CellType.edg]) {c c' : Nat} (hc : (g.cell t).Live c)
    (hrow : (h.cell t).cellRow c' = renameRow t f ((g.cell t).cellRow c)) {i : Nat}
    (hi : i < t.nodePer) : NamesTo f g ((g.cell t).c2n c i) ((h.cell t).c2n c' i) := by
  have hmem : (g.cell t).c2n c i ∈ (g.cell t).nodeList c := by
    apply RefCell.c2n_mem_nodeList
    rw [RefCell.nodePer, hg.cell.type]
    exact hi
  have hpos := (hg.corners t c hc _ hmem).1
  refine ⟨((g.cell t).c2n c i).toNat, ⟨t, ht, c, hc, ?_⟩, (Int.toNat_of_nonneg hpos).symm,
    (renamed_entries (hg.cell.type t) (hh.type t) hrow).1 i hi⟩
  rw [Int.toNat_of_nonneg hpos]
  exact hmem

/-- Two sides found in both grids, or none. -/
def FoundBoth (f : Nat → Nat) (g : RefGrid D) (found found' : Int × Int) : Prop :=
  (found.1 = refEmpty ∧ found'.1 = refEmpty) ∨
    (NamesTo f g found.1 found'.1 ∧ NamesTo f g found.2 found'.2)

theorem matchSide_eq (nodes sideNodes : Nat → Int) (found : Int × Int) (side : Nat × Nat)
    [Decidable (SameEnds nodes (sideNodes side.1) (sideNodes side.2))] :
    matchSide nodes sideNodes found side =
      if SameEnds nodes (sideNodes side.1) (sideNodes side.2) then
        (sideNodes side.1, sideNodes side.2) else found := by
  have hiff : (min (nodes 0) (nodes 1) = min (sideNodes side.1) (sideNodes side.2) ∧
      max (nodes 0) (nodes 1) = max (sideNodes side.1) (sideNodes side.2)) ↔
      SameEnds nodes (sideNodes side.1) (sideNodes side.2) := by
    unfold SameEnds
    omega
  unfold matchSide
  by_cases hends : SameEnds nodes (sideNodes side.1) (sideNodes side.2)
  · rw [if_pos (hiff.mpr hends), if_pos hends]
  · rw [if_neg (mt hiff.mp hends), if_neg hends]

/-- The loop over the sides finds the renamed side. -/
theorem RenamedBy.foldl_matchSide (hf : RenamedBy f g h) (hg : SlotGrid g)
    {nodes nodes' sideNodes sideNodes' : Nat → Int} (h0 : NamesTo f g (nodes 0) (nodes' 0))
    (h1 : NamesTo f g (nodes 1) (nodes' 1)) {sides : List (Nat × Nat)}
    (hsides : ∀ side ∈ sides, NamesTo f g (sideNodes side.1) (sideNodes' side.1) ∧
      NamesTo f g (sideNodes side.2) (sideNodes' side.2)) {found found' : Int × Int}
    (hfound : FoundBoth f g found found') :
    FoundBoth f g (sides.foldl (matchSide nodes sideNodes) found)
      (sides.foldl (matchSide nodes' sideNodes') found') := by
  classical
  induction sides generalizing found found' with
  | nil => exact hfound
  | cons side sides ih =>
      obtain ⟨hfirst, hsecond⟩ := hsides side List.mem_cons_self
      rw [List.foldl_cons, List.foldl_cons]
      apply ih fun later hlater => hsides later (List.mem_cons_of_mem side hlater)
      have hends : SameEnds nodes (sideNodes side.1) (sideNodes side.2) ↔
          SameEnds nodes' (sideNodes' side.1) (sideNodes' side.2) := by
        unfold SameEnds
        rw [hf.namesTo_inj hg h0 hfirst, hf.namesTo_inj hg h1 hsecond,
          hf.namesTo_inj hg h0 hsecond, hf.namesTo_inj hg h1 hfirst]
      rw [matchSide_eq, matchSide_eq]
      by_cases hmatch : SameEnds nodes (sideNodes side.1) (sideNodes side.2)
      · rw [if_pos hmatch, if_pos (hends.mp hmatch)]
        exact .inr ⟨hfirst, hsecond⟩
      · rw [if_neg hmatch, if_neg (mt hends.mpr hmatch)]
        exact hfound

/-- **An edge gets the same direction in both grids.** -/
theorem RenamedBy.orientEdg (hf : RenamedBy f g h) (hg : SlotGrid g) (hh : h.CellsInv)
    {nodes nodes' out out' : Nat → Int} (h0 : NamesTo f g (nodes 0) (nodes' 0))
    (h1 : NamesTo f g (nodes 1) (nodes' 1)) (hrun : g.orientEdg nodes = .ok out)
    (hrun' : h.orientEdg nodes' = .ok out') :
    NamesTo f g (out 0) (out' 0) ∧ NamesTo f g (out 1) (out' 1) ∧
      out 2 = nodes 2 ∧ out' 2 = nodes' 2 := by
  obtain ⟨b, other, d, hpair, hcell⟩ := orientEdg_cases hrun
  obtain ⟨b', other', d', hpair', hcell'⟩ := orientEdg_cases hrun'
  have hb' : b' ∈ [CellType.tri, CellType.qua, CellType.edg] := by
    rcases hpair' with ⟨rfl, -⟩ | ⟨rfl, -⟩
    · decide
    · decide
  -- the cell in the second grid is the renamed cell of the first
  obtain ⟨c, hc, hrow⟩ := hf.exists_source hcell'.live
  have hcorner {i : Nat} (hi : i < b'.nodePer) :=
    RenamedBy.namesTo_corner hg hh hb' hc hrow hi
  have hmem' : d' ∈ (h.cell b').having2 (nodes' 0) (nodes' 1) := by
    rw [hcell'.cells]
    exact List.mem_singleton_self d'
  obtain ⟨-, hend0, hend1⟩ := (hh.inv b').mem_having2.mp hmem'
  have hback {x x' : Int} (hx : NamesTo f g x x') (hx' : x' ∈ (h.cell b').nodeList d') :
      x ∈ (g.cell b').nodeList c := by
    obtain ⟨i, hi, heq⟩ := RefCell.mem_nodeList.mp hx'
    rw [RefCell.nodePer, hh.type] at hi
    have hsame := (hf.namesTo_inj hg (hcorner hi) hx).mpr heq
    rw [← hsame]
    apply RefCell.c2n_mem_nodeList
    rw [RefCell.nodePer, hg.cell.type]
    exact hi
  have hmem : c ∈ (g.cell b').having2 (nodes 0) (nodes 1) :=
    (hg.cell.inv b').mem_having2.mpr ⟨hc, hback h0 hend0, hback h1 hend1⟩
  have htype : b' = b ∨ b' = other := by
    rcases hpair with ⟨rfl, rfl⟩ | ⟨rfl, rfl⟩
    · rcases hpair' with ⟨rfl, -⟩ | ⟨rfl, -⟩
      · exact .inl rfl
      · exact .inr rfl
    · rcases hpair' with ⟨rfl, -⟩ | ⟨rfl, -⟩
      · exact .inr rfl
      · exact .inl rfl
  rcases htype with rfl | rfl
  · rw [hcell.cells, List.mem_singleton] at hmem
    subst hmem
    have hfound : FoundBoth f g (out 0, out 1) (out' 0, out' 1) := by
      rw [← hcell.found, ← hcell'.found, hg.cell.type, hh.type]
      apply hf.foldl_matchSide hg h0 h1 _ (.inl ⟨rfl, rfl⟩)
      intro side hside
      obtain ⟨hfirst, hsecond, -⟩ := b'.e2n_lt side hside
      exact ⟨hcorner hfirst, hcorner hsecond⟩
    rcases hfound with ⟨hempty, -⟩ | ⟨hout0, hout1⟩
    · exact absurd hempty hcell.ne
    · exact ⟨hout0, hout1, hcell.rest 2 le_rfl, hcell'.rest 2 le_rfl⟩
  · rw [hcell.none] at hmem
    cases hmem

/-- The largest id is the same. -/
theorem RenamedBy.maxFaceid (hf : RenamedBy f g h) (hg : g.CellsInv) (hh : h.CellsInv) :
    h.maxFaceid = g.maxFaceid := by
  have hids : ((h.cell .edg).validCells : Multiset Nat).map (fun c => (h.cell .edg).c2n c 2) =
      ((g.cell .edg).validCells : Multiset Nat).map fun c => (g.cell .edg).c2n c 2 := by
    apply map_eq_map_of_images (hf.rows .edg)
    intro c' _ c _ hrow
    exact (renamed_entries (hg.type .edg) (hh.type .edg) hrow).2 2 (by decide) (by decide)
  rw [Multiset.map_coe, Multiset.map_coe, Multiset.coe_eq_coe] at hids
  have hfold (s : RefCell) : s.validCells.foldl (fun m cell => max m (s.c2n cell 2)) refIntMin =
      (s.validCells.map fun c => s.c2n c 2).foldl max refIntMin := by
    rw [List.foldl_map]
  rw [RefGrid.maxFaceid, RefGrid.maxFaceid, hfold, hfold]
  exact hids.foldl_eq refIntMin

/-! ## Renamed rows -/

/-- An item with its nodes renamed. -/
def renameItem (F : Nat → Nat) (item : CellType × List Int) : CellType × List Int :=
  (item.1, renameRow item.1 F item.2)

theorem rowsOf_renameItem (t : CellType) (F : Nat → Nat) (items : List (CellType × List Int)) :
    rowsOf t (items.map (renameItem F)) = (rowsOf t items).map (renameRow t F) := by
  induction items with
  | nil => rfl
  | cons item items ih =>
      rw [List.map_cons, rowsOf_cons, rowsOf_cons]
      by_cases ht : item.1 = t
      · rw [if_pos ht, if_pos (show (renameItem F item).1 = t from ht), List.map_cons, ih, ← ht]
        rfl
      · rw [if_neg ht, if_neg (show ¬ (renameItem F item).1 = t from ht), ih]

/-- A copy of every node is where the copy of its new name is. -/
def MovesCorners (F : Nat → Nat) (n : Int) (nPlanes m : Nat) (nodes nodes' : Nat → Int) : Prop :=
  ∀ i, i < m → ∀ k : Nat, k < nPlanes → (F (nodes i + k * n).toNat : Int) = nodes' i + k * n

variable {F : Nat → Nat} {n : Int} {nPlanes : Nat} {nodes nodes' : Nat → Int}

/-- The copies in the first plane. -/
theorem MovesCorners.first {m : Nat} (hmove : MovesCorners F n nPlanes m nodes nodes')
    (hplanes : 2 ≤ nPlanes) {i : Nat} (hi : i < m) : (F (nodes i).toNat : Int) = nodes' i := by
  simpa using hmove i hi 0 (by omega)

/-- The copies in the last plane. -/
theorem MovesCorners.last {m : Nat} (hmove : MovesCorners F n nPlanes m nodes nodes')
    (hplanes : 2 ≤ nPlanes) {i : Nat} (hi : i < m) :
    (F (nodes i + (nPlanes - 1) * n).toNat : Int) = nodes' i + (nPlanes - 1) * n := by
  have h := hmove i hi (nPlanes - 1) (by omega)
  rw [show ((nPlanes - 1 : Nat) : Int) = (nPlanes : Int) - 1 by omega] at h
  exact h

/-- The copies in the plane above. -/
theorem MovesCorners.above {m : Nat} (hmove : MovesCorners F n nPlanes m nodes nodes') {i k : Nat}
    (hi : i < m) (hk : k + 1 < nPlanes) :
    (F (nodes i + (k + 1) * n).toNat : Int) = nodes' i + (k + 1) * n := by
  have h := hmove i hi (k + 1) hk
  rw [Nat.cast_add, Nat.cast_one] at h
  exact h

theorem edgItems_rename (hmove : MovesCorners F n nPlanes 2 nodes nodes')
    (hid : nodes' 2 = nodes 2) :
    edgItems n nPlanes nodes' = (edgItems n nPlanes nodes).map (renameItem F) := by
  rw [edgItems, edgItems, List.map_map]
  apply List.map_congr_left
  intro k hk
  rw [List.mem_range] at hk
  have hrow (a b c d e : Int) : renameRow .qua F [a, b, c, d, e] =
      [(F a.toNat : Int), (F b.toNat : Int), (F c.toNat : Int), (F d.toNat : Int), e] := rfl
  simp only [Function.comp_apply, renameItem, sideRow, hrow, hid,
    hmove 0 (by decide) k (by omega), hmove 1 (by decide) k (by omega),
    hmove.above (show 0 < 2 by decide) (show k + 1 < nPlanes by omega),
    hmove.above (show 1 < 2 by decide) (show k + 1 < nPlanes by omega)]

theorem triItems_rename (hmove : MovesCorners F n nPlanes 3 nodes nodes') (hplanes : 2 ≤ nPlanes)
    (faceid1 faceid2 : Int) :
    triItems n nPlanes faceid1 faceid2 nodes' =
      (triItems n nPlanes faceid1 faceid2 nodes).map (renameItem F) := by
  have hrow (a b c e : Int) : renameRow .tri F [a, b, c, e] =
      [(F a.toNat : Int), (F b.toNat : Int), (F c.toNat : Int), e] := rfl
  have hpri (a b c d e v : Int) : renameRow .pri F [a, b, c, d, e, v] =
      [(F a.toNat : Int), (F b.toNat : Int), (F c.toNat : Int), (F d.toNat : Int),
        (F e.toNat : Int), (F v.toNat : Int)] := rfl
  rw [triItems, triItems, List.map_append, List.map_append]
  congr 1
  · simp only [List.map_cons, List.map_nil, renameItem, shiftRow, List.cons_append,
      List.nil_append, hrow, hmove.first hplanes (show 0 < 3 by decide),
      hmove.first hplanes (show 1 < 3 by decide), hmove.first hplanes (show 2 < 3 by decide),
      hmove.last hplanes (show 0 < 3 by decide), hmove.last hplanes (show 1 < 3 by decide),
      hmove.last hplanes (show 2 < 3 by decide)]
  · rw [List.map_map]
    apply List.map_congr_left
    intro k hk
    rw [List.mem_range] at hk
    have hk' : k + 1 < nPlanes := by omega
    simp only [Function.comp_apply, renameItem, layerRow, shiftRow, List.map_cons, List.map_nil,
      List.cons_append, List.nil_append, hpri, hmove 0 (by decide) k (by omega),
      hmove 1 (by decide) k (by omega), hmove 2 (by decide) k (by omega),
      hmove.above (show 0 < 3 by decide) hk', hmove.above (show 1 < 3 by decide) hk',
      hmove.above (show 2 < 3 by decide) hk']

theorem quaItems_rename (hmove : MovesCorners F n nPlanes 4 nodes nodes') (hplanes : 2 ≤ nPlanes)
    (faceid1 faceid2 : Int) :
    quaItems n nPlanes faceid1 faceid2 nodes' =
      (quaItems n nPlanes faceid1 faceid2 nodes).map (renameItem F) := by
  have hrow (a b c d e : Int) : renameRow .qua F [a, b, c, d, e] =
      [(F a.toNat : Int), (F b.toNat : Int), (F c.toNat : Int), (F d.toNat : Int), e] := rfl
  have hhex (a b c d e v w x : Int) : renameRow .hex F [a, b, c, d, e, v, w, x] =
      [(F a.toNat : Int), (F b.toNat : Int), (F c.toNat : Int), (F d.toNat : Int),
        (F e.toNat : Int), (F v.toNat : Int), (F w.toNat : Int), (F x.toNat : Int)] := rfl
  rw [quaItems, quaItems, List.map_append, List.map_append]
  congr 1
  · simp only [List.map_cons, List.map_nil, renameItem, shiftRow, List.cons_append,
      List.nil_append, hrow, hmove.first hplanes (show 0 < 4 by decide),
      hmove.first hplanes (show 1 < 4 by decide), hmove.first hplanes (show 2 < 4 by decide),
      hmove.first hplanes (show 3 < 4 by decide), hmove.last hplanes (show 0 < 4 by decide),
      hmove.last hplanes (show 1 < 4 by decide), hmove.last hplanes (show 2 < 4 by decide),
      hmove.last hplanes (show 3 < 4 by decide)]
  · rw [List.map_map]
    apply List.map_congr_left
    intro k hk
    rw [List.mem_range] at hk
    have hk' : k + 1 < nPlanes := by omega
    simp only [Function.comp_apply, renameItem, layerRow, shiftRow, List.map_cons, List.map_nil,
      List.cons_append, List.nil_append, hhex, hmove 0 (by decide) k (by omega),
      hmove 1 (by decide) k (by omega), hmove 2 (by decide) k (by omega),
      hmove 3 (by decide) k (by omega), hmove.above (show 0 < 4 by decide) hk',
      hmove.above (show 1 < 4 by decide) hk', hmove.above (show 2 < 4 by decide) hk',
      hmove.above (show 3 < 4 by decide) hk']

/-- The rows of renamed cells. -/
theorem rowsOf_renamed {l l' : List Nat} {κ : Type} {k k' : Nat → κ}
    (hrows : (l' : Multiset Nat).map k' = (l : Multiset Nat).map k)
    {items items' : Nat → List (CellType × List Int)}
    (hitems : ∀ c' ∈ l', ∀ c ∈ l, k' c' = k c → items' c' = (items c).map (renameItem F))
    (t : CellType) :
    (rowsOf t (l'.flatMap items') : Multiset (List Int)) =
      (rowsOf t (l.flatMap items) : Multiset (List Int)).map (renameRow t F) := by
  have hmap : (l' : Multiset Nat).map (fun c => (rowsOf t (items' c) : Multiset (List Int))) =
      (l : Multiset Nat).map fun c =>
        (rowsOf t (items c) : Multiset (List Int)).map (renameRow t F) := by
    apply map_eq_map_of_images hrows
    intro c' hc' c hc heq
    rw [hitems c' hc' c hc heq, rowsOf_renameItem, Multiset.map_coe]
  rw [rowsOf_flatMap, rowsOf_flatMap, ← Multiset.coe_bind, ← Multiset.coe_bind, Multiset.bind,
    hmap, Multiset.map_bind]
  rfl

/-! ## Renamed copies -/

/-- The new name of a copy. -/
def copySlot (n : Nat) (place : Nat → Nat) (slot : Nat) : Nat := place (slot % n) + slot / n * n

theorem copySlot_add {n j : Nat} (place : Nat → Nat) (hj : j < n) (k : Nat) :
    copySlot n place (j + k * n) = place j + k * n := by
  rw [copySlot, Nat.add_mul_mod_self_right, Nat.mod_eq_of_lt hj,
    Nat.add_mul_div_right _ _ (Nat.zero_lt_of_lt hj), Nat.div_eq_of_lt hj, Nat.zero_add]

theorem exists_plane {n k slot : Nat} (hslot : slot < k * n) :
    ∃ j plane, j < n ∧ plane < k ∧ slot = j + plane * n := by
  have hn : 0 < n := by
    by_contra hzero
    rw [show n = 0 by omega, Nat.mul_zero] at hslot
    omega
  exact ⟨slot % n, slot / n, Nat.mod_lt _ hn, (Nat.div_lt_iff_lt_mul hn).mpr hslot,
    (Nat.mod_add_div' slot n).symm⟩

theorem plane_lt {n j k plane : Nat} (hj : j < n) (hplane : plane < k) : j + plane * n < k * n := by
  have hmul : (plane + 1) * n ≤ k * n := Nat.mul_le_mul_right _ (by omega)
  rw [Nat.add_mul] at hmul
  omega

/-- The slots of the copies are matched plane by plane. -/
theorem bijOn_copySlot {n k : Nat} {place : Nat → Nat}
    (hplace : Set.BijOn place {j | j < n} {j | j < n}) :
    Set.BijOn (copySlot n place) {slot | slot < k * n} {slot | slot < k * n} := by
  refine ⟨fun slot hslot => ?_, fun slot hslot slot' hslot' heq => ?_, fun slot hslot => ?_⟩
  · obtain ⟨j, plane, hj, hplane, rfl⟩ := exists_plane hslot
    rw [copySlot_add place hj]
    exact plane_lt (hplace.mapsTo hj) hplane
  · obtain ⟨j, plane, hj, -, rfl⟩ := exists_plane hslot
    obtain ⟨j', plane', hj', -, rfl⟩ := exists_plane hslot'
    rw [copySlot_add place hj, copySlot_add place hj'] at heq
    have hlt : place j < n := hplace.mapsTo hj
    have hlt' : place j' < n := hplace.mapsTo hj'
    have hmod := congrArg (· % n) heq
    have hdiv := congrArg (· / n) heq
    simp only [Nat.add_mul_mod_self_right, Nat.mod_eq_of_lt hlt, Nat.mod_eq_of_lt hlt'] at hmod
    simp only [Nat.add_mul_div_right _ _ (Nat.zero_lt_of_lt hj), Nat.div_eq_of_lt hlt,
      Nat.div_eq_of_lt hlt', Nat.zero_add] at hdiv
    rw [hplace.injOn hj hj' hmod, hdiv]
  · obtain ⟨j', plane, hj', hplane, rfl⟩ := exists_plane hslot
    obtain ⟨j, hj, rfl⟩ := hplace.surjOn hj'
    exact ⟨j + plane * n, plane_lt hj hplane, copySlot_add place hj plane⟩

theorem Copies.live_iff [RefPlaneDbl D] (hg : SlotGrid g) {og : RefGrid D}
    (hcopies : Copies g.node nPlanes (allCopies g.node nPlanes) og.node) (slot : Nat) :
    og.node.Live slot ↔ slot < nPlanes * g.node.n := by
  rw [hcopies.fills.live, length_allCopies hg.node.toSlotInv]

/-- The coordinates of a copy. -/
theorem Copies.coords [RefPlaneDbl D] (hg : SlotGrid g) {og : RefGrid D}
    (hcopies : Copies g.node nPlanes (allCopies g.node nPlanes) og.node) {j plane : Nat}
    (hj : j < g.node.n) (hplane : plane < nPlanes) :
    (og.node.real (j + plane * g.node.n) 0, og.node.real (j + plane * g.node.n) 2) =
        numberedCoords g.node j ∧
      og.node.real (j + plane * g.node.n) 1 = planeY D nPlanes plane := by
  have hlength : j < g.node.validNodes.length := by
    rw [hg.node.toSlotInv.length_validNodes]
    exact hj
  have hw := List.getElem?_eq_getElem hlength
  have hcopy := hcopies.copy _ _ (getElem?_allCopies hg.node.toSlotInv hplane hw)
  rw [Nat.add_comm] at hcopy
  refine ⟨?_, hcopy.y⟩
  rw [numberedCoords, List.getD_eq_getElem?_getD, hw, hcopy.x, hcopy.z]
  rfl

/-- **Where the slots match, isomorphic grids are extruded to isomorphic grids.** -/
theorem RenamedBy.extruded [RefPlaneDbl D] (hf : RenamedBy f g h) (hg : SlotGrid g)
    (hh : SlotGrid h) (hmatch : SlotsMatch g) (hmatch' : SlotsMatch h) (hplanes : 2 ≤ nPlanes)
    {faceid1 faceid2 : Int} {og oh : RefGrid D} (hext : Extruded g nPlanes faceid1 faceid2 og)
    (hext' : Extruded h nPlanes faceid1 faceid2 oh)
    (hcopies : Copies g.node nPlanes (allCopies g.node nPlanes) og.node)
    (hcopies' : Copies h.node nPlanes (allCopies h.node nPlanes) oh.node) : Isomorphic og oh := by
  obtain ⟨place, hplace, hextends, hcoords⟩ := hf.exists_places hg hh hmatch hmatch'
  have hn := hf.n_eq hg hh
  refine ⟨copySlot g.node.n place, ?_, ?_, ?_⟩
  · have hsource : {v | og.node.Live v} = {slot | slot < nPlanes * g.node.n} :=
      Set.ext fun slot => hcopies.live_iff hg slot
    have htarget : {v | oh.node.Live v} = {slot | slot < nPlanes * g.node.n} := by
      rw [← hn]
      exact Set.ext fun slot => hcopies'.live_iff hh slot
    rw [hsource, htarget]
    exact bijOn_copySlot hplace
  · intro slot hslot i hi
    rw [hcopies.live_iff hg] at hslot
    obtain ⟨j, plane, hj, hplane, rfl⟩ := exists_plane hslot
    have hj' : place j < h.node.n := by
      rw [hn]
      exact hplace.mapsTo hj
    obtain ⟨hxz, hy⟩ := hcopies.coords hg hj hplane
    obtain ⟨hxz', hy'⟩ := hcopies'.coords hh hj' hplane
    rw [hcoords j hj, ← hxz, hn, Prod.mk.injEq] at hxz'
    rw [hn] at hy'
    rw [copySlot_add place hj]
    interval_cases i
    · exact hxz'.1
    · rw [hy', hy]
    · exact hxz'.2
  · -- the used nodes and their copies
    have hmoves {m : Nat} {nodes nodes' : Nat → Int}
        (hnames : ∀ i, i < m → NamesTo f g (nodes i) (nodes' i)) :
        MovesCorners (copySlot g.node.n place) g.node.n nPlanes m nodes nodes' := by
      intro i hi k hk
      obtain ⟨v, hv, hx, hx'⟩ := hnames i hi
      have hlt := (hmatch.numbered hg hv).1
      rw [hx, hx', show ((v : Int) + k * g.node.n).toNat = v + k * g.node.n by
        rw [← Nat.cast_mul, ← Nat.cast_add, Int.toNat_natCast], copySlot_add place hlt,
        hextends v hv]
      push_cast
      rfl
    have hcells {b : CellType} (hb : b ∈ [CellType.tri, CellType.qua, CellType.edg]) {c c' : Nat}
        (hc : c ∈ (g.cell b).validCells)
        (hrow : (h.cell b).cellRow c' = renameRow b f ((g.cell b).cellRow c)) (i : Nat)
        (hi : i < b.nodePer) : NamesTo f g ((g.cell b).c2n c i) ((h.cell b).c2n c' i) :=
      RenamedBy.namesTo_corner hg hh.cell hb (RefCell.mem_validCells.mp hc) hrow hi
    intro t
    rw [hext.cells, hext'.cells, hn, rowsOf_append, rowsOf_append, rowsOf_append, rowsOf_append,
      ← Multiset.coe_add, ← Multiset.coe_add, ← Multiset.coe_add, ← Multiset.coe_add,
      Multiset.map_add, Multiset.map_add]
    congr 1
    · apply rowsOf_renamed (hf.rows .edg)
      intro c' hc' c hc hrow
      have hends := hcells (by decide) hc hrow
      obtain ⟨h0, h1, h2, h2'⟩ := hf.orientEdg hg hh.cell (hends 0 (by decide))
        (hends 1 (by decide)) (hext.oriented c hc) (hext'.oriented c' hc')
      apply edgItems_rename
      · apply hmoves
        intro i hi
        interval_cases i
        · exact h0
        · exact h1
      · rw [h2, h2']
        exact (renamed_entries (hg.cell.type .edg) (hh.cell.type .edg) hrow).2 2 (by decide)
          (by decide)
    · congr 1
      · apply rowsOf_renamed (hf.rows .tri)
        intro c' _ c hc hrow
        exact triItems_rename (hmoves (hcells (by decide) hc hrow)) hplanes faceid1 faceid2
      · apply rowsOf_renamed (hf.rows .qua)
        intro c' _ c hc hrow
        exact quaItems_rename (hmoves (hcells (by decide) hc hrow)) hplanes faceid1 faceid2

end Renamed

/-- **The extrusion depends on the slots of the nodes** unless they match their
numbers. -/
theorem extrudeTwod_slots_iff [RefPlaneDbl D] {p : Nat} {mem mem' g h out out' : Nat → RefGrid D}
    {nPlanes : Nat} (hplanes : 2 ≤ nPlanes) (hg : ∀ r, r < p → SlotGrid (g r))
    (hh : ∀ r, r < p → SlotGrid (h r)) (hiso : ∀ r, r < p → Isomorphic (g r) (h r))
    (hrun : Runs p (fun r => RefGrid.extrudeTwod p (mem r) true nPlanes (g r)) out)
    (hrun' : Runs p (fun r => RefGrid.extrudeTwod p (mem' r) true nPlanes (h r)) out') :
    ∀ r, r < p →
      ((CopiesInPlace nPlanes (g r) (out r) ∧ CopiesInPlace nPlanes (h r) (out' r) ∧
          Isomorphic (out r) (out' r)) ↔
        SlotsMatch (g r) ∧ SlotsMatch (h r)) := by
  intro r hr
  have hp := Nat.zero_lt_of_lt hr
  obtain ⟨s, hsides, hcells⟩ := (extrudeTwod_runs_iff hp).mp hrun
  obtain ⟨s', hsides', hcells'⟩ := (extrudeTwod_runs_iff hp).mp hrun'
  have hmax : (maxOfRanks p fun q => (h q).maxFaceid) = maxOfRanks p fun q => (g q).maxFaceid := by
    apply combined_congr
    intro q hq
    obtain ⟨f, hf⟩ := hiso q (by omega)
    exact hf.maxFaceid (hg q (by omega)).cell (hh q (by omega)).cell
  rw [hmax] at hcells'
  obtain ⟨hext, hnode, hnodes⟩ := extrude_cells (hsides r hr) (hcells r hr)
  obtain ⟨hext', hnode', hnodes'⟩ := extrude_cells (hsides' r hr) (hcells' r hr)
  have hcopies := extrudeNodes_copies (hg r hr).globals (hg r hr).node.toSlotInv hnodes
  have hcopies' := extrudeNodes_copies (hh r hr).globals (hh r hr).node.toSlotInv hnodes'
  rw [← hnode] at hcopies
  rw [← hnode'] at hcopies'
  rw [hcopies.inPlace_iff (hg r hr).node.toSlotInv hplanes,
    hcopies'.inPlace_iff (hh r hr).node.toSlotInv hplanes]
  constructor
  · exact fun hall => ⟨hall.1, hall.2.1⟩
  · intro hmatch
    obtain ⟨f, hf⟩ := hiso r hr
    exact ⟨hmatch.1, hmatch.2, hf.extruded (hg r hr) (hh r hr) hmatch.1 hmatch.2 hplanes hext hext'
      hcopies hcopies'⟩

/-! ## A triangle behind a removed node -/

/-- The store after the first of four nodes is removed. -/
def gapStore : RefNode Int :=
  match (sharedStore 4 0).remove 0 with
  | .ok s => s
  | .error _ => sharedStore 4 0

/-- A triangle on the other nodes. -/
def gapTwod : RefGrid Int :=
  RefGrid.ofRows gapStore noGeom (twodRows [[1, 2, 3, 1]] [] [[2, 1, 7]])

theorem slotGrid_ofRows {node : RefNode Int} {rows : CellType → List (List Int)} (hnode : node.Inv)
    (hglobals : GlobalsBelow node) (hfit : ∀ t, RefCell.RowsFit t (rows t))
    (hcorners : ∀ t, ∀ row ∈ rows t, ∀ x ∈ row.take t.nodePer, 0 ≤ x ∧ node.Live x.toNat) :
    SlotGrid (RefGrid.ofRows node noGeom rows) := by
  refine ⟨hnode, RefGrid.ofRows_inv hfit, hglobals, ?_⟩
  intro t c hc x hx
  obtain ⟨row, hrow, hlist⟩ := RefGrid.exists_row_of_live (hfit t) hc
  rw [hlist] at hx
  exact hcorners t row hrow x hx

theorem sharedStore_inv {m : Nat} (hm : m ≤ refIntMax) : (sharedStore m 0).Inv :=
  (sharedStore_distributed Nat.one_pos hm).inv 0 Nat.one_pos

theorem slotGrid_triangleTwod : SlotGrid triangleTwod := by
  apply slotGrid_ofRows (sharedStore_inv (by decide))
  · intro v hv
    have hlt := (sharedStore_live 3 0 v).mp hv
    change (v : Int) < (3 : Nat)
    omega
  · intro t
    cases t <;> decide
  · intro t
    cases t <;> decide

/-- What the removal leaves. -/
theorem gapStore_spec : gapStore.Inv ∧ (∀ v, gapStore.Live v ↔ v < 4 ∧ v ≠ 0) ∧
    (∀ v, gapStore.Live v → gapStore.global v = v) ∧ gapStore.oldNGlobal = 4 := by
  have hinv := sharedStore_inv (show 4 ≤ refIntMax by decide)
  obtain ⟨s, hrun⟩ := RefNode.removeWithoutGlobal_ok hinv ((sharedStore_live 4 0 0).mpr (by decide))
  obtain ⟨hs, hremoves, hsame⟩ := RefNode.removeWithoutGlobal_spec hinv hrun
  have hgap : gapStore = s.pushUnused 0 := by
    rw [gapStore, RefNode.remove_eq, hrun]
    rfl
  have hlive : ∀ v, gapStore.Live v ↔ s.Live v := by
    intro v
    rw [hgap]
    rfl
  refine ⟨?_, ?_, ?_, ?_⟩
  · rw [hgap]
    exact RefNode.pushUnused_inv hs 0
  · intro v
    rw [hlive, hremoves.live, sharedStore_live]
  · intro v hv
    rw [hlive] at hv
    rw [hgap]
    exact hremoves.global_old v hv
  · rw [hgap]
    exact hsame.oldNGlobal

theorem slotGrid_gapTwod : SlotGrid gapTwod := by
  obtain ⟨hinv, hlive, hglobal, hn⟩ := gapStore_spec
  apply slotGrid_ofRows hinv
  · intro v hv
    rw [hglobal v hv, hn]
    have := ((hlive v).mp hv).1
    omega
  · intro t
    cases t <;> decide
  · simp only [hlive]
    intro t
    cases t <;> decide

/-- The last copy of the last node is not a node of the extruded grid. -/
theorem extrudeTwod_gap_misplaced :
    SlotGrid gapTwod ∧ ∃ out,
      Runs 1 (fun _ => RefGrid.extrudeTwod 1 gapTwod true 2 gapTwod) out ∧
      ¬ CopiesInPlace 2 gapTwod (out 0) := by
  refine ⟨slotGrid_gapTwod, ?_⟩
  have hcheck : ((extrudeAlone gapTwod).map fun g => decide (¬ g.node.Live 6)) = some true := by
    decide +kernel
  obtain ⟨out, hout, hdead⟩ := Option.map_eq_some_iff.mp hcheck
  refine ⟨fun _ => out, Prog.runs_of_alone hout, fun hplace => ?_⟩
  have huse : TwodUses gapTwod 3 := by
    have hlive : (gapTwod.cell .tri).Live 0 := by
      decide +kernel
    have hmem : (3 : Int) ∈ (gapTwod.cell .tri).nodeList 0 := by
      decide +kernel
    exact ⟨.tri, by decide, 0, hlive, hmem⟩
  have hcount : gapTwod.node.n = 3 := by
    decide +kernel
  have hlive := (hplace 3 huse 1 (by decide)).1
  rw [hcount] at hlive
  exact of_decide_eq_true hdead hlive

theorem isomorphic_refl {g : RefGrid D} (hg : SlotGrid g) : Isomorphic g g := by
  refine ⟨id, Set.bijOn_id _, fun _ _ _ _ => rfl, fun t => ?_⟩
  have hrow : ∀ row ∈ (g.cell t).cells, renameRow t id row = row := by
    intro row hrow
    obtain ⟨c, hc, rfl⟩ := RefCell.mem_cells.mp hrow
    have hcorners : ((g.cell t).cellRow c).take t.nodePer = (g.cell t).nodeList c := by
      rw [← RefCell.take_cellRow, RefCell.nodePer, hg.cell.type]
    have hsame : ((g.cell t).nodeList c).map (fun x => ((id x.toNat : Nat) : Int)) =
        (g.cell t).nodeList c := by
      conv_rhs => rw [← List.map_id ((g.cell t).nodeList c)]
      apply List.map_congr_left
      intro x hx
      exact Int.toNat_of_nonneg (hg.corners t c hc x hx).1
    rw [renameRow, hcorners, hsame, ← hcorners, List.take_append_drop]
  rw [Multiset.map_congr rfl hrow, Multiset.map_id']

/-- A triangle on the first nodes is extruded with its copies in place. -/
theorem extrudeTwod_slots_triangle : ∃ out,
    Runs 1 (fun _ => RefGrid.extrudeTwod 1 triangleTwod true 2 triangleTwod) out ∧
      ((CopiesInPlace 2 triangleTwod (out 0) ∧ CopiesInPlace 2 triangleTwod (out 0) ∧
          Isomorphic (out 0) (out 0)) ↔
        SlotsMatch triangleTwod ∧ SlotsMatch triangleTwod) := by
  have hrun : (extrudeAlone triangleTwod).isSome = true := by
    decide +kernel
  obtain ⟨out, hout⟩ := Option.isSome_iff_exists.mp hrun
  have hruns := Prog.runs_of_alone hout
  have hgrid : ∀ r, r < 1 → SlotGrid triangleTwod := fun _ _ => slotGrid_triangleTwod
  exact ⟨fun _ => out, hruns, extrudeTwod_slots_iff le_rfl hgrid hgrid
    (fun _ _ => isomorphic_refl slotGrid_triangleTwod) hruns hruns 0 Nat.one_pos⟩

end RefineMesh
