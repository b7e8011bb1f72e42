import Mathlib.Tactic
import RefineMesh.NodeInvariant
import RefineMesh.ExtrudeAligned

/-!
# The slots of extruded nodes

A new store hands out its slots in order, so the nodes of the extruded grid are
in the order in which the valid 2D nodes are visited.  The cells use the slots of
the 2D nodes instead.  Both agree where no invalid slot is in between.
-/

namespace RefineMesh

open Spmd
open SlotList

variable {D : Type}

/-! ## A store that fills up in order -/

namespace RefNode

/-- The first slots are live and the others are blank, in order. -/
structure Fills (s : RefNode D) (k : Nat) : Prop where
  inv : s.Inv
  live : ∀ i, s.Live i ↔ i < k
  blanks : Threads index2next refEmpty s.global s.blank (List.range' k (s.max - k))

theorem create_fills (mem : RefNode D) (rank : Nat) : (create mem rank).Fills 0 := by
  refine ⟨create_inv mem rank, fun i => ?_, ?_⟩
  · simp [create_dead mem rank i]
  · exact threads_linkFresh index2next refEmpty mem.global (show 0 < 20 by decide)

theorem Fills.le_max {s : RefNode D} {k : Nat} (h : s.Fills k) : k ≤ s.max := by
  by_contra hlt
  have hlive := (h.live s.max).mpr (by omega)
  exact (lt_irrefl _ hlive.1)

/-- Growth links the new slots in order. -/
theorem Fills.growIfFull {s s' : RefNode D} {k : Nat} (h : s.Fills k)
    (hrun : s.growIfFull = .ok s') :
    k < s'.max ∧ Threads index2next refEmpty s'.global s'.blank (List.range' k (s'.max - k)) := by
  by_cases hblank : s.blank = refEmpty
  · rw [RefNode.growIfFull, if_pos hblank, RefNode.grow] at hrun
    split at hrun
    · cases hrun
    have hgrow : s.max < s.max + Nat.max 5000 (3 * s.max / 2) := by
      have : 5000 ≤ Nat.max 5000 (3 * s.max / 2) := Nat.le_max_left _ _
      omega
    -- the blank list is empty, so all slots are live
    have hnil : List.range' k (s.max - k) = [] := by
      have hblanks := h.blanks
      rw [hblank] at hblanks
      cases hlist : List.range' k (s.max - k) with
      | nil => rfl
      | cons i rest =>
          rw [hlist] at hblanks
          exact absurd hblanks.1.symm (index2next_ne_refEmpty i)
    have hk : k = s.max := by
      rw [List.range'_eq_nil_iff] at hnil
      have := h.le_max
      omega
    obtain rfl := Except.ok.inj hrun
    rw [hk]
    exact ⟨hgrow, threads_linkFresh index2next refEmpty s.global hgrow⟩
  · rw [RefNode.growIfFull, if_neg hblank] at hrun
    obtain rfl := Except.ok.inj hrun
    refine ⟨?_, h.blanks⟩
    by_contra hfull
    have hblanks := h.blanks
    rw [show s.max - k = 0 by omega] at hblanks
    exact hblank hblanks

/-- The first blank slot is the next one. -/
theorem Fills.addCore [RefDbl D] {s s' : RefNode D} {k node : Nat} {global : Int} (h : s.Fills k)
    (hrun : s.addCore global = .ok (s', node)) :
    node = k ∧
      Threads index2next refEmpty s'.global s'.blank (List.range' (k + 1) (s'.max - (k + 1))) := by
  rw [RefNode.addCore] at hrun
  split at hrun
  · cases hrun
  simp only [bind_eq_ok, metricForm] at hrun
  obtain ⟨s1, hgrow, s2, hmetric, hret⟩ := hrun
  obtain ⟨hlt, hblanks⟩ := h.growIfFull hgrow
  obtain ⟨row, rfl⟩ := metricSet_ok hmetric
  have hcons : List.range' k (s1.max - k) = k :: List.range' (k + 1) (s1.max - (k + 1)) := by
    rw [show s1.max - k = s1.max - (k + 1) + 1 by omega, List.range'_succ]
  rw [hcons, threads_cons] at hblanks
  have hfirst : (next2index s1.blank).toNat = k := by
    rw [hblanks.1, next2index_index2next]
  rw [hfirst] at hret
  obtain ⟨rfl, rfl⟩ := Prod.mk.inj (Except.ok.inj hret)
  refine ⟨rfl, hblanks.2.update ?_⟩
  rw [List.mem_range'_1]
  omega

/-- A new node is in the next slot. -/
theorem Fills.add [RefDbl D] {s s' : RefNode D} {k node : Nat} {global : Int} (h : s.Fills k)
    (hnew : ∀ i, i < k → s.global i ≠ global) (hrun : s.add global = .ok (s', node)) :
    node = k ∧ s'.Fills (k + 1) ∧ s'.global k = global ∧
      ∀ i, i < k → s'.global i = s.global i ∧ s'.real i = s.real i := by
  obtain ⟨hinv, -, hglobal, hsame | ⟨habsent, hadds⟩⟩ := add_spec h.inv hrun
  · have hrun' := hrun
    subst hsame
    obtain ⟨hlive, heq⟩ : s'.Live node ∧ s'.global node = global :=
      ⟨(add_spec h.inv hrun').2.1, hglobal⟩
    exact absurd heq (hnew node ((h.live node).mp hlive))
  -- the slot and the rest of the blank list are those of the core
  have hcore : node = k ∧
      Threads index2next refEmpty s'.global s'.blank (List.range' (k + 1) (s'.max - (k + 1))) := by
    rw [RefNode.add] at hrun
    split at hrun
    · cases hrun
    split at hrun
    · rename_i k' hlocal
      obtain ⟨hlive, heq⟩ := (h.inv.nodeLocal_eq_ok_iff global k').mp hlocal
      exact absurd heq (habsent k' hlive)
    · rw [bind_eq_ok] at hrun
      obtain ⟨⟨s1, node1⟩, hcore, hret⟩ := hrun
      obtain ⟨rfl, rfl⟩ := Prod.mk.inj (Except.ok.inj hret)
      have hnext := h.addCore hcore
      exact hnext
    · cases hrun
  obtain ⟨rfl, hblanks⟩ := hcore
  refine ⟨rfl, ⟨hinv, fun i => ?_, hblanks⟩, hglobal, fun i hi => ?_⟩
  · rw [hadds.live, h.live]
    omega
  · refine ⟨hadds.global_old i ((h.live i).mpr hi), ?_⟩
    obtain ⟨max, global', blank, row, sortedGlobal, sortedLocal, hframe⟩ := hadds.frame
    rw [hframe]
    exact Function.update_of_ne (by omega) _ _

end RefNode

/-! ## The nodes of the planes -/

section Nodes

variable {twodNode : RefNode D} {nPlanes : Nat}

/-- The position of a plane. -/
def planeY (D : Type) [RefPlaneDbl D] (nPlanes plane : Nat) : D :=
  ((plane : Int) : D) / (((nPlanes : Int) - 1 : Int) : D)

/-- A copy of a 2D node in a plane. -/
structure CopyOf [RefPlaneDbl D] (twodNode : RefNode D) (nPlanes : Nat) (s : RefNode D) (slot : Nat)
    (copy : Nat × Nat) : Prop where
  global : s.global slot = twodNode.global copy.2 + copy.1 * twodNode.oldNGlobal
  x : s.real slot 0 = twodNode.real copy.2 0
  y : s.real slot 1 = planeY D nPlanes copy.1
  z : s.real slot 2 = twodNode.real copy.2 1

/-- The first slots hold the given copies in order. -/
structure Copies [RefPlaneDbl D] (twodNode : RefNode D) (nPlanes : Nat) (copies : List (Nat × Nat))
    (s : RefNode D) : Prop where
  fills : s.Fills copies.length
  copy : ∀ (slot : Nat) (copy : Nat × Nat), copies[slot]? = some copy →
    CopyOf twodNode nPlanes s slot copy

/-- One more copy. -/
theorem Copies.extrudeNode [RefPlaneDbl D] {copies : List (Nat × Nat)} {s s' : RefNode D} {plane node : Nat}
    (h : Copies twodNode nPlanes copies s)
    (hnew : ∀ copy ∈ copies, twodNode.global copy.2 + copy.1 * twodNode.oldNGlobal ≠
      twodNode.global node + plane * twodNode.oldNGlobal)
    (hrun : RefGrid.extrudeNode twodNode (plane * twodNode.oldNGlobal) (planeY D nPlanes plane) s
      node = .ok s') : Copies twodNode nPlanes (copies ++ [(plane, node)]) s' := by
  rw [RefGrid.extrudeNode, bind_eq_ok] at hrun
  obtain ⟨⟨s1, newNode⟩, hadd, hret⟩ := hrun
  have hfresh : ∀ i, i < copies.length →
      s.global i ≠ twodNode.global node + plane * twodNode.oldNGlobal := by
    intro i hi
    rw [(h.copy i _ (List.getElem?_eq_getElem hi)).global]
    exact hnew _ (List.getElem_mem hi)
  obtain ⟨rfl, hfills, hglobal, hold⟩ := h.fills.add hfresh hadd
  obtain rfl := Except.ok.inj hret
  constructor
  · refine ⟨⟨hfills.inv.toSlotInv.congr rfl rfl rfl rfl, hfills.inv.ascending,
      hfills.inv.aligned, hfills.inv.covers⟩, ?_, ?_⟩
    · rw [List.length_append, List.length_singleton]
      exact hfills.live
    · rw [List.length_append, List.length_singleton]
      exact hfills.blanks
  · intro slot copy hcopy
    by_cases hslot : slot < copies.length
    · rw [List.getElem?_append_left hslot] at hcopy
      have hprev := h.copy slot copy hcopy
      obtain ⟨hglobal', hreal⟩ := hold slot hslot
      have hne : slot ≠ copies.length := by omega
      constructor
      · exact hglobal'.trans hprev.global
      · simp only [Function.update_of_ne hne, hreal]
        exact hprev.x
      · simp only [Function.update_of_ne hne, hreal]
        exact hprev.y
      · simp only [Function.update_of_ne hne, hreal]
        exact hprev.z
    · have hlt := (List.getElem?_eq_some_iff.mp hcopy).1
      rw [List.length_append, List.length_singleton] at hlt
      obtain rfl : slot = copies.length := by omega
      rw [List.getElem?_concat_length] at hcopy
      obtain rfl := Option.some.inj hcopy
      exact ⟨hglobal, by simp, by simp, by simp⟩

/-- The globals are below the number of nodes of all ranks. -/
def GlobalsBelow (s : RefNode D) : Prop := ∀ v, s.Live v → s.global v < s.oldNGlobal

/-- The globals of different copies are different. -/
theorem GlobalsBelow.copy_inj (hsync : GlobalsBelow twodNode) (hinv : twodNode.SlotInv)
    {v v' k k' : Nat} (hv : twodNode.Live v) (hv' : twodNode.Live v')
    (heq : twodNode.global v + k * twodNode.oldNGlobal =
      twodNode.global v' + k' * twodNode.oldNGlobal) : k = k' ∧ v = v' := by
  have h1 := shifted_place hv.2 (hsync v hv) k
  have h2 := shifted_place hv'.2 (hsync v' hv') k'
  rw [heq] at h1
  constructor
  · exact Nat.cast_inj.mp (h1.1.symm.trans h2.1)
  · exact hinv.distinct v v' hv hv' (h1.2.symm.trans h2.2)

/-- The copies in one plane. -/
def planeCopies (twodNode : RefNode D) (plane : Nat) : List (Nat × Nat) :=
  twodNode.validNodes.map fun node => (plane, node)

theorem mem_planeCopies {plane : Nat} {copy : Nat × Nat} :
    copy ∈ planeCopies twodNode plane ↔ copy.1 = plane ∧ twodNode.Live copy.2 := by
  rw [planeCopies, List.mem_map]
  constructor
  · intro h
    obtain ⟨node, hnode, rfl⟩ := h
    exact ⟨rfl, RefNode.mem_validNodes.mp hnode⟩
  · intro h
    exact ⟨copy.2, RefNode.mem_validNodes.mpr h.2, by rw [← h.1]⟩

theorem Copies.extrudePlane [RefPlaneDbl D] (hsync : GlobalsBelow twodNode) (hinv : twodNode.SlotInv)
    {copies : List (Nat × Nat)} {s s' : RefNode D} {plane : Nat}
    (h : Copies twodNode nPlanes copies s)
    (hbelow : ∀ copy ∈ copies, copy.1 < plane ∧ twodNode.Live copy.2)
    (hrun : RefGrid.extrudePlane twodNode nPlanes s plane = .ok s') :
    Copies twodNode nPlanes (copies ++ planeCopies twodNode plane) s' := by
  rw [RefGrid.extrudePlane] at hrun
  have hloop := ArrayLoop.foldlM_inv
    (fun done rest s => done ++ rest = twodNode.validNodes ∧
      Copies twodNode nPlanes (copies ++ done.map fun node => (plane, node)) s)
    (by
      intro done node rest s s' hdone hstep
      obtain ⟨hlist, hcopies⟩ := hdone
      have hmem {v : Nat} (hv : v ∈ done ++ node :: rest) : twodNode.Live v := by
        rw [hlist] at hv
        exact RefNode.mem_validNodes.mp hv
      have hnotin : node ∉ done := by
        have hnodup := RefNode.nodup_validNodes twodNode
        rw [← hlist, List.nodup_append] at hnodup
        exact fun hin => hnodup.2.2 node hin node List.mem_cons_self rfl
      refine ⟨by simpa using hlist, ?_⟩
      rw [List.map_append, ← List.append_assoc]
      apply hcopies.extrudeNode _ hstep
      intro copy hcopy heq
      rcases List.mem_append.mp hcopy with hprev | hprev
      · have hk := (hsync.copy_inj hinv (hbelow copy hprev).2 (hmem (by simp)) heq).1
        have := (hbelow copy hprev).1
        omega
      · obtain ⟨v, hv, rfl⟩ := List.mem_map.mp hprev
        obtain ⟨-, rfl⟩ := hsync.copy_inj hinv (hmem (List.mem_append_left _ hv))
          (hmem (by simp)) heq
        exact hnotin hv)
    ⟨rfl, by simpa using h⟩ hrun
  exact hloop.2

/-- All copies in the order in which they are made. -/
def allCopies (twodNode : RefNode D) (nPlanes : Nat) : List (Nat × Nat) :=
  (List.range nPlanes).flatMap (planeCopies twodNode)

/-- **The nodes of the extruded grid.** -/
theorem extrudeNodes_copies [RefPlaneDbl D] (hsync : GlobalsBelow twodNode) (hinv : twodNode.SlotInv)
    {mem s : RefNode D} {rank : Nat}
    (hrun : RefGrid.extrudeNodes twodNode nPlanes (RefNode.create mem rank) = .ok s) :
    Copies twodNode nPlanes (allCopies twodNode nPlanes) s := by
  rw [RefGrid.extrudeNodes, bind_eq_ok] at hrun
  obtain ⟨s1, hplanes, hret⟩ := hrun
  have hloop := ArrayLoop.foldlM_inv
    (fun done rest s => done ++ rest = List.range nPlanes ∧
      Copies twodNode nPlanes (done.flatMap (planeCopies twodNode)) s)
    (by
      intro done plane rest s s' hdone hstep
      obtain ⟨hlist, hcopies⟩ := hdone
      refine ⟨by simpa using hlist, ?_⟩
      rw [List.flatMap_append, List.flatMap_singleton]
      apply hcopies.extrudePlane hsync hinv _ hstep
      intro copy hcopy
      obtain ⟨k, hk, hmem⟩ := List.mem_flatMap.mp hcopy
      obtain ⟨rfl, hlive⟩ := mem_planeCopies.mp hmem
      -- the planes done so far are below
      have hsorted := @List.pairwise_lt_range nPlanes
      rw [← hlist, List.pairwise_append] at hsorted
      exact ⟨hsorted.2.2 _ hk plane List.mem_cons_self, hlive⟩)
    ⟨rfl, RefNode.create_fills mem rank, fun slot copy hcopy => by simp at hcopy⟩ hplanes
  obtain rfl := Except.ok.inj hret
  obtain ⟨hfills, hcopy⟩ := hloop.2
  exact ⟨⟨⟨hfills.inv.toSlotInv.congr rfl rfl rfl rfl, hfills.inv.ascending,
    hfills.inv.aligned, hfills.inv.covers⟩, hfills.live, hfills.blanks⟩,
    fun slot copy h => ⟨(hcopy slot copy h).global, (hcopy slot copy h).x, (hcopy slot copy h).y,
      (hcopy slot copy h).z⟩⟩

theorem length_allCopies (hinv : twodNode.SlotInv) (k : Nat) :
    (allCopies twodNode k).length = k * twodNode.n := by
  simp [allCopies, planeCopies, hinv.length_validNodes]

/-- The copy in a slot. -/
theorem getElem?_allCopies (hinv : twodNode.SlotInv) {plane j w : Nat} (hplane : plane < nPlanes)
    (hw : twodNode.validNodes[j]? = some w) :
    (allCopies twodNode nPlanes)[plane * twodNode.n + j]? = some (plane, w) := by
  have hj : j < twodNode.n := by
    rw [← hinv.length_validNodes]
    exact (List.getElem?_eq_some_iff.mp hw).1
  induction nPlanes with
  | zero => omega
  | succ k ih =>
      have hsucc : allCopies twodNode (k + 1) =
          allCopies twodNode k ++ planeCopies twodNode k := by
        rw [allCopies, List.range_succ, List.flatMap_append, List.flatMap_singleton]
        rfl
      rw [hsucc]
      by_cases hk : plane < k
      · rw [List.getElem?_append_left]
        · exact ih hk
        · rw [length_allCopies hinv]
          nlinarith
      · obtain rfl : plane = k := by omega
        rw [List.getElem?_append_right (by rw [length_allCopies hinv]; omega),
          length_allCopies hinv, Nat.add_sub_cancel_left, planeCopies, List.getElem?_map, hw]
        rfl

end Nodes

/-! ## The nodes of the cells -/

/-- A 2D grid whose cells are on valid nodes. -/
structure SlotGrid (g : RefGrid D) : Prop where
  node : g.node.Inv
  cell : g.CellsInv
  globals : GlobalsBelow g.node
  corners : ∀ t c, (g.cell t).Live c → ∀ x ∈ (g.cell t).nodeList c, 0 ≤ x ∧ g.node.Live x.toNat

/-- The nodes that the extruded cells are made from. -/
def TwodUses (g : RefGrid D) (v : Nat) : Prop :=
  ∃ t ∈ [CellType.tri, CellType.qua, CellType.edg], ∃ c, (g.cell t).Live c ∧
    (v : Int) ∈ (g.cell t).nodeList c

section Corners

variable {twod g : RefGrid D} {nPlanes : Nat} {faceid1 faceid2 n x : Int}

/-- The nodes of some items. -/
def OnItems (items : List (CellType × List Int)) (x : Int) : Prop :=
  ∃ item ∈ items, x ∈ item.2.take item.1.nodePer

theorem onItems_append {items items' : List (CellType × List Int)} :
    OnItems (items ++ items') x ↔ OnItems items x ∨ OnItems items' x := by
  simp [OnItems, or_and_right, exists_or]

theorem onItems_flatMap {l : List Nat} {items : Nat → List (CellType × List Int)} :
    OnItems (l.flatMap items) x ↔ ∃ c ∈ l, OnItems (items c) x := by
  simp only [OnItems, List.mem_flatMap]
  tauto

theorem onItems_map {t : CellType} {l : List Nat} {row : Nat → List Int} :
    OnItems (l.map fun k => (t, row k)) x ↔ ∃ k ∈ l, x ∈ (row k).take t.nodePer := by
  simp [OnItems]

/-- The cells between the planes reach all planes. -/
theorem exists_layerRow_iff (hplanes : 2 ≤ nPlanes) {w : List Int} :
    (∃ k ∈ List.range (nPlanes - 1), x ∈ layerRow n w k) ↔
      ∃ k, k < nPlanes ∧ x ∈ shiftRow (k * n) w := by
  simp only [List.mem_range, layerRow, List.mem_append]
  constructor
  · intro h
    obtain ⟨k, hk, hlow | hhigh⟩ := h
    · exact ⟨k, by omega, hlow⟩
    · exact ⟨k + 1, by omega, by simpa using hhigh⟩
  · intro h
    obtain ⟨k, hk, hmem⟩ := h
    by_cases hlast : k < nPlanes - 1
    · exact ⟨k, hlast, .inl hmem⟩
    · obtain ⟨j, rfl⟩ : ∃ j, k = j + 1 := ⟨k - 1, by omega⟩
      exact ⟨j, by omega, .inr (by simpa using hmem)⟩

theorem onItems_edg (hplanes : 2 ≤ nPlanes) (nodes : Nat → Int) :
    OnItems (edgItems n nPlanes nodes) x ↔
      ∃ k, k < nPlanes ∧ x ∈ shiftRow (k * n) [nodes 0, nodes 1] := by
  rw [edgItems, onItems_map, ← exists_layerRow_iff hplanes]
  apply exists_congr
  intro k
  apply and_congr_right
  intro _
  have htake : (sideRow n nodes k).take CellType.qua.nodePer =
      [nodes 1 + k * n, nodes 0 + k * n, nodes 0 + (k + 1) * n, nodes 1 + (k + 1) * n] := rfl
  rw [htake]
  simp only [layerRow, shiftRow, List.map_cons, List.map_nil, List.mem_append, List.mem_cons,
    List.not_mem_nil, or_false]
  tauto

/-- The two copies of a cell and the cells between the planes. -/
theorem onItems_layers {b t : CellType} {w low high : List Int} (hplanes : 2 ≤ nPlanes)
    (hlow : ∀ y, y ∈ low.take b.nodePer → y ∈ w)
    (hhigh : ∀ y, y ∈ high.take b.nodePer → y ∈ shiftRow ((nPlanes - 1) * n) w)
    (ht : t.nodePer = w.length + w.length) :
    OnItems ([(b, low)] ++ [(b, high)] ++
        (List.range (nPlanes - 1)).map fun k => (t, layerRow n w k)) x ↔
      ∃ k, k < nPlanes ∧ x ∈ shiftRow (k * n) w := by
  have hlayers : OnItems ((List.range (nPlanes - 1)).map fun k => (t, layerRow n w k)) x ↔
      ∃ k, k < nPlanes ∧ x ∈ shiftRow (k * n) w := by
    rw [onItems_map, ← exists_layerRow_iff hplanes]
    apply exists_congr
    intro k
    rw [List.take_of_length_le]
    rw [length_layerRow, ht]
  rw [onItems_append, onItems_append, hlayers]
  constructor
  · intro h
    rcases h with (h | h) | h
    · obtain ⟨item, hitem, hx⟩ := h
      obtain rfl := List.mem_singleton.mp hitem
      exact ⟨0, by omega, by simpa [shiftRow] using hlow x hx⟩
    · obtain ⟨item, hitem, hx⟩ := h
      obtain rfl := List.mem_singleton.mp hitem
      refine ⟨nPlanes - 1, by omega, ?_⟩
      rw [show ((nPlanes - 1 : Nat) : Int) = (nPlanes : Int) - 1 by omega]
      exact hhigh x hx
    · exact h
  · exact .inr

/-- **The nodes of the extruded cells** stand for the used 2D nodes. -/
theorem Extruded.mem_nodes_iff (h : Extruded twod nPlanes faceid1 faceid2 g)
    (htwod : SlotGrid twod) (hplanes : 2 ≤ nPlanes) :
    (∃ t c, (g.cell t).Live c ∧ x ∈ (g.cell t).nodeList c) ↔
      ∃ v plane : Nat, TwodUses twod v ∧ plane < nPlanes ∧ x = v + plane * twod.node.n := by
  set items := (twod.cell .edg).validCells.flatMap (fun c =>
      edgItems twod.node.n nPlanes (edgSide twod c)) ++
    ((twod.cell .tri).validCells.flatMap (fun c =>
      triItems twod.node.n nPlanes faceid1 faceid2 ((twod.cell .tri).c2n c)) ++
    (twod.cell .qua).validCells.flatMap (fun c =>
      quaItems twod.node.n nPlanes faceid1 faceid2 ((twod.cell .qua).c2n c))) with hitems
  have hon : (∃ t c, (g.cell t).Live c ∧ x ∈ (g.cell t).nodeList c) ↔ OnItems items x := by
    have hrows : ∀ t row, row ∈ (g.cell t).cells ↔ (t, row) ∈ items := by
      intro t row
      rw [h.cells, Multiset.mem_coe, mem_rowsOf]
    have hper (t : CellType) : (g.cell t).nodePer = t.nodePer := by
      rw [RefCell.nodePer, h.inv.type]
    constructor
    · intro hx
      obtain ⟨t, c, hc, hmem⟩ := hx
      refine ⟨(t, (g.cell t).cellRow c), (hrows t _).mp (RefCell.mem_cells.mpr ⟨c, hc, rfl⟩), ?_⟩
      rw [← hper, RefCell.take_cellRow]
      exact hmem
    · intro hx
      obtain ⟨⟨t, row⟩, hitem, hmem⟩ := hx
      obtain ⟨c, hc, rfl⟩ := RefCell.mem_cells.mp ((hrows t row).mpr hitem)
      refine ⟨t, c, hc, ?_⟩
      rw [← RefCell.take_cellRow, hper]
      exact hmem
  have htri (c : Nat) : OnItems (triItems twod.node.n nPlanes faceid1 faceid2
      ((twod.cell .tri).c2n c)) x ↔
      ∃ k, k < nPlanes ∧ x ∈ shiftRow (k * twod.node.n) ((twod.cell .tri).nodeList c) := by
    rw [nodeList_tri (htwod.cell.type .tri)]
    apply onItems_layers hplanes
    · intro y hy
      exact hy
    · intro y hy
      simp only [shiftRow, List.map_cons, List.map_nil, List.cons_append, List.nil_append,
        CellType.nodePer, List.take_succ_cons, List.take_zero, List.mem_cons] at hy ⊢
      tauto
    · rfl
  have hqua (c : Nat) : OnItems (quaItems twod.node.n nPlanes faceid1 faceid2
      ((twod.cell .qua).c2n c)) x ↔
      ∃ k, k < nPlanes ∧ x ∈ shiftRow (k * twod.node.n) ((twod.cell .qua).nodeList c) := by
    rw [nodeList_qua (htwod.cell.type .qua)]
    apply onItems_layers hplanes
    · intro y hy
      simp only [CellType.nodePer, List.take_succ_cons, List.take_zero, List.mem_cons] at hy ⊢
      tauto
    · intro y hy
      exact hy
    · rfl
  -- an edge keeps its ends when it is directed
  have hedg (c : Nat) (hc : c ∈ (twod.cell .edg).validCells) :
      OnItems (edgItems twod.node.n nPlanes (edgSide twod c)) x ↔
      ∃ k, k < nPlanes ∧ x ∈ shiftRow (k * twod.node.n) ((twod.cell .edg).nodeList c) := by
    obtain ⟨b, other, d, -, hcell⟩ := orientEdg_cases (h.oriented c hc)
    obtain ⟨-, -, -, -, hends⟩ := hcell.side
    have hlist : (twod.cell .edg).nodeList c =
        [(twod.cell .edg).c2n c 0, (twod.cell .edg).c2n c 1] := by
      rw [RefCell.nodeList, RefCell.nodePer, htwod.cell.type]
      rfl
    rw [onItems_edg hplanes, hlist]
    apply exists_congr
    intro k
    apply and_congr_right
    intro _
    simp only [shiftRow, List.map_cons, List.map_nil, List.mem_cons, List.not_mem_nil, or_false]
    rcases hends with ⟨h0, h1⟩ | ⟨h0, h1⟩
    · rw [h0, h1]
    · rw [h0, h1]
      tauto
  rw [hon, hitems, onItems_append, onItems_append, onItems_flatMap, onItems_flatMap,
    onItems_flatMap]
  have huse {t : CellType} (ht : t ∈ [CellType.tri, CellType.qua, CellType.edg]) {c : Nat}
      (hc : c ∈ (twod.cell t).validCells) {k : Nat} (hk : k < nPlanes)
      (hx : x ∈ shiftRow (k * twod.node.n) ((twod.cell t).nodeList c)) :
      ∃ v plane : Nat, TwodUses twod v ∧ plane < nPlanes ∧ x = v + plane * twod.node.n := by
    have hlive := RefCell.mem_validCells.mp hc
    obtain ⟨y, hy, rfl⟩ := List.mem_map.mp hx
    have hpos := Int.toNat_of_nonneg (htwod.corners t c hlive y hy).1
    exact ⟨y.toNat, k, ⟨t, ht, c, hlive, by rw [hpos]; exact hy⟩, hk, by rw [hpos]⟩
  constructor
  · intro hx
    rcases hx with ⟨c, hc, hx⟩ | ⟨c, hc, hx⟩ | ⟨c, hc, hx⟩
    · obtain ⟨k, hk, hx⟩ := (hedg c hc).mp hx
      exact huse (by decide) hc hk hx
    · obtain ⟨k, hk, hx⟩ := (htri c).mp hx
      exact huse (by decide) hc hk hx
    · obtain ⟨k, hk, hx⟩ := (hqua c).mp hx
      exact huse (by decide) hc hk hx
  · intro hx
    obtain ⟨v, plane, ⟨t, ht, c, hlive, hmem⟩, hplane, rfl⟩ := hx
    have hc := RefCell.mem_validCells.mpr hlive
    have hshift : (v : Int) + plane * twod.node.n ∈
        shiftRow (plane * twod.node.n) ((twod.cell t).nodeList c) :=
      List.mem_map.mpr ⟨v, hmem, rfl⟩
    simp only [List.mem_cons, List.not_mem_nil, or_false] at ht
    rcases ht with rfl | rfl | rfl
    · exact .inr (.inl ⟨c, hc, (htri c).mpr ⟨plane, hplane, hshift⟩⟩)
    · exact .inr (.inr ⟨c, hc, (hqua c).mpr ⟨plane, hplane, hshift⟩⟩)
    · exact .inl ⟨c, hc, (hedg c hc).mpr ⟨plane, hplane, hshift⟩⟩

end Corners

/-- The node that stands for `v` in each plane is valid and has its
coordinates. -/
def CopiesInPlace (nPlanes : Nat) (twod g : RefGrid D) : Prop :=
  ∀ v, TwodUses twod v → ∀ plane, plane < nPlanes →
    g.node.Live (v + plane * twod.node.n) ∧
    g.node.real (v + plane * twod.node.n) 0 = twod.node.real v 0 ∧
    g.node.real (v + plane * twod.node.n) 2 = twod.node.real v 1

/-- The valid node with the number of a slot has the coordinates of the node in
the slot. -/
def SlotsMatch (g : RefGrid D) : Prop :=
  ∀ v, TwodUses g v → ∃ w, g.node.validNodes[v]? = some w ∧
    g.node.real w 0 = g.node.real v 0 ∧ g.node.real w 1 = g.node.real v 1

/-- Without an invalid slot in between every node is where its slot says. -/
theorem slotsMatch_of_compact {g : RefGrid D} (h : SlotGrid g)
    (hcompact : ∀ v, TwodUses g v → ∀ w, w < v → g.node.Live w) : SlotsMatch g := by
  intro v hv
  refine ⟨v, ?_, rfl, rfl⟩
  obtain ⟨t, -, c, hc, hmem⟩ := id hv
  have hlive : g.node.Live v := by simpa using (h.corners t c hc v hmem).2
  obtain ⟨m, hm⟩ : ∃ m, g.node.max = v + 1 + m := ⟨g.node.max - (v + 1), by
    have := hlive.1
    omega⟩
  have hfirst : (List.range (v + 1)).filter (fun k => g.node.Live k) = List.range (v + 1) := by
    apply List.filter_eq_self.mpr
    intro k hk
    rw [List.mem_range] at hk
    rw [decide_eq_true_iff]
    by_cases hkv : k = v
    · rw [hkv]
      exact hlive
    · exact hcompact v hv k (by omega)
  rw [RefNode.validNodes, hm, List.range_add, List.filter_append, hfirst, List.getElem?_append_left (by simp),
    List.getElem?_range (by omega)]

/-- **Where the copies are.** -/
theorem Copies.inPlace_iff [RefPlaneDbl D] {twod g : RefGrid D} {nPlanes : Nat}
    (htwod : twod.node.SlotInv) (hplanes : 2 ≤ nPlanes)
    (h : Copies twod.node nPlanes (allCopies twod.node nPlanes) g.node) :
    CopiesInPlace nPlanes twod g ↔ SlotsMatch twod := by
  have hlive : ∀ i, g.node.Live i ↔ i < nPlanes * twod.node.n := by
    intro i
    rw [h.fills.live, length_allCopies htwod]
  have hcopy {v w plane : Nat} (hw : twod.node.validNodes[v]? = some w) (hplane : plane < nPlanes) :
      CopyOf twod.node nPlanes g.node (v + plane * twod.node.n) (plane, w) := by
    rw [Nat.add_comm]
    exact h.copy _ _ (getElem?_allCopies htwod hplane hw)
  constructor
  · intro hplace v hv
    -- the copy in the last plane is below the end of the store
    have hlast := (hlive _).mp (hplace v hv (nPlanes - 1) (by omega)).1
    have hlt : v < twod.node.n := by
      obtain ⟨k, rfl⟩ : ∃ k, nPlanes = k + 1 := ⟨nPlanes - 1, by omega⟩
      rw [Nat.add_sub_cancel, Nat.add_mul] at hlast
      omega
    have hlength : v < twod.node.validNodes.length := by
      rw [htwod.length_validNodes]
      exact hlt
    obtain ⟨-, hx, hz⟩ := hplace v hv 0 (by omega)
    have hfirst := hcopy (List.getElem?_eq_getElem hlength) (show 0 < nPlanes by omega)
    exact ⟨_, List.getElem?_eq_getElem hlength, hfirst.x.symm.trans hx, hfirst.z.symm.trans hz⟩
  · intro hmatch v hv plane hplane
    obtain ⟨w, hw, hx, hz⟩ := hmatch v hv
    have hc := hcopy hw hplane
    refine ⟨(hlive _).mpr ?_, hc.x.trans hx, hc.z.trans hz⟩
    have hlt := (List.getElem?_eq_some_iff.mp hw).1
    rw [htwod.length_validNodes] at hlt
    have hmul : (plane + 1) * twod.node.n ≤ nPlanes * twod.node.n :=
      Nat.mul_le_mul_right _ (by omega)
    rw [Nat.add_mul] at hmul
    omega

end RefineMesh
