import Mathlib.Tactic
import RefineMesh.Cloud
import RefineMesh.Grid
import RefineMesh.NodeGhostRuns

/-!
# Layers of a cloud

The clouds of the reconstruction: the immediate cloud of a node has the nodes of
its cells, and a layer adds the immediate clouds of the nodes that are there.
After some layers the cloud has the nodes within as many steps.
-/

namespace RefineMesh

open ArrayLoop

-- the numeral of the rows
local instance neZero_four_layers : NeZero 4 := ⟨by decide⟩

/-- There is a path of at most `n` steps. -/
inductive WithinSteps {α : Type} (near : α → α → Prop) : Nat → α → α → Prop
  | refl (n : Nat) (x : α) : WithinSteps near n x x
  | step {n : Nat} {x y z : α} : WithinSteps near n x y → near y z → WithinSteps near (n + 1) x z

namespace WithinSteps

variable {α : Type} {near : α → α → Prop} {x y : α}

theorem mono {n m : Nat} (h : WithinSteps near n x y) (hnm : n ≤ m) : WithinSteps near m x y := by
  induction h generalizing m with
  | refl n x => exact refl m x
  | step _ hz ih =>
      obtain ⟨m, rfl⟩ : ∃ m', m = m' + 1 := ⟨m - 1, by omega⟩
      exact step (ih (by omega)) hz

theorem zero_iff : WithinSteps near 0 x y ↔ x = y := by
  constructor
  · intro h
    cases h
    rfl
  · rintro rfl
    exact refl 0 x

/-- A path ends with its start, or with a step from a shorter path. -/
theorem succ_iff {n : Nat} : WithinSteps near (n + 1) x y ↔
    WithinSteps near n x y ∨ ∃ z, WithinSteps near n x z ∧ near z y := by
  constructor
  · intro h
    cases h with
    | refl _ _ => exact Or.inl (refl n x)
    | step hz hy => exact Or.inr ⟨_, hz, hy⟩
  · rintro (h | ⟨z, hz, hy⟩)
    · exact h.mono (Nat.le_succ n)
    · exact step hz hy

end WithinSteps

section Clouds

variable {D : Type}

/-- `xyzs` of a node: the coordinates and the scalar. -/
def xyzs (refNode : RefNode D) (scalar : Nat → D) (node : Nat) : Fin 4 → D :=
  ![refNode.real node 0, refNode.real node 1, refNode.real node 2, scalar node]

/-- The loop over the nodes of a cell. -/
def storeCell (refNode : RefNode D) (refCell : RefCell) (scalar : Nat → D) (refCloud : RefCloud (Fin 4 → D))
    (cell : Nat) : Except Status (RefCloud (Fin 4 → D)) :=
  (List.range refCell.nodePer).foldlM (fun refCloud cellNode =>
    let target := (refCell.c2n cell cellNode).toNat
    refCloud.store (refNode.global target) (xyzs refNode scalar target)) refCloud

/-- `ref_recon_local_immediate_cloud`. -/
def localImmediateCloud (oneLayer : Nat → RefCloud (Fin 4 → D)) (refNode : RefNode D) (refCell : RefCell)
    (scalar : Nat → D) : Except Status (Nat → RefCloud (Fin 4 → D)) :=
  refNode.validNodes.foldlM (fun oneLayer node =>
    if refNode.Owned node then do
      let refCloud ← (refCell.having node).foldlM (storeCell refNode refCell scalar) (oneLayer node)
      .ok (Function.update oneLayer node refCloud)
    else .ok oneLayer) oneLayer

/-- The loop over the cloud of a pivot. -/
def storeCloud (layer : RefCloud (Fin 4 → D)) (refCloud : RefCloud (Fin 4 → D)) : Except Status (RefCloud (Fin 4 → D)) :=
  (List.range layer.n).foldlM (fun refCloud addIndex =>
    refCloud.store (layer.global addIndex) (layer.aux addIndex)) refCloud

/-- `ref_recon_grow_cloud_one_layer`; the loop reads the cloud as it was at the
start. -/
def growCloudOneLayer (refCloud : RefCloud (Fin 4 → D)) (oneLayer : Nat → RefCloud (Fin 4 → D)) (refNode : RefNode D) :
    Except Status (RefCloud (Fin 4 → D)) :=
  let copy := refCloud
  (List.range copy.n).foldlM (fun refCloud pivotIndex =>
    match refNode.nodeLocal (copy.global pivotIndex) with
    | .error .notFound => .ok refCloud
    | .error status => .error status
    | .ok localPivot => storeCloud (oneLayer localPivot) refCloud) refCloud

/-- Some layers, as the callers add them. -/
def growLayers (oneLayer : Nat → RefCloud (Fin 4 → D)) (refNode : RefNode D) :
    Nat → RefCloud (Fin 4 → D) → Except Status (RefCloud (Fin 4 → D))
  | 0, refCloud => .ok refCloud
  | layers + 1, refCloud => do
      let refCloud ← growCloudOneLayer refCloud oneLayer refNode
      growLayers oneLayer refNode layers refCloud

/-- The rule for a loop over the owned nodes that writes the entry of each. -/
theorem EndsIf.ownedNodes {β : Type} {fit : Prop} {refNode : RefNode D}
    {f : (Nat → β) → Nat → Except Status (Nat → β)} {P : Nat → β → Prop} {start : Nat → β}
    (hghost : ∀ b node, ¬ refNode.Owned node → f b node = .ok b)
    (hstep : ∀ b node, refNode.Live node → refNode.Owned node → b node = start node →
      EndsIf fit (f b node) fun b' => ∃ x, b' = Function.update b node x ∧ P node x) :
    EndsIf fit (refNode.validNodes.foldlM f start) fun b' =>
      (∀ k, refNode.Live k → refNode.Owned k → P k (b' k)) ∧
      ∀ k, ¬ (refNode.Live k ∧ refNode.Owned k) → b' k = start k := by
  refine (EndsIf.foldlM (l := refNode.validNodes) (fun done rest b =>
    done ++ rest = refNode.validNodes ∧ (∀ k ∈ done, refNode.Owned k → P k (b k)) ∧
      ∀ k, (k ∈ done → ¬ refNode.Owned k) → b k = start k) ?_
        ⟨rfl, fun _ hk => absurd hk List.not_mem_nil, fun _ _ => rfl⟩).mono fun b h => ?_
  · rintro done node rest b ⟨hsplit, hdone, hrest⟩
    have hlive : refNode.Live node :=
      RefNode.mem_validNodes.mp (hsplit ▸ List.mem_append_right done List.mem_cons_self)
    have hfresh : node ∉ done := fun hmem =>
      List.disjoint_of_nodup_append (hsplit ▸ refNode.nodup_validNodes) hmem List.mem_cons_self
    have hlist : (done ++ [node]) ++ rest = refNode.validNodes := by
      rw [List.append_assoc, List.singleton_append, hsplit]
    have hlast : node ∈ done ++ [node] := List.mem_append_right done (List.mem_singleton_self node)
    by_cases howned : refNode.Owned node
    · refine (hstep b node hlive howned (hrest node fun hmem => absurd hmem hfresh)).mono ?_
      rintro _ ⟨x, rfl, hx⟩
      refine ⟨hlist, fun k hk hown => ?_, fun k hk => ?_⟩
      · by_cases hkn : k = node
        · subst hkn
          rw [Function.update_self]
          exact hx
        · rw [Function.update_of_ne hkn]
          exact hdone k ((List.mem_append.mp hk).resolve_right fun h =>
            hkn (List.mem_singleton.mp h)) hown
      · have hkn : k ≠ node := fun heq => hk (heq ▸ hlast) (heq ▸ howned)
        rw [Function.update_of_ne hkn]
        exact hrest k fun hmem => hk (List.mem_append_left [node] hmem)
    · rw [hghost b node howned]
      refine EndsIf.ok ⟨hlist, fun k hk hown => ?_, fun k hk => ?_⟩
      · refine hdone k ((List.mem_append.mp hk).resolve_right fun h => howned ?_) hown
        rwa [← List.mem_singleton.mp h]
      · exact hrest k fun hmem => hk (List.mem_append_left [node] hmem)
  · exact ⟨fun k hk => h.2.1 k (RefNode.mem_validNodes.mpr hk), fun k hk =>
      h.2.2 k fun hmem hown => hk ⟨RefNode.mem_validNodes.mp hmem, hown⟩⟩

/-! ## Immediate clouds -/

/-- What is known of the globals of the nodes is what the clouds store of them. -/
def Describes (N : RefCloud.Known (Fin 4 → D)) (refNode : RefNode D) (scalar : Nat → D) : Prop :=
  ∀ k, refNode.Live k →
    refNode.global k ∈ N.globals ∧ xyzs refNode scalar k = N.row (refNode.global k)

/-- The nodes of the cells are valid. -/
def CellsOnNodes (refNode : RefNode D) (refCell : RefCell) : Prop :=
  ∀ c, refCell.Live c → ∀ v ∈ refCell.nodeList c, refNode.Live v.toNat

/-- The nodes of a cell have these globals. -/
def cellGlobals (refNode : RefNode D) (refCell : RefCell) (cell : Nat) : Set Int :=
  {g | ∃ v ∈ refCell.nodeList cell, refNode.global v.toNat = g}

/-- The nodes that share a cell with a node. -/
def cellNeighbors (refNode : RefNode D) (refCell : RefCell) (node : Nat) : Set Int :=
  {g | ∃ c, refCell.Live c ∧ (node : Int) ∈ refCell.nodeList c ∧ g ∈ cellGlobals refNode refCell c}

variable {N : RefCloud.Known (Fin 4 → D)} {refNode : RefNode D} {refCell : RefCell} {scalar : Nat → D}

theorem storeCell_spec (hN : Describes N refNode scalar) (hon : CellsOnNodes refNode refCell)
    {cell : Nat} (hcell : refCell.Live cell) {c : RefCloud (Fin 4 → D)} (hc : c.Of N) :
    EndsIf N.Fits (storeCell refNode refCell scalar c cell) fun c' =>
      c'.Of N ∧ c'.members = c.members ∪ cellGlobals refNode refCell cell := by
  have hnode := fun i (hi : i ∈ List.range refCell.nodePer) => hN _ (hon cell hcell
    (refCell.c2n cell i) (RefCell.mem_nodeList.mpr ⟨i, List.mem_range.mp hi, rfl⟩))
  refine (RefCloud.stores_spec hc (g := fun i => refNode.global (refCell.c2n cell i).toNat)
    (f := fun i => xyzs refNode scalar (refCell.c2n cell i).toNat) (fun i hi => (hnode i hi).1)
    fun i hi => (hnode i hi).2).mono fun c' h => ⟨h.1, ?_⟩
  · rw [h.2]
    congr 1
    ext x
    simp only [cellGlobals, RefCell.mem_nodeList, List.mem_range, Set.mem_ofPred_eq]
    constructor
    · rintro ⟨i, hi, hx⟩
      exact ⟨_, ⟨i, hi, rfl⟩, hx⟩
    · rintro ⟨_, ⟨i, hi, rfl⟩, hx⟩
      exact ⟨i, hi, hx⟩

theorem storeCells_spec (hN : Describes N refNode scalar) (hon : CellsOnNodes refNode refCell)
    {l : List Nat} (hl : ∀ cell ∈ l, refCell.Live cell) {c : RefCloud (Fin 4 → D)} (hc : c.Of N) :
    EndsIf N.Fits (l.foldlM (storeCell refNode refCell scalar) c) fun c' =>
      c'.Of N ∧ c'.members = c.members ∪ {g | ∃ cell ∈ l, g ∈ cellGlobals refNode refCell cell} := by
  refine (EndsIf.foldlM (fun done rest (c' : RefCloud (Fin 4 → D)) => done ++ rest = l ∧ c'.Of N ∧
    c'.members = c.members ∪ {g | ∃ cell ∈ done, g ∈ cellGlobals refNode refCell cell}) ?_
      ⟨rfl, hc, ?_⟩).mono fun c' h => h.2
  · rintro done cell rest d ⟨hsplit, hd, hmembers⟩
    have hcell := hl cell (hsplit ▸ List.mem_append_right done List.mem_cons_self)
    refine (storeCell_spec hN hon hcell hd).mono fun d' h => ⟨?_, h.1, ?_⟩
    · rw [List.append_assoc, List.singleton_append, hsplit]
    · rw [h.2, hmembers, Set.union_assoc]
      congr 1
      ext x
      simp only [Set.mem_union, Set.mem_ofPred_eq, List.mem_append, List.mem_singleton,
        or_and_right, exists_or, exists_eq_left]
  · ext x
    simp

/-- **The immediate clouds** of the owned nodes have the nodes of their cells. -/
theorem localImmediateCloud_spec (hcells : refCell.CellInv) (hN : Describes N refNode scalar)
    (hon : CellsOnNodes refNode refCell) {oneLayer : Nat → RefCloud (Fin 4 → D)}
    (hempty : ∀ k, refNode.Live k → (oneLayer k).Of N ∧ (oneLayer k).members = ∅) :
    EndsIf N.Fits (localImmediateCloud oneLayer refNode refCell scalar) fun oneLayer' =>
      ∀ k, refNode.Live k → (oneLayer' k).Of N ∧ ∀ g, g ∈ (oneLayer' k).members ↔
        refNode.Owned k ∧ g ∈ cellNeighbors refNode refCell k := by
  refine (EndsIf.ownedNodes (P := fun k c => c.Of N ∧ ∀ g, g ∈ c.members ↔
    g ∈ cellNeighbors refNode refCell k) (fun o node hghost => if_neg hghost)
      fun o node hlive howned hstart => ?_).mono fun o h k hk => ?_
  · obtain ⟨hof, hmembers⟩ := hempty node hlive
    rw [← hstart] at hof hmembers
    rw [if_pos howned]
    refine (storeCells_spec hN hon (fun cell hc => ((hcells.mem_having).mp hc).1) hof).bind
      fun c hc => EndsIf.ok ⟨c, rfl, hc.1, fun g => ?_⟩
    rw [hc.2, hmembers, Set.empty_union]
    simp only [cellNeighbors, Set.mem_ofPred_eq, hcells.mem_having, and_assoc]
  · by_cases howned : refNode.Owned k
    · obtain ⟨hof, hmembers⟩ := h.1 k hk howned
      refine ⟨hof, fun g => ?_⟩
      rw [hmembers, and_iff_right howned]
    · obtain ⟨hof, hmembers⟩ := hempty k hk
      rw [← h.2 k fun hlive => howned hlive.2] at hof hmembers
      refine ⟨hof, fun g => iff_of_false ?_ fun hg => howned hg.1⟩
      rw [hmembers]
      exact Set.notMem_empty g

/-! ## Layers -/

/-- A global is in the cloud of a node with the other global. -/
def Near (refNode : RefNode D) (oneLayer : Nat → RefCloud (Fin 4 → D)) (g g' : Int) : Prop :=
  ∃ k, refNode.Live k ∧ refNode.global k = g ∧ g' ∈ (oneLayer k).members

theorem storeCloud_spec {layer c : RefCloud (Fin 4 → D)} (hlayer : layer.Of N) (hc : c.Of N) :
    EndsIf N.Fits (storeCloud layer c) fun c' =>
      c'.Of N ∧ c'.members = c.members ∪ layer.members := by
  refine (RefCloud.stores_spec hc (g := layer.global) (f := layer.aux)
    (fun i hi => hlayer.known i (List.mem_range.mp hi))
    fun i hi => hlayer.aux i (List.mem_range.mp hi)).mono fun c' h => ⟨h.1, ?_⟩
  rw [h.2]
  simp only [RefCloud.members, List.mem_range]

/-- **A layer** adds the immediate clouds of the nodes that are there. -/
theorem growCloudOneLayer_spec (hnode : refNode.Inv) {oneLayer : Nat → RefCloud (Fin 4 → D)}
    (hlayer : ∀ k, refNode.Live k → (oneLayer k).Of N) {c : RefCloud (Fin 4 → D)} (hc : c.Of N) :
    EndsIf N.Fits (growCloudOneLayer c oneLayer refNode) fun c' =>
      c'.Of N ∧ c'.members = c.members ∪ {g | ∃ x ∈ c.members, Near refNode oneLayer x g} := by
  refine (EndsIf.foldlM (l := List.range c.n) (fun done rest (c' : RefCloud (Fin 4 → D)) =>
    done ++ rest = List.range c.n ∧ c'.Of N ∧ c'.members =
      c.members ∪ {g | ∃ i ∈ done, Near refNode oneLayer (c.global i) g}) ?_
        ⟨rfl, hc, ?_⟩).mono fun c' h => ⟨h.2.1, ?_⟩
  · rintro done i rest d ⟨hsplit, hd, hmembers⟩
    have hlist : (done ++ [i]) ++ rest = List.range c.n := by
      rw [List.append_assoc, List.singleton_append, hsplit]
    have hset : ∀ s : Set Int, d.members ∪ {g | g ∈ s} = c.members ∪
        ({g | ∃ i ∈ done, Near refNode oneLayer (c.global i) g} ∪ s) := fun s => by
      rw [hmembers, Set.union_assoc]
      rfl
    have hsucc : ∀ s : Set Int, (∀ g, Near refNode oneLayer (c.global i) g ↔ g ∈ s) →
        {g | ∃ i ∈ done, Near refNode oneLayer (c.global i) g} ∪ s =
          {g | ∃ i' ∈ done ++ [i], Near refNode oneLayer (c.global i') g} := fun s hs => by
      ext g
      simp only [Set.mem_union, Set.mem_ofPred_eq, List.mem_append, List.mem_singleton,
        or_and_right, exists_or, exists_eq_left, hs]
    rcases hnode.nodeLocal_spec (c.global i) with ⟨k, hlocal, hlive, hglobal⟩ | ⟨hlocal, hnone⟩
    · rw [hlocal]
      refine (storeCloud_spec (hlayer k hlive) hd).mono fun d' h => ⟨hlist, h.1, ?_⟩
      rw [h.2, ← hsucc (oneLayer k).members fun g => ?_]
      · exact hset _
      · constructor
        · rintro ⟨k', hlive', hglobal', hg⟩
          rwa [hnode.distinct k k' hlive hlive' (hglobal.trans hglobal'.symm)]
        · exact fun hg => ⟨k, hlive, hglobal, hg⟩
    · rw [hlocal]
      refine EndsIf.ok ⟨hlist, hd, ?_⟩
      rw [← hsucc ∅ fun g => ?_, ← hset ∅]
      · exact (Set.union_empty _).symm
      · exact ⟨fun ⟨k, hlive, hglobal, _⟩ => hnone k hlive hglobal, fun hg => hg.elim⟩
  · ext x
    simp
  · rw [h.2.2]
    congr 1
    ext g
    simp only [RefCloud.members, List.mem_range, Set.mem_ofPred_eq]
    constructor
    · rintro ⟨i, hi, hg⟩
      exact ⟨_, ⟨i, hi, rfl⟩, hg⟩
    · rintro ⟨_, ⟨i, hi, rfl⟩, hg⟩
      exact ⟨i, hi, hg⟩

/-- An empty cloud stays empty. -/
theorem growLayers_empty (hnode : refNode.Inv) {oneLayer : Nat → RefCloud (Fin 4 → D)}
    (hlayer : ∀ k, refNode.Live k → (oneLayer k).Of N)
    (layers : Nat) {c c' : RefCloud (Fin 4 → D)} (hc : c.Of N) (hempty : c.members = ∅)
    (hrun : growLayers oneLayer refNode layers c = .ok c') : c'.members = ∅ := by
  induction layers generalizing c with
  | zero =>
      cases hrun
      exact hempty
  | succ layers ih =>
      obtain ⟨d, hgrow, hrest⟩ := bind_eq_ok.mp hrun
      rcases growCloudOneLayer_spec hnode hlayer hc with ⟨d', hok, hd⟩ | ⟨hfail, -⟩
      · rw [hgrow] at hok
        obtain rfl := Except.ok.inj hok
        refine ih hd.1 ?_ hrest
        rw [hd.2, hempty, Set.empty_union, Set.eq_empty_iff_forall_notMem]
        rintro g ⟨x, hx, -⟩
        exact Set.notMem_empty x hx
      · rw [hgrow] at hfail
        cases hfail

/-- The members are the globals within some steps. -/
def IsBall (refNode : RefNode D) (oneLayer : Nat → RefCloud (Fin 4 → D)) (center : Int) (n : Nat)
    (c : RefCloud (Fin 4 → D)) : Prop :=
  ∀ g, g ∈ c.members ↔ WithinSteps (Near refNode oneLayer) n center g

/-- A layer takes one more step. -/
theorem growCloudOneLayer_ball (hnode : refNode.Inv) {oneLayer : Nat → RefCloud (Fin 4 → D)}
    (hlayer : ∀ k, refNode.Live k → (oneLayer k).Of N) {c : RefCloud (Fin 4 → D)} (hc : c.Of N)
    {center : Int} {n : Nat} (hball : IsBall refNode oneLayer center n c) :
    EndsIf N.Fits (growCloudOneLayer c oneLayer refNode) fun c' =>
      c'.Of N ∧ IsBall refNode oneLayer center (n + 1) c' := by
  refine (growCloudOneLayer_spec hnode hlayer hc).mono fun c' h => ⟨h.1, fun g => ?_⟩
  rw [h.2, WithinSteps.succ_iff, Set.mem_union, hball]
  exact or_congr Iff.rfl (exists_congr fun z => and_congr_left' (hball z))

theorem growLayers_ball (hnode : refNode.Inv) {oneLayer : Nat → RefCloud (Fin 4 → D)}
    (hlayer : ∀ k, refNode.Live k → (oneLayer k).Of N) {center : Int} (layers : Nat) {n : Nat}
    {c : RefCloud (Fin 4 → D)} (hc : c.Of N) (hball : IsBall refNode oneLayer center n c) :
    EndsIf N.Fits (growLayers oneLayer refNode layers c) fun c' =>
      c'.Of N ∧ IsBall refNode oneLayer center (n + layers) c' := by
  induction layers generalizing n c with
  | zero => exact EndsIf.ok ⟨hc, hball⟩
  | succ layers ih =>
      refine (growCloudOneLayer_ball hnode hlayer hc hball).bind fun c' h => ?_
      rw [Nat.add_succ, ← Nat.succ_add]
      exact ih h.1 h.2

/-! ## The clouds of one rank -/

/-- What the stores of one rank know of the globals. -/
def knownNodes (refNode : RefNode D) (scalar : Nat → D) : RefCloud.Known (Fin 4 → D) where
  row g := xyzs refNode scalar ((refNode.nodeLocal g).toOption.getD 0)
  naux := 4
  globals := (refNode.validNodes.map refNode.global).toFinset

theorem knownNodes_describes (hnode : refNode.Inv) (scalar : Nat → D) :
    Describes (knownNodes refNode scalar) refNode scalar := by
  intro k hk
  refine ⟨List.mem_toFinset.mpr (List.mem_map.mpr ⟨k, RefNode.mem_validNodes.mpr hk, rfl⟩), ?_⟩
  have hlocal := (hnode.nodeLocal_eq_ok_iff (refNode.global k) k).mpr ⟨hk, rfl⟩
  simp only [knownNodes, hlocal, Except.toOption, Option.getD_some]

theorem knownNodes_fits (hnode : refNode.Inv) (scalar : Nat → D)
    (hfit : 4 * (refNode.n + 100) ≤ refIntMax) : (knownNodes refNode scalar).Fits := by
  have hcard : (knownNodes refNode scalar).globals.card ≤ refNode.n := by
    rw [← hnode.length_validNodes, ← List.length_map (f := refNode.global)]
    exact List.toFinset_card_le _
  calc 4 * ((knownNodes refNode scalar).globals.card + 100)
      ≤ 4 * (refNode.n + 100) := Nat.mul_le_mul_left 4 (Nat.add_le_add_right hcard 100)
    _ ≤ refIntMax := hfit

/-- Nodes with the two globals share a cell. -/
def SharesCell (refNode : RefNode D) (refCell : RefCell) (g g' : Int) : Prop :=
  ∃ k, refNode.Live k ∧ refNode.global k = g ∧ g' ∈ cellNeighbors refNode refCell k

/-- The clouds of one rank before the layers. -/
structure ImmediateClouds (refNode : RefNode D) (refCell : RefCell) (scalar : Nat → D)
    (oneLayer : Nat → RefCloud (Fin 4 → D)) : Prop where
  known : ∀ k, refNode.Live k → (oneLayer k).Of (knownNodes refNode scalar)
  near : ∀ g g', Near refNode oneLayer g g' ↔ SharesCell refNode refCell g g'
  ball : ∀ k, refNode.Live k → (∃ c, refCell.Live c ∧ (k : Int) ∈ refCell.nodeList c) →
    IsBall refNode oneLayer (refNode.global k) 1 (oneLayer k)
  empty : ∀ k, refNode.Live k → (¬ ∃ c, refCell.Live c ∧ (k : Int) ∈ refCell.nodeList c) →
    (oneLayer k).members = ∅

theorem exists_immediateClouds (hnode : refNode.Inv) (hcells : refCell.CellInv)
    (hon : CellsOnNodes refNode refCell) (howned : ∀ k, refNode.Live k → refNode.Owned k)
    (hfit : 4 * (refNode.n + 100) ≤ refIntMax) (scalar : Nat → D) (mem : RefCloud (Fin 4 → D)) :
    ∃ oneLayer, localImmediateCloud (fun _ => .create mem 4) refNode refCell scalar =
      .ok oneLayer ∧ ImmediateClouds refNode refCell scalar oneLayer := by
  obtain ⟨oneLayer, hrun, hlayer⟩ := (localImmediateCloud_spec hcells
    (knownNodes_describes hnode scalar) hon fun _ _ =>
      ⟨RefCloud.create_of mem, RefCloud.create_members mem 4⟩).exists_ok
        (knownNodes_fits hnode scalar hfit)
  refine ⟨oneLayer, hrun, fun k hk => (hlayer k hk).1, fun g g' => ?_, fun k hk hin => ?_,
    fun k hk hout => ?_⟩
  · refine exists_congr fun k => and_congr_right fun hk => and_congr_right fun _ => ?_
    rw [(hlayer k hk).2, and_iff_right (howned k hk)]
  · have hself : refNode.global k ∈ (oneLayer k).members := by
      obtain ⟨c, hc, hmem⟩ := hin
      exact ((hlayer k hk).2 _).mpr ⟨howned k hk, c, hc, hmem, k, hmem, rfl⟩
    intro g
    rw [WithinSteps.succ_iff, WithinSteps.zero_iff]
    constructor
    · exact fun hg => Or.inr ⟨_, WithinSteps.zero_iff.mpr rfl, k, hk, rfl, hg⟩
    · rintro (rfl | ⟨z, hz, k', hk', hglobal, hg⟩)
      · exact hself
      · rw [WithinSteps.zero_iff] at hz
        rwa [hnode.distinct k k' hk hk' (hz.trans hglobal.symm)]
  · refine Set.eq_empty_iff_forall_notMem.mpr fun g hg => hout ?_
    obtain ⟨-, c, hc, hmem, -⟩ := ((hlayer k hk).2 g).mp hg
    exact ⟨c, hc, hmem⟩

/-- The layers of a node that has a cell. -/
theorem ImmediateClouds.grown {oneLayer : Nat → RefCloud (Fin 4 → D)}
    (h : ImmediateClouds refNode refCell scalar oneLayer) (hnode : refNode.Inv)
    (hfit : 4 * (refNode.n + 100) ≤ refIntMax) {k : Nat} (hk : refNode.Live k)
    (hin : ∃ c, refCell.Live c ∧ (k : Int) ∈ refCell.nodeList c) (layers : Nat) :
    ∃ c, growLayers oneLayer refNode layers (oneLayer k) = .ok c ∧
      c.Of (knownNodes refNode scalar) ∧
      ∀ g, g ∈ c.members ↔
        WithinSteps (SharesCell refNode refCell) (layers + 1) (refNode.global k) g := by
  obtain ⟨c, hrun, hof, hball⟩ := (growLayers_ball hnode h.known layers (h.known k hk)
    (h.ball k hk hin)).exists_ok (knownNodes_fits hnode scalar hfit)
  refine ⟨c, hrun, hof, fun g => ?_⟩
  rw [hball, Nat.add_comm 1 layers, funext fun g => funext fun g' => propext (h.near g g')]

/-- **The cloud of a node** on one rank: after some layers it has exactly the
nodes within one step more, from cell to cell, with their coordinates and
scalars. -/
theorem cloud_within (hnode : refNode.Inv) (hcells : refCell.CellInv)
    (hon : CellsOnNodes refNode refCell) (howned : ∀ k, refNode.Live k → refNode.Owned k)
    (hfit : 4 * (refNode.n + 100) ≤ refIntMax) (scalar : Nat → D) (mem : RefCloud (Fin 4 → D))
    {k : Nat} (hk : refNode.Live k) (hin : ∃ c, refCell.Live c ∧ (k : Int) ∈ refCell.nodeList c)
    (layers : Nat) :
    ∃ c, (do
        let oneLayer ← localImmediateCloud (fun _ => .create mem 4) refNode refCell scalar
        growLayers oneLayer refNode layers (oneLayer k)) = .ok c ∧
      c.Of (knownNodes refNode scalar) ∧
      ∀ g, g ∈ c.members ↔
        WithinSteps (SharesCell refNode refCell) (layers + 1) (refNode.global k) g := by
  obtain ⟨oneLayer, hrun, hclouds⟩ :=
    exists_immediateClouds hnode hcells hon howned hfit scalar mem
  obtain ⟨c, hgrow, hc⟩ := hclouds.grown hnode hfit hk hin layers
  refine ⟨c, ?_, hc⟩
  rw [hrun]
  exact hgrow

end Clouds

/-- Two tets that share a triangle. -/
def tetPairRows : List (List Int) := [[0, 1, 2, 3], [1, 2, 3, 4]]

def tetPair : RefGrid Int := RefGrid.ofRows (sharedStore 5 0) noGeom fun _ => tetPairRows

theorem cloud_within_tetPair : ∃ c, (do
      let oneLayer ← localImmediateCloud (fun _ => .create ⟨0, 0, 0, fun _ => 0, fun _ _ => 0⟩ 4)
        tetPair.node (tetPair.cell .tet) fun _ => 0
      growLayers oneLayer tetPair.node 1 (oneLayer 0)) = .ok c ∧
    ∀ g, g ∈ c.members ↔ WithinSteps (SharesCell tetPair.node (tetPair.cell .tet)) 2 0 g := by
  have hfit : RefCell.RowsFit .tet tetPairRows := by decide
  have hon : CellsOnNodes tetPair.node (tetPair.cell .tet) := fun _ hc =>
    RefGrid.nodeList_ofRows hfit (fun l => ∀ v ∈ l, (sharedStore 5 0).Live v.toNat) (by decide) hc
  obtain ⟨c, hrun, -, hmembers⟩ := cloud_within
    ((sharedStore_distributed one_pos (by decide)).inv 0 one_pos) (RefCell.ofRows_spec hfit).inv hon
    (fun _ _ => rfl) (by decide) (fun _ => 0) ⟨0, 0, 0, fun _ => 0, fun _ _ => 0⟩ (k := 0)
    (by decide) ⟨0, by decide, by decide⟩ 1
  exact ⟨c, hrun, hmembers⟩

end RefineMesh
