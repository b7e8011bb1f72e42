import Mathlib.Tactic
import RefineMesh.CompactNumbers

/-!
# Contributions to owners

`ref_node_localize_ghost_int` is the ghost exchange the other way: every rank
sends the entries of its ghosts to their owners, which add them up, and clears
them.  The sums are computed in `REF_INT`.
-/

namespace RefineMesh

open Segments Spmd

variable {D : Type}

/-- The range of `REF_INT`. -/
def InRefInt (x : Int) : Prop := -2147483648 ≤ x ∧ x ≤ refIntMax

instance : DecidablePred InRefInt := fun _ => inferInstanceAs (Decidable (_ ∧ _))

/-- `scalar[node] += x`. -/
def addAt (scalar : Nat → Int) (node : Nat) (x : Int) : Except Status (Nat → Int) :=
  if InRefInt (scalar node + x) then .ok (Function.update scalar node (scalar node + x))
  else .error .undefined

namespace RefNode

/-- `a_scalar`: the entries of the ghosts, by owner. -/
def packedScalars (s : RefNode D) (scalar aMem : Nat → Int) : Nat → Int :=
  packRecords 1 s.part s.ghosts (fun node _ => scalar node) aMem

/-- The loop of the owner over what it received. -/
def addReceived (s : RefNode D) (req : GhostRequest) (bScalar scalar : Nat → Int) :
    Except Status (Nat → Int) :=
  (List.range req.bTotal).foldlM (fun scalar k => do
    let node ← s.nodeLocal (req.bGlobal k)
    addAt scalar node (bScalar k)) scalar

/-- The last loop. -/
def clearGhosts (s : RefNode D) (scalar : Nat → Int) : Nat → Int :=
  s.ghosts.foldl (fun scalar node => Function.update scalar node 0) scalar

/-- `ref_node_localize_ghost_int`. -/
def localizeGhostInt (p : Nat) (s : RefNode D) (scalar : Nat → Int) (mem : GhostMemory Int) :
    RankProg D (Nat → Int) :=
  if p ≤ 1 then .ret scalar
  else
    (ghostRequests p s mem.aGlobal mem.bGlobal).bind fun req =>
      (alltoallv p .int (s.packedScalars scalar mem.aVector) req.aSize req.bSize 1
        mem.bVector).bind fun bScalar =>
          (Prog.lift (s.addReceived req bScalar scalar)).bind fun scalar =>
            .ret (s.clearGhosts scalar)

/-- The entry of a global on one rank, 0 where the rank does not hold it. -/
def entryOf (s : RefNode D) (scalar : Nat → Int) (global : Int) : Int :=
  match s.nodeLocal global with
  | .ok node => scalar node
  | .error _ => 0

end RefNode

/-! ## Loops of additions -/

section Additions

variable {α : Type}

/-- A loop over the places of a list is a loop over the list. -/
theorem foldlM_range_eq {ε β : Type} {f : β → Nat → Except ε β} {g : β → α → Except ε β}
    {l : List α} (h : ∀ k x, l[k]? = some x → ∀ b, f b k = g b x) (b : β) :
    (List.range l.length).foldlM f b = l.foldlM g b := by
  induction l using List.reverseRecOn with
  | nil => rfl
  | append_singleton l x ih =>
      rw [List.length_append, List.length_singleton, List.range_succ, List.foldlM_append,
        List.foldlM_append, ih fun k y hk b => h k y ?_ b]
      · congr 1
        funext b
        simp only [List.foldlM_cons, List.foldlM_nil]
        rw [h l.length x (by simp) b]
      · rw [List.getElem?_append_left (List.getElem?_eq_some_iff.mp hk).1]
        exact hk

/-- Additions at different places succeed when each sum fits. -/
theorem addAt_loop {slot : α → Nat} {value : α → Int} {c : Nat → Int} :
    ∀ {items : List α} (scalar : Nat → Int), (items.map slot).Nodup →
      (∀ i ∈ items, value i = c (slot i)) →
      items.foldlM (fun scalar i => addAt scalar (slot i) (value i)) scalar =
        if ∀ i ∈ items, InRefInt (scalar (slot i) + c (slot i)) then
          .ok fun j => if j ∈ items.map slot then scalar j + c j else scalar j
        else .error .undefined := by
  intro items
  induction items with
  | nil =>
      intro scalar _ _
      simp [pure, Except.pure]
  | cons i rest ih =>
      intro scalar hnodup hvalue
      rw [List.map_cons, List.nodup_cons] at hnodup
      rw [List.foldlM_cons, hvalue i List.mem_cons_self, addAt]
      by_cases hfit : InRefInt (scalar (slot i) + c (slot i))
      · have hother : ∀ i' ∈ rest, slot i' ≠ slot i := by
          intro i' hi' heq
          exact hnodup.1 (List.mem_map.mpr ⟨i', hi', heq⟩)
        have hsame : (∀ i' ∈ rest, InRefInt (Function.update scalar (slot i)
            (scalar (slot i) + c (slot i)) (slot i') + c (slot i'))) ↔
            ∀ i' ∈ i :: rest, InRefInt (scalar (slot i') + c (slot i')) := by
          rw [List.forall_mem_cons, and_iff_right hfit]
          refine forall₂_congr fun i' hi' => ?_
          rw [Function.update_of_ne (hother i' hi')]
        rw [if_pos hfit]
        refine (ih _ hnodup.2 fun i' hi' => hvalue i' (List.mem_cons_of_mem i hi')).trans ?_
        simp only [hsame]
        congr 2
        funext j
        by_cases hj : j = slot i
        · subst hj
          rw [if_neg hnodup.1, if_pos (by simp), Function.update_self]
        · rw [Function.update_of_ne hj, List.map_cons]
          simp [hj]
      · rw [if_neg hfit, if_neg fun h => hfit (h i List.mem_cons_self)]
        rfl

end Additions

/-! ## What one rank receives -/

section Received

variable {p : Nat} {s : Nat → RefNode D}

/-- What rank `q` sends to rank `r` for its slot `j`. -/
def contribution (s : Nat → RefNode D) (data : Nat → Nat → Int) (r q j : Nat) : Int :=
  if q ≠ r ∧ (s r).Live j ∧ (s r).Owned j then (s q).entryOf (data q) ((s r).global j) else 0

theorem RefNode.Inv.entryOf_live {s : RefNode D} (h : s.Inv) {j : Nat} (hj : s.Live j)
    (scalar : Nat → Int) : s.entryOf scalar (s.global j) = scalar j := by
  rw [RefNode.entryOf, (h.nodeLocal_eq_ok_iff _ j).mpr ⟨hj, rfl⟩]

theorem RefNode.Inv.entryOf_absent {s : RefNode D} (h : s.Inv) {global : Int}
    (hg : ¬ s.Holds global) (scalar : Nat → Int) : s.entryOf scalar global = 0 := by
  rw [RefNode.entryOf]
  split
  · rename_i node hlocal
    exact absurd ⟨node, (h.nodeLocal_eq_ok_iff _ node).mp hlocal⟩ hg
  · rfl

/-- The owner's slot of a ghost. -/
theorem Distributed.ownerSlot_spec (h : Distributed p s) {q node : Nat} (hq : q < p)
    (hnode : node ∈ (s q).ghosts) :
    (s ((s q).part node)).Live (ownerSlot s q node) ∧
      (s ((s q).part node)).global (ownerSlot s q node) = (s q).global node :=
  ((h.inv _ (h.owner q hq node hnode).1).nodeLocal_eq_ok_iff _ _).mp (h.nodeLocal_owner hq hnode)

/-- A contribution is the entry of a ghost, or nothing. -/
theorem Distributed.contribution_ghost (h : Distributed p s) (hparts : Partitioned p s) {r q : Nat}
    (hq : q < p) (data : Nat → Nat → Int) {node : Nat}
    (hnode : node ∈ group (s q).part (s q).ghosts r) :
    data q node = contribution s data r q (ownerSlot s q node) := by
  obtain ⟨hghost, rfl⟩ := mem_group_ghosts.mp hnode
  obtain ⟨hlive, howned⟩ := RefNode.mem_ghosts.mp hghost
  obtain ⟨hslot, hglobal⟩ := h.ownerSlot_spec hq hghost
  have hr : (s q).part node < p := (h.owner q hq node hghost).1
  have hne : q ≠ (s q).part node := by
    intro heq
    exact howned ((h.rank q hq).trans heq)
  have hown : (s ((s q).part node)).Owned (ownerSlot s q node) := by
    rw [RefNode.Owned, h.rank _ hr]
    exact (hparts.parts _ q hr hq _ _ hslot hlive hglobal).symm
  rw [contribution, if_pos ⟨hne, hslot, hown⟩, hglobal, (h.inv q hq).entryOf_live hlive]

theorem Distributed.contribution_other (h : Distributed p s) (hparts : Partitioned p s) {r q : Nat}
    (hr : r < p) (hq : q < p) (data : Nat → Nat → Int) {j : Nat}
    (hj : j ∉ (group (s q).part (s q).ghosts r).map (ownerSlot s q)) :
    contribution s data r q j = 0 := by
  rw [contribution]
  split
  · rename_i hlocal
    obtain ⟨hne, hlive, howned⟩ := hlocal
    apply (h.inv q hq).entryOf_absent
    intro hholds
    obtain ⟨node, hnode, hglobal⟩ := hholds
    -- the node is a ghost of rank `q`, and slot `j` is its owner's
    have hpart : (s q).part node = r := by
      rw [hparts.parts q r hq hr node j hnode hlive hglobal, ← howned, h.rank r hr]
    have hghost : node ∈ (s q).ghosts := by
      rw [RefNode.mem_ghosts, RefNode.Owned, h.rank q hq, hpart]
      exact ⟨hnode, hne⟩
    obtain ⟨hslot, hslotGlobal⟩ := h.ownerSlot_spec hq hghost
    rw [hpart] at hslot hslotGlobal
    refine hj (List.mem_map.mpr ⟨node, mem_group_ghosts.mpr ⟨hghost, hpart⟩, ?_⟩)
    exact (h.inv r hr).distinct _ j hslot hlive (hslotGlobal.trans hglobal)
  · rfl

theorem Distributed.nodup_ownerSlots (h : Distributed p s) {q : Nat} (hq : q < p) (r : Nat) :
    ((group (s q).part (s q).ghosts r).map (ownerSlot s q)).Nodup := by
  apply List.Nodup.map_on
  · intro a ha b hb heq
    obtain ⟨hghost, hpart⟩ := mem_group_ghosts.mp ha
    obtain ⟨hghost', hpart'⟩ := mem_group_ghosts.mp hb
    have hglobal := (h.ownerSlot_spec hq hghost).2
    have hglobal' := (h.ownerSlot_spec hq hghost').2
    rw [hpart] at hglobal
    rw [hpart', ← heq] at hglobal'
    exact (h.inv q hq).distinct a b (RefNode.mem_ghosts.mp hghost).1
      (RefNode.mem_ghosts.mp hghost').1 (hglobal.symm.trans hglobal')
  · exact ((s q).nodup_validNodes.filter _).filter _

/-- What rank `q` sent is added when the sums fit. -/
theorem Distributed.add_group (h : Distributed p s) (hparts : Partitioned p s) {r q : Nat}
    (hr : r < p) (hq : q < p) (data : Nat → Nat → Int) {scalar : Nat → Int}
    (hscalar : ∀ j, (s r).Live j → (s r).Owned j → InRefInt (scalar j)) :
    let loop := (group (s q).part (s q).ghosts r).foldlM
      (fun scalar node => addAt scalar (ownerSlot s q node) (data q node)) scalar
    let fit := ∀ j, (s r).Live j → (s r).Owned j → InRefInt (scalar j + contribution s data r q j)
    (fit → loop = .ok fun j => scalar j + contribution s data r q j) ∧
      (¬ fit → loop = .error .undefined) := by
  intro loop fit
  have hloop := addAt_loop scalar (h.nodup_ownerSlots hq r) fun node hnode =>
    h.contribution_ghost hparts hq data hnode
  have hsums : (∀ node ∈ group (s q).part (s q).ghosts r, InRefInt (scalar (ownerSlot s q node) +
        contribution s data r q (ownerSlot s q node))) ↔ fit := by
    constructor
    · intro hfit j hlive howned
      by_cases hj : j ∈ (group (s q).part (s q).ghosts r).map (ownerSlot s q)
      · obtain ⟨node, hnode, rfl⟩ := List.mem_map.mp hj
        exact hfit node hnode
      · rw [h.contribution_other hparts hr hq data hj, Int.add_zero]
        exact hscalar j hlive howned
    · intro hfit node hnode
      obtain ⟨hghost, rfl⟩ := mem_group_ghosts.mp hnode
      obtain ⟨hslot, hglobal⟩ := h.ownerSlot_spec hq hghost
      apply hfit _ hslot
      rw [RefNode.Owned, h.rank _ hr]
      exact (hparts.parts _ q hr hq _ _ hslot (RefNode.mem_ghosts.mp hghost).1 hglobal).symm
  constructor
  · intro hfit
    refine hloop.trans ((if_pos (hsums.mpr hfit)).trans (congrArg Except.ok ?_))
    funext j
    split
    · rfl
    · rename_i hj
      rw [h.contribution_other hparts hr hq data hj, Int.add_zero]
  · intro hover
    exact hloop.trans (if_neg fun hall => hover (hsums.mp hall))

/-- The partial sums of the owners, rank by rank. -/
def SumsFit (p : Nat) (s : Nat → RefNode D) (data : Nat → Nat → Int) (r : Nat) : Prop :=
  ∀ m, m ≤ p → ∀ j, (s r).Live j → (s r).Owned j →
    InRefInt (data r j + ∑ q ∈ Finset.range m, contribution s data r q j)

/-- The ranks are added one after the other. -/
theorem Distributed.add_ranks (h : Distributed p s) (hparts : Partitioned p s) {r : Nat}
    (hr : r < p) (data : Nat → Nat → Int)
    (hdata : ∀ j, (s r).Live j → (s r).Owned j → InRefInt (data r j)) :
    ∀ m, m ≤ p →
      let loop := (List.range m).foldlM (fun scalar q => (group (s q).part (s q).ghosts r).foldlM
        (fun scalar node => addAt scalar (ownerSlot s q node) (data q node)) scalar) (data r)
      (SumsFit m s data r →
        loop = .ok fun j => data r j + ∑ q ∈ Finset.range m, contribution s data r q j) ∧
      (¬ SumsFit m s data r → loop = .error .undefined) := by
  intro m
  induction m with
  | zero =>
      intro _ loop
      constructor
      · intro _
        simp [loop, pure, Except.pure]
      · intro hover
        apply absurd _ hover
        intro m hm j hlive howned
        obtain rfl : m = 0 := by omega
        simpa using hdata j hlive howned
  | succ m ih =>
      intro hm loop
      obtain ⟨hok, herror⟩ := ih (by omega)
      have hsplit : SumsFit (m + 1) s data r ↔ SumsFit m s data r ∧
          ∀ j, (s r).Live j → (s r).Owned j → InRefInt (data r j +
            ∑ q ∈ Finset.range m, contribution s data r q j + contribution s data r m j) := by
        constructor
        · intro hfit
          refine ⟨fun k hk => hfit k (by omega), fun j hlive howned => ?_⟩
          have hlast := hfit (m + 1) le_rfl j hlive howned
          rwa [Finset.sum_range_succ, ← add_assoc] at hlast
        · intro hfit k hk j hlive howned
          rcases Nat.lt_succ_iff_lt_or_eq.mp (Nat.lt_succ_of_le hk) with hlt | rfl
          · exact hfit.1 k (by omega) j hlive howned
          · rw [Finset.sum_range_succ, ← add_assoc]
            exact hfit.2 j hlive howned
      simp only [loop, List.range_succ, List.foldlM_append]
      by_cases hfit : SumsFit m s data r
      · obtain ⟨hok', herror'⟩ := h.add_group hparts hr (show m < p by omega) data
          (hfit m le_rfl)
        rw [hok hfit, hsplit, and_iff_right hfit]
        simp only [List.foldlM_cons, List.foldlM_nil, bind_pure]
        constructor
        · intro hlast
          refine (hok' hlast).trans (congrArg Except.ok ?_)
          funext j
          rw [Finset.sum_range_succ, add_assoc]
        · intro hlast
          exact herror' hlast
      · rw [herror hfit, hsplit]
        exact ⟨fun hall => absurd hall.1 hfit, fun _ => rfl⟩

/-- **The loop of the owner.** -/
theorem Distributed.addReceived_eq (h : Distributed p s) (aMem bMem : Nat → Nat → Int) {r : Nat}
    (hr : r < p) {data : Nat → Nat → Int} {bScalar : Nat → Int}
    (hb : ∀ k q node, (requestOrder p s r)[k]? = some (q, node) → bScalar k = data q node)
    (scalar : Nat → Int) :
    (s r).addReceived (requestOf p s aMem bMem r) bScalar scalar =
      (List.range p).foldlM (fun scalar q => (group (s q).part (s q).ghosts r).foldlM
        (fun scalar node => addAt scalar (ownerSlot s q node) (data q node)) scalar) scalar := by
  have horder : (s r).addReceived (requestOf p s aMem bMem r) bScalar scalar =
      (requestOrder p s r).foldlM
        (fun scalar ask => addAt scalar (ownerSlot s ask.1 ask.2) (data ask.1 ask.2)) scalar := by
    apply foldlM_range_eq
    intro k ask hk scalar
    obtain ⟨hq, hnode, hpart⟩ := mem_requestOrder.mp (List.mem_of_getElem? hk)
    have hlocal := h.nodeLocal_owner hq hnode
    rw [hpart] at hlocal
    rw [bGlobal_requestOf h hr hk, hlocal, hb k ask.1 ask.2 hk]
    rfl
  rw [horder, requestOrder, ArrayLoop.foldlM_flatMap]
  simp only [List.foldlM_map]

end Received

/-! ## The exchange -/

section Localize

variable {p : Nat} {s : Nat → RefNode D}

theorem RefNode.localizeGhostInt_eq (hp : 1 < p) (s : RefNode D) (scalar : Nat → Int)
    (mem : GhostMemory Int) : s.localizeGhostInt p scalar mem =
      (ghostRequests p s mem.aGlobal mem.bGlobal).bind fun req =>
        (alltoallv p .int (s.packedScalars scalar mem.aVector) req.aSize req.bSize 1
          mem.bVector).bind fun bScalar =>
            (Prog.lift (s.addReceived req bScalar scalar)).bind fun scalar =>
              .ret (s.clearGhosts scalar) := by
  rw [RefNode.localizeGhostInt, if_neg (by omega)]

theorem RefNode.clearGhosts_apply (s : RefNode D) (scalar : Nat → Int) (node : Nat) :
    s.clearGhosts scalar node = if node ∈ s.ghosts then 0 else scalar node := by
  have hloop : ∀ (l : List Nat) (scalar : Nat → Int),
      l.foldl (fun scalar node => Function.update scalar node 0) scalar node =
        if node ∈ l then 0 else scalar node := by
    intro l
    induction l with
    | nil => intro scalar; rfl
    | cons k rest ih =>
        intro scalar
        rw [List.foldl_cons, ih, Function.update_apply]
        grind
  exact hloop s.ghosts scalar

/-- The sums and zeros that the call is to leave. -/
structure Localized (p : Nat) (s : Nat → RefNode D) (data out : Nat → Nat → Int) : Prop where
  owned : ∀ r, r < p → ∀ j, (s r).Live j → (s r).Owned j →
    out r j = ∑ q ∈ Finset.range p, (s q).entryOf (data q) ((s r).global j)
  ghost : ∀ r, r < p → ∀ j, (s r).Live j → ¬ (s r).Owned j → out r j = 0
  total : ∀ global, ∑ q ∈ Finset.range p, (s q).entryOf (out q) global =
    ∑ q ∈ Finset.range p, (s q).entryOf (data q) global

theorem Distributed.sum_contributions (h : Distributed p s) {r : Nat} (hr : r < p)
    (data : Nat → Nat → Int) {j : Nat} (hlive : (s r).Live j) (howned : (s r).Owned j) :
    data r j + ∑ q ∈ Finset.range p, contribution s data r q j =
      ∑ q ∈ Finset.range p, (s q).entryOf (data q) ((s r).global j) := by
  have hterm : ∀ q, (s q).entryOf (data q) ((s r).global j) =
      (if q = r then data r j else 0) + contribution s data r q j := by
    intro q
    rw [contribution]
    by_cases hq : q = r
    · subst hq
      rw [if_pos rfl, if_neg fun e => e.1 rfl, (h.inv q hr).entryOf_live hlive, Int.add_zero]
    · rw [if_neg hq, if_pos ⟨hq, hlive, howned⟩, Int.zero_add]
  simp only [hterm, Finset.sum_add_distrib]
  rw [Finset.sum_ite_eq' (Finset.range p) r, if_pos (Finset.mem_range.mpr hr)]

/-- Nothing is lost when the owners have the sums and the ghosts are clear. -/
theorem Distributed.localized_of (h : Distributed p s) (hparts : Partitioned p s)
    {data out : Nat → Nat → Int}
    (howned : ∀ r, r < p → ∀ j, (s r).Live j → (s r).Owned j →
      out r j = ∑ q ∈ Finset.range p, (s q).entryOf (data q) ((s r).global j))
    (hghost : ∀ r, r < p → ∀ j, (s r).Live j → ¬ (s r).Owned j → out r j = 0) :
    Localized p s data out := by
  refine ⟨howned, hghost, fun global => ?_⟩
  by_cases hheld : ∃ r, r < p ∧ (s r).Holds global
  · obtain ⟨r, hr, k, hk, rfl⟩ := hheld
    obtain ⟨hq, j, hj, hown, hglobal⟩ := hparts.owner_slot h hr hk
    generalize (s r).part k = owner at hq hj hown hglobal
    -- every other rank has cleared its entry
    have hterm : ∀ q ∈ Finset.range p, (s q).entryOf (out q) ((s r).global k) =
        if q = owner then out owner j else 0 := by
      intro q hq'
      have hqp : q < p := Finset.mem_range.mp hq'
      by_cases hholds : (s q).Holds ((s owner).global j)
      · obtain ⟨i, hi, hsame⟩ := hholds
        rw [← hglobal, ← hsame, (h.inv q hqp).entryOf_live hi]
        by_cases heq : q = owner
        · subst heq
          rw [if_pos rfl, (h.inv q hqp).distinct i j hi hj hsame]
        · rw [if_neg heq]
          apply hghost q hqp i hi
          intro hself
          have hpart := hparts.parts q owner hqp hq i j hi hj hsame
          apply heq
          rw [← h.rank q hqp, hself, hpart, ← hown, h.rank owner hq]
      · rw [← hglobal, (h.inv q hqp).entryOf_absent hholds, if_neg]
        intro heq
        subst heq
        exact hholds ⟨j, hj, rfl⟩
    rw [Finset.sum_congr rfl hterm, Finset.sum_ite_eq' (Finset.range p) owner,
      if_pos (Finset.mem_range.mpr hq), howned owner hq j hj hown, hglobal]
  · have hnone : ∀ (scalar : Nat → Nat → Int), ∀ q ∈ Finset.range p,
        (s q).entryOf (scalar q) global = 0 := by
      intro scalar q hq
      have hqp : q < p := Finset.mem_range.mp hq
      exact (h.inv q hqp).entryOf_absent (fun hholds => hheld ⟨q, hqp, hholds⟩) _
    rw [Finset.sum_congr rfl (hnone out), Finset.sum_congr rfl (hnone data)]

/-- What the ranks receive. -/
theorem Distributed.received_scalar (h : Distributed p s) (data aMem bMem : Nat → Nat → Int)
    {r k q node : Nat} (hr : r < p) (hk : (requestOrder p s r)[k]? = some (q, node)) :
    received p 1 (fun q => (s q).part) (fun q => (s q).ghosts)
      (fun q => (s q).packedScalars (data q) (aMem q)) bMem r k = data q node := by
  have hplace : received p 1 (fun q => (s q).part) (fun q => (s q).ghosts)
      (fun q => (s q).packedScalars (data q) (aMem q)) bMem r (0 + 1 * k) = data q node :=
    received_apply (fun q node _ => data q node) (fun q hq node hnode => (h.owner q hq node hnode).1)
      hr hk Nat.one_pos aMem bMem
  rwa [Nat.zero_add, Nat.one_mul] at hplace

theorem Distributed.askFits (h : Distributed p s)
    (hcount : ∀ r, r < p → requestCount p s r ≤ refIntMax) :
    AskFits p 1 (fun q => (s q).part) (fun q => (s q).ghosts) := by
  refine ⟨Nat.one_pos, fun r hr => ?_, fun r hr => ?_⟩
  · rw [Nat.one_mul]
    exact length_ghostOrder_le h hr
  · rw [Nat.one_mul]
    exact (length_requestOrder p s r).le.trans (hcount r hr)

/-- The runs are those in which the loops of the owners succeed. -/
theorem Distributed.localize_runs_iff (hp : 1 < p) (h : Distributed p s)
    (hcount : ∀ r, r < p → requestCount p s r ≤ refIntMax) (data : Nat → Nat → Int)
    (mem : Nat → GhostMemory Int) (out : Nat → Nat → Int) :
    Runs p (fun r => (s r).localizeGhostInt p (data r) (mem r)) out ↔
      ∃ sums : Nat → Nat → Int, (∀ r, r < p →
        (List.range p).foldlM (fun scalar q => (group (s q).part (s q).ghosts r).foldlM
          (fun scalar node => addAt scalar (ownerSlot s q node) (data q node)) scalar) (data r) =
            .ok (sums r)) ∧
        ∀ r, r < p → out r = (s r).clearGhosts (sums r) := by
  have hp0 : 0 < p := by omega
  let aMem := fun r => (mem r).aGlobal
  let bMem := fun r => (mem r).bGlobal
  let send := fun q => (s q).packedScalars (data q) (mem q).aVector
  let moved := received p 1 (fun q => (s q).part) (fun q => (s q).ghosts) send
    fun r => (mem r).bVector
  have hrequests := ghostRequests_run aMem bMem h fun r hr =>
    (length_requestOrder p s r).le.trans (hcount r hr)
  have hmoved : Runs p (fun r => (alltoallv p .int (send r) (requestOf p s aMem bMem r).aSize
      (requestOf p s aMem bMem r).bSize 1 (mem r).bVector : RankProg D (Nat → Int))) moved := by
    have hret : Runs p (fun r => (.ret (moved r) : RankProg D (Nat → Int))) moved :=
      .ret fun _ _ => rfl
    apply (alltoallv_received (t := .int) (k := fun _ => .ret) (h.askFits hcount) hret).congr
    intro r hr
    exact (Prog.bind_ret _).symm
  have hloop : ∀ r, r < p → (s r).addReceived (requestOf p s aMem bMem r) (moved r) (data r) =
      (List.range p).foldlM (fun scalar q => (group (s q).part (s q).ghosts r).foldlM
        (fun scalar node => addAt scalar (ownerSlot s q node) (data q node)) scalar) (data r) := by
    intro r hr
    apply h.addReceived_eq aMem bMem hr
    intro k q node hk
    exact h.received_scalar data _ _ hr hk
  simp only [RefNode.localizeGhostInt_eq hp]
  refine (hrequests.bind_iff hp0).trans ((hmoved.bind_iff hp0).trans
    ((runs_lift_bind_iff hp0).trans (exists_congr fun sums => and_congr ?_ ?_)))
  · exact forall₂_congr fun r hr => by rw [hloop r hr]
  · constructor
    · intro hret
      exact (runs_ret_iff hp0 fun _ _ => rfl).mp hret
    · intro hout
      exact .ret fun r hr => congrArg _ (hout r hr).symm

/-- **`ref_node_localize_ghost_int` conserves contributions**, and it has a
result exactly when the requests are counted by a `REF_INT` and the partial
sums of the owners are in its range. -/
theorem localize_ghosts_conserves (hp : 0 < p) (h : Distributed p s) (hparts : Partitioned p s)
    (data : Nat → Nat → Int) (hdata : ∀ r, r < p → ∀ j, (s r).Live j → InRefInt (data r j))
    (mem : Nat → GhostMemory Int) :
    Yields p (fun r => (s r).localizeGhostInt p (data r) (mem r)) (Localized p s data) ↔
      p ≤ 1 ∨ (∀ r, r < p → requestCount p s r ≤ refIntMax) ∧ ∀ r, r < p → SumsFit p s data r := by
  by_cases hone : p ≤ 1
  · refine iff_of_true ?_ (Or.inl hone)
    obtain rfl : p = 1 := by omega
    have hrun : Runs 1 (fun r => (s r).localizeGhostInt 1 (data r) (mem r)) data :=
      .ret fun r _ => by rw [RefNode.localizeGhostInt, if_pos le_rfl]
    apply hrun.yields
    intro out hout
    apply h.localized_of hparts
    · intro r hr j hlive _
      obtain rfl : r = 0 := by omega
      rw [Finset.sum_range_one, (h.inv 0 hr).entryOf_live hlive, hout 0 hr]
    · intro r hr j hlive howned
      -- one rank has no ghosts
      have hpart := (h.owner r hr j (RefNode.mem_ghosts.mpr ⟨hlive, howned⟩)).1
      apply absurd _ howned
      rw [RefNode.Owned, h.rank r hr]
      omega
  rw [or_iff_right hone]
  have hadd := fun r (hr : r < p) => h.add_ranks hparts hr data
    (fun j hlive _ => hdata r hr j hlive) p le_rfl
  constructor
  · intro hyields
    obtain ⟨out, hrun⟩ := hyields.1
    have hcount : ∀ r, r < p → requestCount p s r ≤ refIntMax := by
      intro r hr
      by_contra hover
      have hlt : refIntMax < (requestOrder p s r).length := by
        rw [length_requestOrder]
        exact not_le.mp hover
      simp only [RefNode.localizeGhostInt_eq (not_le.mp hone)] at hrun
      exact not_runs_of_request_overflow hr hlt hrun
    refine ⟨hcount, fun r hr => ?_⟩
    obtain ⟨sums, hsums, -⟩ := (h.localize_runs_iff (by omega) hcount data mem out).mp hrun
    by_contra hover
    have herror := (hadd r hr).2 hover
    rw [hsums r hr] at herror
    cases herror
  · intro hfit
    obtain ⟨hcount, hsums⟩ := hfit
    have hrun := (h.localize_runs_iff (by omega) hcount data mem _).mpr
      ⟨_, fun r hr => (hadd r hr).1 (hsums r hr), fun _ _ => rfl⟩
    apply hrun.yields
    intro out hout
    apply h.localized_of hparts
    · intro r hr j hlive howned
      rw [hout r hr, RefNode.clearGhosts_apply,
        if_neg fun hghost => (RefNode.mem_ghosts.mp hghost).2 howned]
      exact h.sum_contributions hr data hlive howned
    · intro r hr j hlive howned
      rw [hout r hr, RefNode.clearGhosts_apply, if_pos (RefNode.mem_ghosts.mpr ⟨hlive, howned⟩)]

end Localize

/-! ## A node that every rank holds -/

theorem sharedStore_contribution (data : Nat → Nat → Int) (q j : Nat) :
    contribution (sharedStore 1) data 0 q j = if q ≠ 0 ∧ j = 0 then data q 0 else 0 := by
  have hinv : ∀ q, (sharedStore 1 q).Inv := fun q =>
    (sharedStore_distributed (p := q + 1) (by omega) (by decide)).inv q (by omega)
  have hentry : (sharedStore 1 q).entryOf (data q) 0 = data q 0 :=
    (hinv q).entryOf_live ((sharedStore_live 1 q 0).mpr (by decide)) (data q)
  have hown : (sharedStore 1 0).Owned j := rfl
  simp only [contribution, sharedStore_live]
  by_cases hj : j = 0
  · subst hj
    simp only [hown, Nat.one_pos, and_true]
    split
    · exact hentry
    · rfl
  · rw [if_neg (by omega), if_neg (by omega)]

theorem sharedStore_sums (data : Nat → Nat → Int) :
    SumsFit 2 (sharedStore 1) data 0 ↔ InRefInt (data 0 0) ∧ InRefInt (data 0 0 + data 1 0) := by
  constructor
  · intro h
    have hlive : (sharedStore 1 0).Live 0 := (sharedStore_live 1 0 0).mpr (by decide)
    have h0 := h 0 (by decide) 0 hlive rfl
    have h2 := h 2 le_rfl 0 hlive rfl
    simp only [sharedStore_contribution] at h0 h2
    simp [Finset.sum_range_succ] at h0 h2
    exact ⟨h0, h2⟩
  · intro h m hm j hlive _
    obtain rfl : j = 0 := by
      have := (sharedStore_live 1 0 j).mp hlive
      omega
    simp only [sharedStore_contribution]
    match m, hm with
    | 0, _ => simpa using h.1
    | 1, _ => simpa using h.1
    | 2, _ => simpa [Finset.sum_range_succ] using h.2

/-- Rank 1 gives its entry to rank 0. -/
theorem localize_ghosts_conserves_two_ranks :
    Yields 2 (fun r => (sharedStore 1 r).localizeGhostInt 2 (fun _ => (r + 5 : Int))
        ⟨fun _ => 0, fun _ => 0, fun _ => (0 : Int), fun _ => (0 : Int)⟩)
      (Localized 2 (sharedStore 1) fun r _ => (r + 5 : Int)) := by
  refine (localize_ghosts_conserves (by decide) (sharedStore_distributed (by decide) (by decide))
    (sharedStore_partitioned (by decide) (by decide)) _ ?_ _).mpr (Or.inr ⟨?_, ?_⟩)
  · intro r hr j _
    unfold InRefInt refIntMax
    omega
  · intro r _
    rw [sharedStore_requestCount]
    split <;> decide
  · intro r hr
    match r, hr with
    | 0, _ => exact (sharedStore_sums _).mpr (by decide)
    | 1, _ =>
        intro m _ j hlive howned
        cases howned

/-- Two entries whose sum is no `REF_INT`, and more ghosts than a `REF_INT`
counts. -/
theorem localize_ghosts_overflow :
    ¬ Yields 2 (fun r => (sharedStore 1 r).localizeGhostInt 2
        (fun _ => if r = 0 then 2147483647 else 1)
        ⟨fun _ => 0, fun _ => 0, fun _ => (0 : Int), fun _ => (0 : Int)⟩)
      (Localized 2 (sharedStore 1) fun r _ => if r = 0 then 2147483647 else 1) ∧
    ¬ Yields 3 (fun r => (sharedStore 1073741824 r).localizeGhostInt 3 (fun _ => 0)
        ⟨fun _ => 0, fun _ => 0, fun _ => (0 : Int), fun _ => (0 : Int)⟩)
      (Localized 3 (sharedStore 1073741824) fun _ _ => 0) := by
  constructor
  · rw [localize_ghosts_conserves (by decide) (sharedStore_distributed (by decide) (by decide))
      (sharedStore_partitioned (by decide) (by decide))]
    · intro h
      have hsums := (sharedStore_sums _).mp ((h.resolve_left (by decide)).2 0 (by decide))
      revert hsums
      decide
    · intro r hr j _
      split <;> decide
  · rw [localize_ghosts_conserves (by decide) (sharedStore_distributed (by decide) (by decide))
      (sharedStore_partitioned (by decide) (by decide))]
    · intro h
      have hcount := (h.resolve_left (by decide)).1 0 (by decide)
      rw [sharedStore_requestCount] at hcount
      revert hcount
      decide
    · intro r hr j _
      decide

end RefineMesh
