import Mathlib.Tactic
import RefineMesh.Status
import RefineMesh.FreeList

/-!
# Adjacency lists

`REF_ADJ_STRUCT` keeps one list of references for each node.  All lists share
one pool of items: each item is on the list of one node or on the blank list.
The items of the lists are linked by plain indices.

The `first` array grows to reach the node that is added; the growth is computed
in `REF_INT`, so a node within one hundred of the limit can overflow it.
-/

namespace RefineMesh

open SlotList

/-- `REF_ADJ_STRUCT`, the two fields of an item as two arrays. -/
structure RefAdj where
  nnode : Nat
  nitem : Nat
  first : Nat → Int
  itemNext : Nat → Int
  itemRef : Nat → Int
  blank : Int

/-- Items and cells are linked by their index. -/
def plainLink (k : Nat) : Int := k

@[simp] theorem toNat_plainLink (k : Nat) : (plainLink k).toNat = k := by simp [plainLink]

theorem plainLink_ne_refEmpty (k : Nat) : plainLink k ≠ refEmpty := natCast_ne_refEmpty k

namespace RefAdj

/-- `ref_adj_create`, over memory `mem` that the allocations do not clear. -/
def create (mem : RefAdj) : RefAdj :=
  { nnode := 10
    nitem := 20
    first := fun i => if i < 10 then refEmpty else mem.first i
    itemRef := fun i => if i < 20 then refEmpty else mem.itemRef i
    itemNext := linkFresh plainLink refEmpty 0 20 mem.itemNext
    blank := 0 }

/-- `ref_adj_first`. -/
def firstItem (a : RefAdj) (node : Int) : Int :=
  if 0 ≤ node ∧ node < a.nnode then a.first node.toNat else refEmpty

/-- The items that `each_ref_adj_node_item` visits. -/
def items (a : RefAdj) (node : Int) : List Nat :=
  walk Int.toNat refEmpty a.itemNext a.nitem (a.firstItem node)

/-- The references that `each_ref_adj_node_item_with_ref` visits. -/
def refs (a : RefAdj) (node : Int) : List Int := (a.items node).map a.itemRef

/-- The growth of the `first` array in `ref_adj_add`. -/
def growNodes (a : RefAdj) (node : Nat) : Except Status RefAdj :=
  if node < a.nnode then .ok a
  else
    let orig := a.nnode
    if refIntMax < 100 + (node - orig) then .error .undefined
    else
      let chunk := max (100 + (node - orig)) (orig / 2)
      let chunk := min chunk (refIntMax - orig)
      let nnode := orig + chunk
      .ok { a with
        nnode := nnode
        first := fun i => if orig ≤ i ∧ i < nnode then refEmpty else a.first i }

/-- The growth of the item pool in `ref_adj_add`. -/
def growItems (a : RefAdj) : Except Status RefAdj :=
  if a.blank ≠ refEmpty then .ok a
  else if a.nitem = refIntMax then .error .failure
  else
    let orig := a.nitem
    let chunk := max 100 (orig / 2)
    let chunk := min chunk (refIntMax - orig)
    let nitem := orig + chunk
    .ok { a with
      nitem := nitem
      itemRef := fun i => if orig ≤ i ∧ i < nitem then refEmpty else a.itemRef i
      itemNext := linkFresh plainLink refEmpty orig nitem a.itemNext
      blank := orig }

/-- The last lines of `ref_adj_add`: the first blank item leads the list of
`node`. -/
def link (a : RefAdj) (node : Nat) (reference : Int) : RefAdj :=
  let item := a.blank.toNat
  { a with
    blank := a.itemNext item
    itemRef := Function.update a.itemRef item reference
    itemNext := Function.update a.itemNext item (a.firstItem node)
    first := Function.update a.first node (plainLink item) }

/-- `ref_adj_add`.  The store into `first` is out of bounds when the capped
growth did not reach the node. -/
def add (a : RefAdj) (node reference : Int) : Except Status RefAdj :=
  if node < 0 then .error .invalid
  else do
    let a ← a.growNodes node.toNat
    let a ← a.growItems
    if a.nnode ≤ node.toNat then .error .undefined else .ok (a.link node.toNat reference)

/-- The loop of `ref_adj_remove` over the items of a node: the item that holds
the reference and the item before it. -/
def findTarget (itemRef : Nat → Int) (reference : Int) : List Nat → Int → Int × Int
  | [], parent => (refEmpty, parent)
  | item :: rest, parent =>
      if itemRef item = reference then (item, parent)
      else findTarget itemRef reference rest item

/-- The item goes back to the blank list. -/
def recycle (a : RefAdj) (item : Nat) : RefAdj :=
  { a with
    itemNext := Function.update a.itemNext item a.blank
    blank := item
    itemRef := Function.update a.itemRef item refEmpty }

/-- `ref_adj_remove`. -/
def remove (a : RefAdj) (node reference : Int) : Except Status RefAdj :=
  let item := a.firstItem node
  if item = refEmpty then .error .invalid
  else if reference = a.itemRef item.toNat then
    .ok (recycle { a with first := Function.update a.first node.toNat (a.itemNext item.toNat) }
      item.toNat)
  else
    let found := findTarget a.itemRef reference (a.items node) refEmpty
    if found.1 = refEmpty then .error .invalid
    else if found.2 = refEmpty then .error .failure
    else
      .ok (recycle { a with
        itemNext := Function.update a.itemNext found.2.toNat (a.itemNext found.1.toNat) }
        found.1.toNat)

/-! ## The invariant of the pool -/

/-- Every list ends, no item is on two lists or twice on one, and the blank
list has the rest of the pool. -/
structure AdjInv (a : RefAdj) : Prop where
  chain : ∀ v, Threads plainLink refEmpty a.itemNext (a.firstItem v) (a.items v)
  nodup : ∀ v, (a.items v).Nodup
  apart : ∀ v w, v ≠ w → ∀ k ∈ a.items v, k ∉ a.items w
  within : ∀ v, ∀ k ∈ a.items v, k < a.nitem
  blank : FreeList plainLink refEmpty a.itemNext a.blank
    (fun k => k < a.nitem ∧ ∀ v, k ∉ a.items v)
  nodesFit : a.nnode ≤ refIntMax
  itemsFit : a.nitem ≤ refIntMax

theorem items_eq_of_threads {a : RefAdj} {v : Int} {slots : List Nat}
    (hchain : Threads plainLink refEmpty a.itemNext (a.firstItem v) slots)
    (hnodup : slots.Nodup) (hwithin : ∀ k ∈ slots, k < a.nitem) : a.items v = slots := by
  have hlen : slots.length ≤ a.nitem := by
    have hsub : slots ⊆ List.range a.nitem := fun k hk => List.mem_range.mpr (hwithin k hk)
    simpa using (hnodup.subperm hsub).length_le
  exact hchain.walk_eq toNat_plainLink plainLink_ne_refEmpty hlen

/-- To keep the invariant it is enough to name the new lists. -/
theorem AdjInv.of_chains {a : RefAdj} (chains : Int → List Nat)
    (hchain : ∀ v, Threads plainLink refEmpty a.itemNext (a.firstItem v) (chains v))
    (hnodup : ∀ v, (chains v).Nodup)
    (hapart : ∀ v w, v ≠ w → ∀ k ∈ chains v, k ∉ chains w)
    (hwithin : ∀ v, ∀ k ∈ chains v, k < a.nitem)
    (hblank : FreeList plainLink refEmpty a.itemNext a.blank
      (fun k => k < a.nitem ∧ ∀ v, k ∉ chains v))
    (hnodes : a.nnode ≤ refIntMax) (hitems : a.nitem ≤ refIntMax) :
    a.AdjInv ∧ ∀ v, a.items v = chains v := by
  have heq : ∀ v, a.items v = chains v :=
    fun v => items_eq_of_threads (hchain v) (hnodup v) (hwithin v)
  refine ⟨⟨?_, ?_, ?_, ?_, ?_, hnodes, hitems⟩, heq⟩
  · intro v
    rw [heq v]
    exact hchain v
  · intro v
    rw [heq v]
    exact hnodup v
  · intro v w hvw
    rw [heq v, heq w]
    exact hapart v w hvw
  · intro v
    rw [heq v]
    exact hwithin v
  · simp only [heq]
    exact hblank

theorem items_eq_nil_of_first {a : RefAdj} {v : Int} (h : a.firstItem v = refEmpty) :
    a.items v = [] := by
  unfold items
  rw [h]
  cases a.nitem with
  | zero => rfl
  | succ k => simp [walk]

theorem AdjInv.items_eq_nil_iff {a : RefAdj} (h : a.AdjInv) (v : Int) :
    a.items v = [] ↔ a.firstItem v = refEmpty := by
  constructor
  · intro hnil
    have hchain := h.chain v
    rw [hnil] at hchain
    exact hchain
  · exact items_eq_nil_of_first

theorem create_inv (mem : RefAdj) : (create mem).AdjInv ∧ ∀ v, (create mem).items v = [] := by
  have hfirst : ∀ v, (create mem).firstItem v = refEmpty := by
    intro v
    unfold firstItem
    split
    · rename_i hv
      have hlt : v.toNat < 10 := by
        have := hv.2
        simp only [create] at this
        omega
      simp [create, hlt]
    · rfl
  apply AdjInv.of_chains (fun _ => [])
  · intro v
    exact hfirst v
  · intro v
    exact List.nodup_nil
  · intro v w _ k hk
    cases hk
  · intro v k hk
    cases hk
  · refine (freeList_linkFresh plainLink refEmpty mem.itemNext (show 0 < 20 by omega)).congr
      (fun k => ?_) (fun _ _ => rfl)
    simp [create]
  · simp [create, refIntMax]
  · simp [create, refIntMax]

/-! ## Adding a reference -/

/-- Growing the `first` array changes no list. -/
theorem growNodes_spec {a a' : RefAdj} {node : Nat} (h : a.AdjInv)
    (hrun : a.growNodes node = .ok a') :
    a'.AdjInv ∧ (∀ v, a'.items v = a.items v) ∧ a'.itemRef = a.itemRef ∧
      a'.nitem = a.nitem ∧ a'.blank = a.blank := by
  by_cases hnode : node < a.nnode
  · simp only [growNodes, hnode, if_true, Except.ok.injEq] at hrun
    subst hrun
    exact ⟨h, fun _ => rfl, rfl, rfl, rfl⟩
  by_cases hover : refIntMax < 100 + (node - a.nnode)
  · simp [growNodes, hnode, hover] at hrun
  simp only [growNodes, hnode, hover, if_false, Except.ok.injEq] at hrun
  have hfirst : ∀ v, a'.firstItem v = a.firstItem v := by
    intro v
    rw [← hrun]
    unfold firstItem
    by_cases hv : 0 ≤ v ∧ v < a.nnode
    · rw [if_pos hv, if_pos ⟨hv.1, by dsimp only; omega⟩]
      exact if_neg (by omega)
    · rw [if_neg hv]
      split
      · rename_i hv'
        dsimp only at hv'
        exact if_pos (by omega)
      · rfl
  have hfit := h.nodesFit
  have hspec := AdjInv.of_chains (a := a') a.items
    (fun v => by rw [hfirst v, ← hrun]; exact h.chain v) h.nodup h.apart
    (fun v k hk => by rw [← hrun]; exact h.within v k hk) (by rw [← hrun]; exact h.blank)
    (by rw [← hrun]; dsimp only; omega) (by rw [← hrun]; exact h.itemsFit)
  refine ⟨hspec.1, hspec.2, ?_, ?_, ?_⟩
  all_goals rw [← hrun]

/-- Growing the pool changes no list and makes a blank item. -/
theorem growItems_spec {a a' : RefAdj} (h : a.AdjInv) (hrun : a.growItems = .ok a') :
    a'.AdjInv ∧ a'.blank ≠ refEmpty ∧ (∀ v, a'.items v = a.items v) ∧
      (∀ v, a'.refs v = a.refs v) ∧ a'.nnode = a.nnode := by
  by_cases hblank : a.blank = refEmpty
  swap
  · simp only [growItems, hblank, ne_eq, not_false_iff, if_true, Except.ok.injEq] at hrun
    subst hrun
    exact ⟨h, hblank, fun _ => rfl, fun _ => rfl, rfl⟩
  by_cases hfull : a.nitem = refIntMax
  · simp [growItems, hblank, hfull] at hrun
  simp only [growItems, hblank, hfull, ne_eq, not_true, if_false, Except.ok.injEq] at hrun
  set nitem := a.nitem + min (max 100 (a.nitem / 2)) (refIntMax - a.nitem) with hnitem
  have hfit := h.itemsFit
  have hlt : a.nitem < nitem := by omega
  -- the old items are all in use
  have hused : ∀ k, k < a.nitem → ∃ v, k ∈ a.items v := by
    intro k hk
    by_contra hnone
    push Not at hnone
    exact (h.blank.eq_stop_iff plainLink_ne_refEmpty).mp hblank k ⟨hk, hnone⟩
  have hfirst : ∀ v, a'.firstItem v = a.firstItem v := by
    intro v
    rw [← hrun]
    rfl
  have hnext : ∀ k, k < a.nitem → a'.itemNext k = a.itemNext k := by
    intro k hk
    rw [← hrun]
    exact linkFresh_old hlt hk
  have hspec := AdjInv.of_chains (a := a') a.items
    (fun v => by
      rw [hfirst v]
      exact (h.chain v).congr fun k hk => hnext k (h.within v k hk))
    h.nodup h.apart
    (fun v k hk => by
      have := h.within v k hk
      rw [← hrun]
      exact this.trans hlt)
    (by
      have hseg := freeList_linkFresh plainLink refEmpty a.itemNext hlt
      rw [← hrun]
      refine hseg.congr (fun k => ?_) (fun _ _ => rfl)
      constructor
      · intro hk
        refine ⟨?_, hk.1⟩
        by_contra hlt'
        obtain ⟨v, hv⟩ := hused k (by omega)
        exact hk.2 v hv
      · intro hk
        refine ⟨hk.2, fun v hv => ?_⟩
        have := h.within v k hv
        omega)
    (by rw [← hrun]; exact h.nodesFit) (by rw [← hrun]; dsimp only; omega)
  refine ⟨hspec.1, ?_, hspec.2, fun v => ?_, by rw [← hrun]⟩
  · rw [← hrun]
    exact natCast_ne_refEmpty _
  · unfold refs
    rw [hspec.2 v]
    apply List.map_congr_left
    intro k hk
    have := h.within v k hk
    rw [← hrun]
    exact if_neg (by omega)

/-- Linking a blank item in front of a list. -/
theorem link_spec {a : RefAdj} {node : Nat} (h : a.AdjInv) (hblank : a.blank ≠ refEmpty)
    (hnode : node < a.nnode) (reference : Int) :
    (a.link node reference).AdjInv ∧
      (a.link node reference).refs node = reference :: a.refs node ∧
      ∀ w : Int, w ≠ node → (a.link node reference).refs w = a.refs w := by
  set a' := a.link node reference with ha'
  obtain ⟨k, hk, hfree, hrest⟩ := h.blank.pop hblank
  have hitem : a.blank.toNat = k := by rw [hk, toNat_plainLink]
  have hnext : a'.itemNext = Function.update a.itemNext k (a.firstItem node) := by
    rw [← hitem]
    rfl
  have hfirst : ∀ v : Int, a'.firstItem v = if v = node then plainLink k else a.firstItem v := by
    intro v
    by_cases hv : v = node
    · subst hv
      have hin : (0 : Int) ≤ (node : Int) ∧ (node : Int) < (a'.nnode : Int) :=
        ⟨by omega, by change (node : Int) < (a.nnode : Int); omega⟩
      rw [if_pos rfl, firstItem, if_pos hin, ← hitem]
      simp [ha', link]
    · rw [if_neg hv]
      unfold firstItem
      change (if 0 ≤ v ∧ v < (a.nnode : Int) then a'.first v.toNat else refEmpty) = _
      split
      · exact Function.update_of_ne (by omega) _ _
      · rfl
  have hspec := AdjInv.of_chains (a := a') (fun v => if v = node then k :: a.items v else a.items v)
    ?_ ?_ ?_ ?_ ?_ h.nodesFit h.itemsFit
  · refine ⟨hspec.1, ?_, fun w hw => ?_⟩
    · have href : ∀ j ∈ a.items node, a'.itemRef j = a.itemRef j := by
        intro j hj
        exact Function.update_of_ne (fun e => hfree.2 node (by rw [← hitem, ← e]; exact hj)) _ _
      unfold refs
      rw [hspec.2, if_pos rfl, List.map_cons, List.map_congr_left href]
      congr 1
      rw [← hitem]
      exact Function.update_self _ _ _
    · unfold refs
      rw [hspec.2, if_neg hw]
      apply List.map_congr_left
      intro j hj
      exact Function.update_of_ne (fun e => hfree.2 w (by rw [← hitem, ← e]; exact hj)) _ _
  · intro v
    rw [hfirst v, hnext]
    by_cases hv : v = node
    · subst hv
      simp only [if_true]
      refine ⟨rfl, ?_⟩
      rw [Function.update_self]
      exact (h.chain node).update (hfree.2 node)
    · simp only [hv, if_false]
      exact (h.chain v).update (hfree.2 v)
  · intro v
    split
    · exact List.nodup_cons.mpr ⟨hfree.2 v, h.nodup v⟩
    · exact h.nodup v
  · intro v w hvw j hj
    have happ := h.apart v w hvw j
    by_cases hv : v = node <;> by_cases hw : w = node
    · exact absurd (hv.trans hw.symm) hvw
    · simp only [hv, hw, if_true, if_false, List.mem_cons] at hj ⊢
      rcases hj with rfl | hj
      · exact hfree.2 w
      · exact happ (hv ▸ hj)
    · simp only [hv, hw, if_true, if_false, List.mem_cons, not_or] at hj ⊢
      refine ⟨fun e => hfree.2 v (e ▸ hj), ?_⟩
      rw [← hw]
      exact happ hj
    · simp only [hv, hw, if_false] at hj ⊢
      exact happ hj
  · intro v j hj
    change j < a.nitem
    by_cases hv : v = node
    · simp only [hv, if_true, List.mem_cons] at hj
      rcases hj with rfl | hj
      · exact hfree.1
      · exact h.within _ j hj
    · simp only [hv, if_false] at hj
      exact h.within v j hj
  · have hb : a'.blank = a.itemNext k := by rw [← hitem]; rfl
    rw [hb, hnext]
    refine hrest.congr (fun j => ?_) (fun j hj => Function.update_of_ne hj.2 _ _)
    change j < a.nitem ∧ _ ↔ _
    constructor
    · intro hj
      have hne : j ≠ k := fun e => by simpa [e] using hj.2 node
      refine ⟨⟨hj.1, fun v hv => hj.2 v ?_⟩, hne⟩
      split
      · exact List.mem_cons_of_mem _ hv
      · exact hv
    · intro hj
      refine ⟨hj.1.1, fun v hv => ?_⟩
      split at hv
      · rcases List.mem_cons.mp hv with heq | hmem
        · exact hj.2 heq
        · exact hj.1.2 v hmem
      · exact hj.1.2 v hv

/-- **`ref_adj_add`** puts the reference in front of the list of the node and
leaves the other lists alone. -/
theorem add_spec {a a' : RefAdj} {node reference : Int} (h : a.AdjInv)
    (hrun : a.add node reference = .ok a') :
    0 ≤ node ∧ a'.AdjInv ∧ a'.refs node = reference :: a.refs node ∧
      ∀ w, w ≠ node → a'.refs w = a.refs w := by
  by_cases hneg : node < 0
  · simp [add, hneg] at hrun
  simp only [add, hneg, if_false, bind_eq_ok] at hrun
  obtain ⟨a1, hnodes, a2, hitems, hret⟩ := hrun
  obtain ⟨h1, hitems1, href1, _, _⟩ := growNodes_spec h hnodes
  obtain ⟨h2, hblank, _, href2, _⟩ := growItems_spec h1 hitems
  have hrefs : ∀ v, a2.refs v = a.refs v := by
    intro v
    rw [href2 v, refs, refs, hitems1 v, href1]
  by_cases hout : a2.nnode ≤ node.toNat
  · simp [hout] at hret
  rw [if_neg hout, Except.ok.injEq] at hret
  obtain ⟨h3, hself, hother⟩ := link_spec h2 hblank (not_le.mp hout) reference
  have hcast : ((node.toNat : Nat) : Int) = node := Int.toNat_of_nonneg (not_lt.mp hneg)
  rw [hcast] at hself hother
  rw [hret] at h3 hself hother
  exact ⟨not_lt.mp hneg, h3, by rw [hself, hrefs], fun w hw => by rw [hother w hw, hrefs]⟩

theorem growNodes_ok {a : RefAdj} {node : Nat} (hfit : node + 100 ≤ refIntMax) :
    ∃ a', a.growNodes node = .ok a' ∧ node < a'.nnode ∧ a'.blank = a.blank ∧
      a'.itemNext = a.itemNext ∧ a'.nitem = a.nitem := by
  by_cases hnode : node < a.nnode
  · exact ⟨a, by simp [growNodes, hnode], hnode, rfl, rfl, rfl⟩
  · have hover : ¬ refIntMax < 100 + (node - a.nnode) := by omega
    simp only [growNodes, hnode, hover, if_false, Except.ok.injEq, exists_eq_left',
      and_self, and_true]
    omega

/-- With a blank item at hand, `ref_adj_add` succeeds on every node that is a
hundred away from the limit of `REF_INT`. -/
theorem add_ok {a : RefAdj} {node : Int} (reference : Int) (hblank : a.blank ≠ refEmpty)
    (hpos : 0 ≤ node) (hfit : node + 100 ≤ refIntMax) : ∃ a', a.add node reference = .ok a' := by
  obtain ⟨a1, hrun, hlt, hb, _, _⟩ := growNodes_ok (a := a) (show node.toNat + 100 ≤ refIntMax by omega)
  have hitems : a1.growItems = .ok a1 := by simp [growItems, hb, hblank]
  refine ⟨a1.link node.toNat reference, ?_⟩
  rw [add, if_neg (not_lt.mpr hpos), bind_eq_ok]
  refine ⟨a1, hrun, bind_eq_ok.mpr ⟨a1, hitems, ?_⟩⟩
  rw [if_neg (not_le.mpr hlt)]

/-- All items but `used` are on the blank list. -/
structure Stocked (a : RefAdj) (used : Nat) : Prop where
  inv : a.AdjInv
  stock : ∃ slots, Threads plainLink refEmpty a.itemNext a.blank slots ∧
    slots.length + used = a.nitem

theorem create_stocked (mem : RefAdj) : (create mem).Stocked 0 := by
  refine ⟨(create_inv mem).1, List.range' 0 (20 - 0), ?_, by simp [create]⟩
  exact threads_linkFresh plainLink refEmpty mem.itemNext (by omega)

/-- The pool can grow as long as not all of `REF_INT` is in use. -/
theorem Stocked.growItems {a : RefAdj} {used : Nat} (h : a.Stocked used)
    (hused : used < refIntMax) :
    ∃ a', a.growItems = .ok a' ∧ a'.Stocked used ∧ a'.blank ≠ refEmpty ∧ a'.nnode = a.nnode := by
  obtain ⟨slots, hthreads, hlen⟩ := h.stock
  by_cases hblank : a.blank = refEmpty
  · have hnil : slots = [] := by
      cases slots with
      | nil => rfl
      | cons k rest => exact absurd (hthreads.1.symm.trans hblank) (plainLink_ne_refEmpty k)
    subst hnil
    rw [List.length_nil, Nat.zero_add] at hlen
    have hnot : a.nitem ≠ refIntMax := by omega
    obtain ⟨a', hrun⟩ : ∃ a', a.growItems = .ok a' := by simp [RefAdj.growItems, hblank, hnot]
    have hspec := growItems_spec h.inv hrun
    refine ⟨a', hrun, ⟨hspec.1, ?_⟩, hspec.2.1, hspec.2.2.2.2⟩
    simp only [RefAdj.growItems, hblank, hnot, ne_eq, not_true, if_false, Except.ok.injEq] at hrun
    set nitem := a.nitem + min (max 100 (a.nitem / 2)) (refIntMax - a.nitem) with hnitem
    have hlt : a.nitem < nitem := by omega
    refine ⟨List.range' a.nitem (nitem - a.nitem), ?_, ?_⟩
    · rw [← hrun]
      exact threads_linkFresh plainLink refEmpty a.itemNext hlt
    · rw [← hrun, List.length_range']
      dsimp only
      omega
  · refine ⟨a, by simp [RefAdj.growItems, hblank], h, hblank, rfl⟩

/-- Adding a reference takes one item from the stock. -/
theorem Stocked.add {a : RefAdj} {used : Nat} (h : a.Stocked used) (hused : used < refIntMax)
    {node : Int} (reference : Int) (hpos : 0 ≤ node) (hfit : node + 100 ≤ refIntMax) :
    ∃ a', a.add node reference = .ok a' ∧ a'.Stocked (used + 1) := by
  obtain ⟨a1, hrun1, hlt, hb, hnext, hnitem⟩ :=
    growNodes_ok (a := a) (show node.toNat + 100 ≤ refIntMax by omega)
  have h1 : a1.Stocked used := by
    refine ⟨(growNodes_spec h.inv hrun1).1, ?_⟩
    rw [hb, hnext, hnitem]
    exact h.stock
  obtain ⟨a2, hrun2, h2, hblank, hnnode⟩ := h1.growItems hused
  have hlt2 : ¬ a2.nnode ≤ node.toNat := by omega
  refine ⟨a2.link node.toNat reference, ?_, (link_spec h2.inv hblank (by omega) reference).1, ?_⟩
  · rw [RefAdj.add, if_neg (not_lt.mpr hpos), bind_eq_ok]
    refine ⟨a1, hrun1, bind_eq_ok.mpr ⟨a2, hrun2, ?_⟩⟩
    rw [if_neg hlt2]
  · obtain ⟨slots, hthreads, hlen⟩ := h2.stock
    cases slots with
    | nil => exact absurd hthreads hblank
    | cons k rest =>
        have hk : a2.blank.toNat = k := by rw [hthreads.1, toNat_plainLink]
        refine ⟨rest, ?_, ?_⟩
        · change Threads plainLink refEmpty (Function.update a2.itemNext a2.blank.toNat _)
            (a2.itemNext a2.blank.toNat) rest
          rw [hk]
          -- the item that leaves does not come back on the blank list
          have hnot : k ∉ rest := by
            obtain ⟨free, hfree, hnodup, _⟩ := h2.inv.blank
            have hinj : Function.Injective plainLink := fun i j hij => by
              simpa [plainLink] using hij
            rw [Threads.unique hinj plainLink_ne_refEmpty hfree hthreads] at hnodup
            exact (List.nodup_cons.mp hnodup).1
          exact hthreads.2.update hnot
        · change rest.length + (used + 1) = a2.nitem
          rw [← hlen, List.length_cons]
          omega

/-! ## Removing a reference -/

theorem findTarget_spec (itemRef : Nat → Int) (reference : Int) :
    ∀ (l : List Nat) (parent : Int),
      (∃ before k after, l = before ++ k :: after ∧ itemRef k = reference ∧
          (∀ j ∈ before, itemRef j ≠ reference) ∧
          findTarget itemRef reference l parent =
            (plainLink k, (before.getLast?.map plainLink).getD parent)) ∨
        (∀ j ∈ l, itemRef j ≠ reference) ∧ (findTarget itemRef reference l parent).1 = refEmpty := by
  intro l
  induction l with
  | nil =>
      intro parent
      exact Or.inr ⟨fun j hj => absurd hj (List.not_mem_nil), rfl⟩
  | cons item rest ih =>
      intro parent
      by_cases hitem : itemRef item = reference
      · refine Or.inl ⟨[], item, rest, rfl, hitem, fun j hj => absurd hj (List.not_mem_nil), ?_⟩
        rw [findTarget, if_pos hitem]
        rfl
      · rw [findTarget, if_neg hitem]
        rcases ih item with ⟨before, k, after, hsplit, hk, hbefore, hfound⟩ | ⟨hnone, hempty⟩
        · refine Or.inl ⟨item :: before, k, after, by rw [hsplit]; rfl, hk, ?_, ?_⟩
          · intro j hj
            rcases List.mem_cons.mp hj with rfl | hj'
            · exact hitem
            · exact hbefore j hj'
          · rw [hfound, List.getLast?_cons]
            cases before.getLast? <;> rfl
        · refine Or.inr ⟨?_, hempty⟩
          intro j hj
          rcases List.mem_cons.mp hj with rfl | hj'
          · exact hitem
          · exact hnone j hj'

/-- An item taken off the list of one node and put on the blank list.  `next`
is the array of links in between. -/
theorem AdjInv.unlink {a : RefAdj} (h : a.AdjInv) (a' : RefAdj) (next : Nat → Int)
    {before after : List Nat} {k : Nat} {node : Int} (hsplit : a.items node = before ++ k :: after)
    (hnnode : a'.nnode = a.nnode) (hnitem : a'.nitem = a.nitem)
    (hfirst : ∀ v, v ≠ node → a'.firstItem v = a.firstItem v)
    (hchain : Threads plainLink refEmpty next (a'.firstItem node) (before ++ after))
    (hnext : ∀ j, j ∉ before → next j = a.itemNext j)
    (hrelink : a'.itemNext = Function.update next k a.blank) (hblank : a'.blank = plainLink k)
    (href : a'.itemRef = Function.update a.itemRef k refEmpty) :
    a'.AdjInv ∧ a'.refs node = (before ++ after).map a.itemRef ∧
      ∀ w, w ≠ node → a'.refs w = a.refs w := by
  have hmemk : k ∈ a.items node := by simp [hsplit]
  have hnd := h.nodup node
  rw [hsplit] at hnd
  have hknot : k ∉ before ++ after := by
    have := List.nodup_middle.mp hnd
    exact (List.nodup_cons.mp this).1
  have hsub : ∀ j ∈ before ++ after, j ∈ a.items node := by
    intro j hj
    rw [hsplit]
    rcases List.mem_append.mp hj with hj' | hj'
    · exact List.mem_append_left _ hj'
    · exact List.mem_append_right _ (List.mem_cons_of_mem _ hj')
  have hother : ∀ v, v ≠ node → ∀ j ∈ a.items v, j ∉ a.items node :=
    fun v hv => h.apart v node hv
  have hspec := AdjInv.of_chains (a := a') (fun v => if v = node then before ++ after else a.items v)
    ?_ ?_ ?_ ?_ ?_ (hnnode ▸ h.nodesFit) (hnitem ▸ h.itemsFit)
  · refine ⟨hspec.1, ?_, fun w hw => ?_⟩
    · unfold refs
      rw [hspec.2, if_pos rfl, href]
      apply List.map_congr_left
      intro j hj
      exact Function.update_of_ne (fun e => hknot (by rw [← e]; exact hj)) _ _
    · unfold refs
      rw [hspec.2, if_neg hw, href]
      apply List.map_congr_left
      intro j hj
      exact Function.update_of_ne (fun e => hother w hw j hj (by rw [e]; exact hmemk)) _ _
  · intro v
    rw [hrelink]
    by_cases hv : v = node
    · subst hv
      simp only [if_true]
      exact hchain.update hknot
    · simp only [hv, if_false]
      rw [hfirst v hv]
      have hkv : k ∉ a.items v := fun hk => hother v hv k hk hmemk
      refine Threads.update ((h.chain v).congr fun j hj => hnext j fun hb => ?_) hkv
      exact hother v hv j hj (hsub j (List.mem_append_left _ hb))
  · intro v
    split
    · exact (List.nodup_cons.mp (List.nodup_middle.mp hnd)).2
    · exact h.nodup v
  · intro v w hvw j hj
    by_cases hv : v = node <;> by_cases hw : w = node
    · exact absurd (hv.trans hw.symm) hvw
    · simp only [hv, hw, if_true, if_false] at hj ⊢
      exact fun hjw => hother w hw j hjw (hsub j hj)
    · simp only [hv, hw, if_true, if_false] at hj ⊢
      exact fun hjn => hother v hv j hj (hsub j hjn)
    · simp only [hv, hw, if_false] at hj ⊢
      exact h.apart v w hvw j hj
  · intro v j hj
    rw [hnitem]
    by_cases hv : v = node
    · simp only [hv, if_true] at hj
      exact h.within node j (hsub j hj)
    · simp only [hv, if_false] at hj
      exact h.within v j hj
  · rw [hblank, hrelink, hnitem]
    have hbl : FreeList plainLink refEmpty next a.blank
        (fun j => j < a.nitem ∧ ∀ v, j ∉ a.items v) :=
      h.blank.congr (fun _ => Iff.rfl) fun j hj =>
        hnext j fun hb => hj.2 node (hsub j (List.mem_append_left _ hb))
    refine (hbl.push (k := k) fun hfree => hfree.2 node hmemk).congr (fun j => ?_) (fun _ _ => rfl)
    constructor
    · intro hj
      by_cases hjk : j = k
      · exact Or.inr hjk
      · refine Or.inl ⟨hj.1, fun v hv => ?_⟩
        have hjv := hj.2 v
        by_cases hvn : v = node
        · subst hvn
          rw [hsplit] at hv
          simp only [if_true, List.mem_append, not_or] at hjv
          simp only [List.mem_append, List.mem_cons] at hv
          tauto
        · simp only [hvn, if_false] at hjv
          exact hjv hv
    · intro hj
      rcases hj with hj | rfl
      · refine ⟨hj.1, fun v hv => ?_⟩
        split at hv
        · exact hj.2 node (hsub j hv)
        · exact hj.2 v hv
      · refine ⟨h.within node j hmemk, fun v hv => ?_⟩
        split at hv
        · exact hknot hv
        · rename_i hvn
          exact hother v hvn j hv hmemk

theorem map_erase_first {itemRef : Nat → Int} {reference : Int} (before after : List Nat) {k : Nat}
    (hk : itemRef k = reference) (hbefore : ∀ j ∈ before, itemRef j ≠ reference) :
    ((before ++ k :: after).map itemRef).erase reference = (before ++ after).map itemRef := by
  have hnot : reference ∉ before.map itemRef := by
    intro hmem
    obtain ⟨j, hj, hjr⟩ := List.mem_map.mp hmem
    exact hbefore j hj hjr
  rw [List.map_append, List.erase_append_right _ hnot, List.map_cons, hk, List.erase_cons_head,
    List.map_append]

/-- **`ref_adj_remove`** takes the first occurrence of the reference off the
list of the node. -/
theorem remove_spec {a : RefAdj} {node reference : Int} (h : a.AdjInv)
    (hmem : reference ∈ a.refs node) :
    ∃ a', a.remove node reference = .ok a' ∧ a'.AdjInv ∧ a'.blank ≠ refEmpty ∧
      a'.refs node = (a.refs node).erase reference ∧ (∀ w, w ≠ node → a'.refs w = a.refs w) ∧
      a'.nnode = a.nnode ∧ a'.nitem = a.nitem := by
  have hne : a.items node ≠ [] := by
    intro hnil
    rw [refs, hnil] at hmem
    cases hmem
  have hfirst : a.firstItem node ≠ refEmpty := fun he => hne ((h.items_eq_nil_iff node).mpr he)
  have hin : 0 ≤ node ∧ node < a.nnode := by
    by_contra hout
    exact hfirst (if_neg hout)
  obtain ⟨item, rest, hitems⟩ := List.exists_cons_of_ne_nil hne
  have hchain := h.chain node
  rw [hitems] at hchain
  by_cases hhead : reference = a.itemRef item
  · set a' := recycle { a with first := Function.update a.first node.toNat (a.itemNext item) } item
      with ha'
    have hrun : a.remove node reference = .ok a' := by
      simp only [remove, hchain.1, plainLink_ne_refEmpty, if_false, toNat_plainLink, hhead, if_true,
        ha']
    have hspec := h.unlink a' a.itemNext (hitems.trans (List.nil_append _).symm) rfl rfl ?_ ?_
      (fun _ _ => rfl) rfl rfl rfl
    · refine ⟨a', hrun, hspec.1, natCast_ne_refEmpty _, ?_, hspec.2.2, rfl, rfl⟩
      rw [hspec.2.1, refs, hitems]
      exact (map_erase_first [] rest hhead.symm fun j hj => nomatch hj).symm
    · intro v hv
      unfold firstItem
      change (if 0 ≤ v ∧ v < (a.nnode : Int) then
        Function.update a.first node.toNat (a.itemNext item) v.toNat else refEmpty) = _
      split
      · rw [Function.update_of_ne (by omega)]
      · rfl
    · have hf : a'.firstItem node = a.itemNext item := by
        unfold firstItem
        change (if 0 ≤ node ∧ node < (a.nnode : Int) then
          Function.update a.first node.toNat (a.itemNext item) node.toNat else refEmpty) = _
        rw [if_pos hin, Function.update_self]
      rw [hf]
      exact hchain.2
  · rcases findTarget_spec a.itemRef reference (a.items node) refEmpty with
      ⟨before, k, after, hsplit, hk, hbefore, hfound⟩ | ⟨hnone, _⟩
    swap
    · obtain ⟨j, hj, hjr⟩ := List.mem_map.mp hmem
      exact absurd hjr (hnone j hj)
    -- the target is not the head, so the loop has a parent
    have hbne : before ≠ [] := by
      intro hnil
      rw [hnil, hitems] at hsplit
      simp only [List.nil_append, List.cons.injEq] at hsplit
      exact hhead (by rw [hsplit.1, hk])
    obtain ⟨init, p, hinit⟩ : ∃ init p, before = init ++ [p] :=
      ⟨before.dropLast, before.getLast hbne, (List.dropLast_append_getLast hbne).symm⟩
    rw [hinit, List.getLast?_concat] at hfound
    simp only [Option.map_some, Option.getD_some] at hfound
    set a' := recycle { a with itemNext := Function.update a.itemNext p (a.itemNext k) } k with ha'
    have hrun : a.remove node reference = .ok a' := by
      simp only [remove, if_false, hchain.1, toNat_plainLink, hhead, hfound,
        plainLink_ne_refEmpty, ha']
    have hthread := h.chain node
    have hnodup := h.nodup node
    rw [hsplit, hinit, List.append_assoc, List.singleton_append] at hthread hnodup
    have hspec := h.unlink a' (Function.update a.itemNext p (a.itemNext k)) hsplit rfl rfl
      (fun _ _ => rfl) ?_ ?_ rfl rfl rfl
    · refine ⟨a', hrun, hspec.1, natCast_ne_refEmpty _, ?_, hspec.2.2, rfl, rfl⟩
      rw [hspec.2.1, refs, hsplit]
      exact (map_erase_first before after hk hbefore).symm
    · rw [hinit, List.append_assoc, List.singleton_append]
      exact hthread.unlink hnodup
    · intro j hj
      refine Function.update_of_ne (fun e => hj ?_) _ _
      rw [e, hinit]
      simp

/-! ## Codes that are never returned -/

theorem add_plain {a : RefAdj} {node reference : Int} {e : Status}
    (h : a.add node reference = .error e) : e.Plain := by
  simp only [add] at h
  split at h
  · cases h
    decide
  · rcases bind_eq_error.mp h with h | ⟨a1, _, h⟩
    · simp only [growNodes] at h
      split at h
      · cases h
      · split at h <;> cases h
        decide
    · rcases bind_eq_error.mp h with h | ⟨a2, _, h⟩
      · simp only [growItems] at h
        split at h
        · cases h
        · split at h <;> cases h
          decide
      · split at h <;> cases h
        decide

theorem remove_plain {a : RefAdj} {node reference : Int} {e : Status}
    (h : a.remove node reference = .error e) : e.Plain := by
  simp only [remove] at h
  split at h
  · cases h
    decide
  · split at h
    · cases h
    · split at h
      · cases h
        decide
      · split at h <;> cases h
        decide

end RefAdj

end RefineMesh
