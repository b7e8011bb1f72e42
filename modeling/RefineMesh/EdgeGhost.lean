import Mathlib.Tactic
import RefineMesh.Edge
import RefineMesh.NodeGhostRuns
import RefineMesh.Requests

/-!
# Ghost edges

The exchanges of `ref_edge.c`.  An edge belongs to the part of its end with
the smaller global; the rank of that part answers for it.  Edges are matched by
the globals of their ends, so neither the numbering of a rank nor the
direction of an edge matters.
-/

namespace RefineMesh

open Segments Spmd

variable {D : Type}

namespace RefEdge

/-- The global of an end of an edge. -/
def endGlobal (s : RefEdge) (refNode : RefNode D) (edge node : Nat) : Int :=
  refNode.global (s.e2n edge node).toNat

/-- `ref_edge_part`. -/
def edgePart (s : RefEdge) (refNode : RefNode D) (edge : Nat) : Nat :=
  if s.endGlobal refNode edge 0 < s.endGlobal refNode edge 1 then
    refNode.part (s.e2n edge 0).toNat
  else refNode.part (s.e2n edge 1).toNat

/-- The edges of other ranks. -/
def ghostEdges (s : RefEdge) (refNode : RefNode D) : List Nat :=
  (List.range s.n).filter fun edge => s.edgePart refNode edge ≠ refNode.rank

/-- The lookups of the owner: two globals and the edge between them. -/
def findEdge (s : RefEdge) (refNode : RefNode D) (nodes : Nat → Int) : Except Status Nat := do
  let node0 ← refNode.nodeLocal (nodes 0)
  let node1 ← refNode.nodeLocal (nodes 1)
  s.edgeWith node0 node1

/-- The exchange of one entry for each edge. -/
def ghost (p : Nat) (s : RefEdge) (refNode : RefNode D) (t : RefType) (data : Nat → t.Elem D)
    (mem : RequestMemory (t.Elem D)) : RankProg D (Nat → t.Elem D) :=
  askOwners p 2 t (s.edgePart refNode) (s.ghostEdges refNode) (s.endGlobal refNode)
    (s.findEdge refNode) data mem

/-- `ref_edge_ghost_int`. -/
def ghostInt (p : Nat) (s : RefEdge) (refNode : RefNode D) (data : Nat → Int)
    (mem : RequestMemory Int) : RankProg D (Nat → Int) :=
  s.ghost p refNode .int data mem

/-- `ref_edge_ghost_glob`. -/
def ghostGlob (p : Nat) (s : RefEdge) (refNode : RefNode D) (data : Nat → Int)
    (mem : RequestMemory Int) : RankProg D (Nat → Int) :=
  s.ghost p refNode .long data mem

/-- `ref_edge_ghost_dbl`, with `dim` entries for each edge. -/
def ghostDbl (p : Nat) (s : RefEdge) (refNode : RefNode D) (dim : Nat) (data : Nat → D)
    (mem : RequestMemory D) : RankProg D (Nat → D) :=
  if p ≤ 1 then .ret data
  else
    (requests p 2 (s.edgePart refNode) (s.ghostEdges refNode) (s.endGlobal refNode) mem).bind
      fun req =>
        (Prog.lift ((List.range req.bTotal).foldlM (fun buf k => do
          let edge ← s.findEdge refNode fun l => req.bNodes (l + 2 * k)
          .ok (storeRecord dim (fun i => data (i + dim * edge)) k buf)) mem.bData)).bind
          fun bData =>
            (alltoallv p .dbl bData req.bSize req.aSize dim mem.aData).bind fun aData =>
              .ret ((List.range req.aTotal).foldl
                (fun data k => storeRecord dim (fun i => aData (i + dim * k)) (req.aItem k) data)
                data)

/-- The loop that takes the minimum with what the other ranks sent. -/
def minRequests (s : RefEdge) (refNode : RefNode D) (req : Requests) (bData data : Nat → Int) :
    Except Status (Nat → Int) :=
  (List.range req.bTotal).foldlM (fun data k => do
    let edge ← s.findEdge refNode fun l => req.bNodes (l + 2 * k)
    .ok (Function.update data edge (min (bData k) (data edge)))) data

/-- `ref_edge_ghost_min_int`. -/
def ghostMinInt (p : Nat) (s : RefEdge) (refNode : RefNode D) (data : Nat → Int)
    (mem : RequestMemory Int) : RankProg D (Nat → Int) :=
  if p ≤ 1 then .ret data
  else
    let dest := s.edgePart refNode
    let items := s.ghostEdges refNode
    (requests p 2 dest items (s.endGlobal refNode) mem).bind fun req =>
      let aData := packRecords 1 dest items (fun edge _ => data edge) mem.aData
      (alltoallv p .int aData req.aSize req.bSize 1 mem.bData).bind fun bData =>
        (Prog.lift (s.minRequests refNode req bData data)).bind fun data =>
          (Prog.lift (answerRequests 2 req (s.findEdge refNode) data bData)).bind fun bData =>
            replies p .int req bData data aData

/-- An edge by the globals of its ends. -/
def key (s : RefEdge) (refNode : RefNode D) (edge : Nat) : Sym2 Int :=
  s(s.endGlobal refNode edge 0, s.endGlobal refNode edge 1)

end RefEdge

/-! ## Distributed edges -/

/-- Stores of nodes and edges in which every node has one part on all ranks
and the rank of that part holds the edges it owns. -/
structure EdgesDistributed (p : Nat) (node : Nat → RefNode D) (edge : Nat → RefEdge) : Prop
    extends Partitioned p node where
  edges : ∀ r, r < p → (edge r).EdgeInv
  ends : ∀ r, r < p → ∀ e, e < (edge r).n → ∀ l, l < 2 →
    0 ≤ (edge r).e2n e l ∧ (node r).Live ((edge r).e2n e l).toNat
  owner : ∀ r, r < p → ∀ e, e < (edge r).n → (edge r).edgePart (node r) e < p ∧
    ∃ e', e' < (edge ((edge r).edgePart (node r) e)).n ∧
      (edge ((edge r).edgePart (node r) e)).key (node ((edge r).edgePart (node r) e)) e' =
        (edge r).key (node r) e

/-- The index of an edge of rank `r` on its owner. -/
def ownerEdge (node : Nat → RefNode D) (edge : Nat → RefEdge) (r e : Nat) : Nat :=
  let owner := (edge r).edgePart (node r) e
  match (edge owner).findEdge (node owner) ((edge r).endGlobal (node r) e) with
  | .ok e' => e'
  | .error _ => 0

/-- The owners of the edges, rank by rank. -/
def edgeOwners (node : Nat → RefNode D) (edge : Nat → RefEdge) (r : Nat) : Nat → Nat :=
  (edge r).edgePart (node r)

/-- The ghost edges, rank by rank. -/
def edgeGhosts (node : Nat → RefNode D) (edge : Nat → RefEdge) (r : Nat) : List Nat :=
  (edge r).ghostEdges (node r)

/-- What is sent for an edge, rank by rank. -/
def edgeRecords (node : Nat → RefNode D) (edge : Nat → RefEdge) (r : Nat) : Nat → Nat → Int :=
  (edge r).endGlobal (node r)

section Distributed

variable {p : Nat} {node : Nat → RefNode D} {edge : Nat → RefEdge}

/-- The lookup finds the edge with the two globals. -/
theorem EdgesDistributed.findEdge_ok (h : EdgesDistributed p node edge) {r e : Nat} (hr : r < p)
    (he : e < (edge r).n) (nodes : Nat → Int)
    (hkey : (edge r).key (node r) e = s(nodes 0, nodes 1)) :
    (edge r).findEdge (node r) nodes = .ok e := by
  obtain ⟨hpos0, hlive0⟩ := h.ends r hr e he 0 (by decide)
  obtain ⟨hpos1, hlive1⟩ := h.ends r hr e he 1 (by decide)
  have hlocal0 : (node r).nodeLocal ((edge r).endGlobal (node r) e 0) =
      .ok ((edge r).e2n e 0).toNat := ((h.inv r hr).nodeLocal_eq_ok_iff _ _).mpr ⟨hlive0, rfl⟩
  have hlocal1 : (node r).nodeLocal ((edge r).endGlobal (node r) e 1) =
      .ok ((edge r).e2n e 1).toNat := ((h.inv r hr).nodeLocal_eq_ok_iff _ _).mpr ⟨hlive1, rfl⟩
  have hjoins : (edge r).Joins e ((edge r).e2n e 0).toNat ((edge r).e2n e 1).toNat := by
    left
    omega
  rw [RefEdge.key, Sym2.eq_iff] at hkey
  rcases hkey with ⟨h0, h1⟩ | ⟨h0, h1⟩
  · rw [RefEdge.findEdge, ← h0, ← h1, hlocal0, hlocal1]
    exact RefEdge.edgeWith_of_joins (h.edges r hr) he hjoins
  · rw [RefEdge.findEdge, ← h0, ← h1, hlocal0, hlocal1]
    exact RefEdge.edgeWith_of_joins (h.edges r hr) he hjoins.symm

theorem EdgesDistributed.key_inj (h : EdgesDistributed p node edge) {r e e' : Nat} (hr : r < p)
    (he : e < (edge r).n) (he' : e' < (edge r).n)
    (hkey : (edge r).key (node r) e = (edge r).key (node r) e') : e = e' := by
  have h1 := h.findEdge_ok hr he ((edge r).endGlobal (node r) e) rfl
  have h2 := h.findEdge_ok hr he' ((edge r).endGlobal (node r) e) hkey.symm
  exact Except.ok.inj (h1.symm.trans h2)

/-- Copies of an edge have one owner. -/
theorem EdgesDistributed.edgePart_eq (h : EdgesDistributed p node edge) {r q e e' : Nat}
    (hr : r < p) (hq : q < p) (he : e < (edge r).n) (he' : e' < (edge q).n)
    (hkey : (edge r).key (node r) e = (edge q).key (node q) e') :
    (edge r).edgePart (node r) e = (edge q).edgePart (node q) e' := by
  have hpart : ∀ l l', l < 2 → l' < 2 →
      (edge r).endGlobal (node r) e l = (edge q).endGlobal (node q) e' l' →
      (node r).part ((edge r).e2n e l).toNat = (node q).part ((edge q).e2n e' l').toNat := by
    intro l l' hl hl' hglobal
    exact h.parts r q hr hq _ _ (h.ends r hr e he l hl).2 (h.ends q hq e' he' l' hl').2 hglobal
  rw [RefEdge.key, RefEdge.key, Sym2.eq_iff] at hkey
  unfold RefEdge.edgePart
  rcases hkey with ⟨h0, h1⟩ | ⟨h0, h1⟩
  · rw [h0, h1]
    split
    · exact hpart 0 0 (by decide) (by decide) h0
    · exact hpart 1 1 (by decide) (by decide) h1
  · rw [h0, h1]
    rcases lt_trichotomy ((edge q).endGlobal (node q) e' 0) ((edge q).endGlobal (node q) e' 1) with
      hlt | heq | hgt
    · rw [if_neg hlt.not_gt, if_pos hlt]
      exact hpart 1 0 (by decide) (by decide) h1
    · rw [if_neg (by omega), if_neg (by omega)]
      exact hpart 1 1 (by decide) (by decide) (by omega)
    · rw [if_pos hgt, if_neg hgt.not_gt]
      exact hpart 0 1 (by decide) (by decide) h0

theorem RefEdge.mem_ghostEdges {s : RefEdge} {refNode : RefNode D} {e : Nat} :
    e ∈ s.ghostEdges refNode ↔ e < s.n ∧ s.edgePart refNode e ≠ refNode.rank := by
  simp [RefEdge.ghostEdges]

theorem RefEdge.nodup_ghostEdges (s : RefEdge) (refNode : RefNode D) :
    (s.ghostEdges refNode).Nodup := List.nodup_range.filter _

/-- The owner's index of an edge. -/
theorem EdgesDistributed.ownerEdge_spec (h : EdgesDistributed p node edge) {r e : Nat} (hr : r < p)
    (he : e < (edge r).n) :
    ownerEdge node edge r e < (edge ((edge r).edgePart (node r) e)).n ∧
      (edge ((edge r).edgePart (node r) e)).key (node ((edge r).edgePart (node r) e))
        (ownerEdge node edge r e) = (edge r).key (node r) e := by
  obtain ⟨hpart, e', he', hkey⟩ := h.owner r hr e he
  have hfind := h.findEdge_ok hpart he' ((edge r).endGlobal (node r) e) hkey
  have hslot : ownerEdge node edge r e = e' := by
    simp only [ownerEdge, hfind]
  rw [hslot]
  exact ⟨he', hkey⟩

theorem EdgesDistributed.dest_lt (h : EdgesDistributed p node edge) :
    ∀ q, q < p → ∀ e ∈ edgeGhosts node edge q, edgeOwners node edge q e < p := by
  intro q hq e he
  exact (h.owner q hq e (RefEdge.mem_ghostEdges.mp he).1).1

theorem EdgesDistributed.finds (h : EdgesDistributed p node edge) :
    Finds p 2 (edgeOwners node edge) (edgeGhosts node edge) (edgeRecords node edge)
      (fun r => (edge r).findEdge (node r)) (ownerEdge node edge) := by
  intro r hr e he nodes hnodes
  have hlt := (RefEdge.mem_ghostEdges.mp he).1
  obtain ⟨hslot, hkey⟩ := h.ownerEdge_spec hr hlt
  apply h.findEdge_ok (h.dest_lt r hr e he) hslot
  rw [edgeOwners, hkey, hnodes 0 (by decide), hnodes 1 (by decide)]
  rfl

/-- The numbers of edges that a rank asks for and is asked for, times the two
globals of an edge, fit a `REF_INT`. -/
def EdgesFit (p : Nat) (node : Nat → RefNode D) (edge : Nat → RefEdge) : Prop :=
  ∀ r, r < p → 2 * ((edge r).ghostEdges (node r)).length ≤ refIntMax ∧
    2 * ∑ q ∈ Finset.range p,
      (group ((edge q).edgePart (node q)) ((edge q).ghostEdges (node q)) r).length ≤ refIntMax

theorem EdgesDistributed.askFits (h : EdgesDistributed p node edge) (hfit : EdgesFit p node edge) :
    AskFits p 2 (edgeOwners node edge) (edgeGhosts node edge) := by
  refine ⟨by decide, fun r hr => ?_, fun r hr => ?_⟩
  · rw [length_askOrder (h.dest_lt r hr) (RefEdge.nodup_ghostEdges _ _)]
    exact (hfit r hr).1
  · rw [length_askedOrder]
    exact (hfit r hr).2

/-- Every edge has the value of its owner. -/
def OwnersValue {E : Type} (p : Nat) (node : Nat → RefNode D) (edge : Nat → RefEdge)
    (data out : Nat → Nat → E) : Prop :=
  ∀ r, r < p → ∀ e, e < (edge r).n → ∀ e', e' < (edge ((edge r).edgePart (node r) e)).n →
    (edge ((edge r).edgePart (node r) e)).key (node ((edge r).edgePart (node r) e)) e' =
      (edge r).key (node r) e →
    out r e = data ((edge r).edgePart (node r) e) e'

/-- The values of all copies of an edge. -/
def copies (p : Nat) (node : Nat → RefNode D) (edge : Nat → RefEdge) (data : Nat → Nat → Int)
    (k : Sym2 Int) : Set Int :=
  {v | ∃ q e, q < p ∧ e < (edge q).n ∧ (edge q).key (node q) e = k ∧ data q e = v}

/-- Every edge has the least of its values. -/
def LeastValue (p : Nat) (node : Nat → RefNode D) (edge : Nat → RefEdge)
    (data out : Nat → Nat → Int) : Prop :=
  ∀ r, r < p → ∀ e, e < (edge r).n →
    IsLeast (copies p node edge data ((edge r).key (node r) e)) (out r e)

/-- What the exchange leaves on an edge, by its owner. -/
theorem EdgesDistributed.fromOwners_eq {E : Type} (h : EdgesDistributed p node edge)
    (data : Nat → Nat → E) {r e e' : Nat} (hr : r < p) (he : e < (edge r).n)
    (he' : e' < (edge ((edge r).edgePart (node r) e)).n)
    (hkey : (edge ((edge r).edgePart (node r) e)).key (node ((edge r).edgePart (node r) e)) e' =
      (edge r).key (node r) e) :
    fromOwners (edgeOwners node edge) (edgeGhosts node edge) (ownerEdge node edge) data r e = data ((edge r).edgePart (node r) e) e' := by
  obtain ⟨hslot, hslotKey⟩ := h.ownerEdge_spec hr he
  have hpart := (h.owner r hr e he).1
  rw [fromOwners]
  split
  · rw [edgeOwners, h.key_inj hpart hslot he' (hslotKey.trans hkey.symm)]
  · rename_i hown
    rw [edgeGhosts, RefEdge.mem_ghostEdges, h.rank r hr] at hown
    have howner : (edge r).edgePart (node r) e = r := by
      by_contra hne
      exact hown ⟨he, hne⟩
    rw [howner] at he' hkey ⊢
    rw [h.key_inj hr he' he hkey]

/-- The exchange of the owners' values. -/
theorem EdgesDistributed.ghost_yields (h : EdgesDistributed p node edge) (hp : 0 < p)
    (hfit : p ≤ 1 ∨ EdgesFit p node edge) (t : RefType) (data : Nat → Nat → t.Elem D)
    (mem : Nat → RequestMemory (t.Elem D)) :
    Yields p (fun r => (edge r).ghost p (node r) t (data r) (mem r))
      (OwnersValue p node edge data) := by
  by_cases hone : p ≤ 1
  · obtain rfl : p = 1 := by omega
    have hrun : Runs 1 (fun r => (edge r).ghost 1 (node r) t (data r) (mem r)) data :=
      .ret fun r _ => by rw [RefEdge.ghost, askOwners, if_pos le_rfl]
    apply hrun.yields
    intro out hout r hr e he e' he' hkey
    have howner : (edge r).edgePart (node r) e = r := by
      have := (h.owner r hr e he).1
      omega
    rw [howner] at he' hkey ⊢
    rw [hout r hr, h.key_inj hr he' he hkey]
  · have hrun := askOwners_run mem (by omega) (h.askFits (hfit.resolve_left hone))
      h.dest_lt (fun r _ => RefEdge.nodup_ghostEdges _ _) h.finds data
    apply hrun.yields
    intro out hout r hr e he e' he' hkey
    rw [hout r hr]
    exact h.fromOwners_eq data hr he he' hkey

/-- A program goes on after the exchange only when the requests fit. -/
theorem EdgesDistributed.fit_of_runs {α : Type} (h : EdgesDistributed p node edge) {t : RefType}
    {data : Nat → Nat → t.Elem D} {mem : Nat → RequestMemory (t.Elem D)}
    {f : Nat → (Nat → t.Elem D) → RankProg D α} {out : Nat → α}
    (hrun : Runs p (fun r => ((edge r).ghost p (node r) t (data r) (mem r)).bind (f r)) out) :
    p ≤ 1 ∨ EdgesFit p node edge := by
  by_cases hone : p ≤ 1
  · exact Or.inl hone
  · right
    have hask : AskFits p 2 (edgeOwners node edge) (edgeGhosts node edge) :=
      askFits_of_runs (by decide) (by omega) hrun
    intro r hr
    have hasks := hask.asks r hr
    have hasked := hask.asked r hr
    rw [length_askOrder (h.dest_lt r hr) (RefEdge.nodup_ghostEdges _ _)] at hasks
    rw [length_askedOrder] at hasked
    exact ⟨hasks, hasked⟩

/-- The loop of the owner over what the other ranks sent. -/
theorem EdgesDistributed.minRequests_ok (h : EdgesDistributed p node edge)
    (mem : Nat → RequestMemory Int) {data : Nat → Nat → Int} {bData : Nat → Int} {r : Nat}
    (hr : r < p)
    (hb : ∀ k q e, (askedOrder p (edgeOwners node edge) (edgeGhosts node edge) r)[k]? =
      some (q, e) → bData k = data q e) :
    ∃ least, (edge r).minRequests (node r) (requestsOf p 2 (edgeOwners node edge)
        (edgeGhosts node edge) (edgeRecords node edge) mem r) bData (data r) = .ok least ∧
      ∀ e, e < (edge r).n → (edge r).edgePart (node r) e = r →
        IsLeast (copies p node edge data ((edge r).key (node r) e)) (least e) := by
  refine ⟨_, foldlM_requests h.dest_lt h.finds hr
    (fun data k e => Function.update data e (min (bData k) (data e))) (data r), ?_⟩
  intro e he hown
  set asked := askedOrder p (edgeOwners node edge) (edgeGhosts node edge) r with hasked
  set slot : Nat → Nat := fun k =>
    asked[k]?.elim 0 fun ask => ownerEdge node edge ask.1 ask.2 with hslot
  have hloop := ArrayLoop.foldl_min slot bData (List.range asked.length) (data r) e
  have hset : insert (data r e) {v | ∃ k ∈ List.range asked.length, slot k = e ∧ bData k = v} =
      copies p node edge data ((edge r).key (node r) e) := by
    ext v
    constructor
    · intro hv
      rcases hv with rfl | ⟨k, hk, hke, rfl⟩
      · exact ⟨r, e, hr, he, rfl, rfl⟩
      · obtain ⟨⟨q, e'⟩, hask⟩ : ∃ ask, asked[k]? = some ask :=
          ⟨_, List.getElem?_eq_getElem (List.mem_range.mp hk)⟩
        obtain ⟨hq, hghost, hpart⟩ := mem_askedOrder.mp (List.mem_of_getElem? hask)
        have he' := (RefEdge.mem_ghostEdges.mp hghost).1
        have hkey := (h.ownerEdge_spec hq he').2
        simp only [hslot, hask, Option.elim_some] at hke
        simp only [edgeOwners] at hpart
        rw [hpart, hke] at hkey
        exact ⟨q, e', hq, he', hkey.symm, (hb k q e' hask).symm⟩
    · intro hv
      obtain ⟨q, e', hq, he', hkey, rfl⟩ := hv
      have hpart : (edge q).edgePart (node q) e' = r := by
        rw [h.edgePart_eq hq hr he' he hkey, hown]
      by_cases hqr : q = r
      · subst hqr
        rw [h.key_inj hq he' he hkey]
        exact Set.mem_insert _ _
      · have hghost : e' ∈ (edge q).ghostEdges (node q) := by
          rw [RefEdge.mem_ghostEdges, h.rank q hq, hpart]
          exact ⟨he', fun e => hqr e.symm⟩
        obtain ⟨k, hk⟩ := List.mem_iff_getElem?.mp
          (show (q, e') ∈ asked from mem_askedOrder.mpr ⟨hq, hghost, hpart⟩)
        refine Or.inr ⟨k, List.mem_range.mpr (List.getElem?_eq_some_iff.mp hk).1, ?_, hb k q e' hk⟩
        obtain ⟨hlt, hslotKey⟩ := h.ownerEdge_spec hq he'
        rw [hpart] at hlt hslotKey
        simp only [hslot, hk, Option.elim_some]
        exact h.key_inj hr hlt he (hslotKey.trans hkey)
  rw [hset] at hloop
  exact hloop

/-- The exchange of the least values. -/
theorem EdgesDistributed.ghostMinInt_yields (h : EdgesDistributed p node edge) (hp : 0 < p)
    (hfit : p ≤ 1 ∨ EdgesFit p node edge) (data : Nat → Nat → Int)
    (mem : Nat → RequestMemory Int) :
    Yields p (fun r => (edge r).ghostMinInt p (node r) (data r) (mem r))
      (LeastValue p node edge data) := by
  by_cases hone : p ≤ 1
  · obtain rfl : p = 1 := by omega
    have hrun : Runs 1 (fun r => (edge r).ghostMinInt 1 (node r) (data r) (mem r)) data :=
      .ret fun r _ => by rw [RefEdge.ghostMinInt, if_pos le_rfl]
    apply hrun.yields
    intro out hout r hr e he
    rw [hout r hr]
    refine ⟨⟨r, e, hr, he, rfl, rfl⟩, ?_⟩
    rintro v ⟨q, e', hq, he', hkey, rfl⟩
    obtain rfl : q = r := by omega
    rw [h.key_inj hq he' he hkey]
  · have hask := h.askFits (hfit.resolve_left hone)
    let aData := fun r => packRecords 1 (edgeOwners node edge r) (edgeGhosts node edge r)
      (fun e _ => data r e) (mem r).aData
    let bData := received p 1 (edgeOwners node edge) (edgeGhosts node edge) aData
      fun r => (mem r).bData
    have hb : ∀ r, r < p → ∀ k q e,
        (askedOrder p (edgeOwners node edge) (edgeGhosts node edge) r)[k]? = some (q, e) →
        bData r k = data q e := by
      intro r hr k q e hk
      have hplace : bData r (0 + 1 * k) = data q e :=
        received_apply (fun q e _ => data q e) h.dest_lt hr hk Nat.one_pos _ _
      rwa [Nat.zero_add, Nat.one_mul] at hplace
    choose! least hmin hleast using fun r (hr : r < p) => h.minRequests_ok mem hr (hb r hr)
    choose! buf hanswer hbuf using fun r (hr : r < p) =>
      answerRequests_ok mem h.dest_lt h.finds hr (least r) (bData r)
    have hreplies := replies_run (D := D) (edgeRecords node edge) (t := .int)
      (fun r => { mem r with aData := aData r }) hask h.dest_lt
      (fun r _ => RefEdge.nodup_ghostEdges _ _) hbuf
    have hrun : Runs p (fun r => (edge r).ghostMinInt p (node r) (data r) (mem r))
        (fromOwners (edgeOwners node edge) (edgeGhosts node edge) (ownerEdge node edge) least) := by
      refine Runs.congr ((requests_run (edgeRecords node edge) hask mem).bind
        (f := fun r req => (alltoallv p .int (aData r) req.aSize req.bSize 1 (mem r).bData).bind
          fun bData => (Prog.lift ((edge r).minRequests (node r) req bData (data r))).bind
            fun data => (Prog.lift (answerRequests 2 req ((edge r).findEdge (node r)) data
              bData)).bind fun bData => replies p .int req bData data (aData r)) ?_) ?_
      · apply alltoallv_received hask.one
        apply hreplies.congr
        intro r hr
        change (Prog.lift ((edge r).minRequests (node r) _ (bData r) (data r))).bind _ = _
        rw [hmin r hr, Prog.lift_ok, Prog.ret_bind]
        change (Prog.lift (answerRequests 2 _ _ (least r) (bData r))).bind _ = _
        rw [hanswer r hr]
        rfl
      · intro r hr
        rw [RefEdge.ghostMinInt, if_neg hone]
        rfl
    apply hrun.yields
    intro out hout r hr e he
    obtain ⟨hpart, e', he', hkey⟩ := h.owner r hr e he
    rw [hout r hr, h.fromOwners_eq least hr he he' hkey, ← hkey]
    apply hleast _ hpart e' he'
    exact h.edgePart_eq hpart hr he' he hkey

end Distributed

/-- **Copies of an edge agree.**  `ref_edge_ghost_min_int` leaves the least of
all values of an edge on every rank and `ref_edge_ghost_int` the owner's
value. -/
theorem edge_ghosts_agree {p : Nat} {node : Nat → RefNode D} {edge : Nat → RefEdge} (hp : 0 < p)
    (h : EdgesDistributed p node edge) (hfit : p ≤ 1 ∨ EdgesFit p node edge)
    (data : Nat → Nat → Int) (mem : Nat → RequestMemory Int) :
    Yields p (fun r => (edge r).ghostMinInt p (node r) (data r) (mem r))
      (LeastValue p node edge data) ∧
    Yields p (fun r => (edge r).ghostInt p (node r) (data r) (mem r))
      (OwnersValue p node edge data) :=
  ⟨h.ghostMinInt_yields hp hfit data mem, h.ghost_yields hp hfit .int data mem⟩

/-! ## Edges that every rank holds -/

/-- One triangle. -/
def triRow (row : List Int) : CellType → List (List Int)
  | .tri => [row]
  | _ => []

/-- The edges of one triangle. -/
def triEdges (row : List Int) : RefEdge :=
  (RefEdge.create noEdges (RefGrid.ofRows (sharedStore 3 0) noGeom (triRow row))).toOption.getD
    noEdges

/-- Rank 0 and the other ranks go around the triangle in opposite directions. -/
def sharedEdges (r : Nat) : RefEdge := if r = 0 then triEdges [0, 1, 2, 7] else triEdges [1, 0, 2, 7]

theorem triEdges_inv {row : List Int}
    (h : succeeds (RefEdge.create noEdges
      (RefGrid.ofRows (sharedStore 3 0) noGeom (triRow row))) = true) : (triEdges row).EdgeInv := by
  obtain ⟨s, hrun⟩ := exists_ok_of_succeeds h
  have hs : triEdges row = s := by rw [triEdges, hrun]; rfl
  rw [hs]
  exact (RefEdge.create_covers hrun).inv

theorem sharedEdges_part (r e : Nat) : (sharedEdges r).edgePart (sharedStore 3 r) e = 0 := by
  unfold RefEdge.edgePart
  split <;> rfl

theorem sharedEdges_distributed {p : Nat} (hp : 0 < p) :
    EdgesDistributed p (sharedStore 3) sharedEdges := by
  have hstores : Distributed p (sharedStore 3) := sharedStore_distributed hp (by decide)
  have hn : ∀ r, (sharedEdges r).n = 3 := by
    intro r
    unfold sharedEdges
    split <;> decide
  have hends : ∀ r, ∀ e < 3, ∀ l < 2,
      0 ≤ (sharedEdges r).e2n e l ∧ ((sharedEdges r).e2n e l).toNat < 3 := by
    intro r
    unfold sharedEdges
    split <;> decide
  refine { inv := hstores.inv, rank := hstores.rank, parts := ?_, edges := ?_, ends := ?_,
           owner := ?_ }
  · intro r q _ _ i j _ _ _
    rfl
  · intro r _
    unfold sharedEdges
    split <;> exact triEdges_inv (by decide)
  · intro r _ e he l hl
    rw [hn] at he
    exact ⟨(hends r e he l hl).1, (sharedStore_live _ _ _).mpr (hends r e he l hl).2⟩
  · intro r _ e he
    rw [hn] at he
    rw [sharedEdges_part]
    refine ⟨hp, ?_⟩
    by_cases hr : r = 0
    · subst hr
      exact ⟨e, by rw [hn]; exact he, rfl⟩
    · have hmatch : ∀ e < 3, ∃ e' < 3, (triEdges [0, 1, 2, 7]).key (sharedStore 3 0) e' =
          (triEdges [1, 0, 2, 7]).key (sharedStore 3 0) e := by decide
      obtain ⟨e', he', hkey⟩ := hmatch e he
      refine ⟨e', by rw [hn]; exact he', ?_⟩
      simp only [sharedEdges, hr, if_true, if_false]
      exact hkey

theorem sharedEdges_ghosts (r : Nat) :
    (sharedEdges r).ghostEdges (sharedStore 3 r) = if r = 0 then [] else List.range 3 := by
  have hn : (sharedEdges r).n = 3 := by
    unfold sharedEdges
    split <;> decide
  rw [RefEdge.ghostEdges, hn]
  simp only [sharedEdges_part]
  by_cases hr : r = 0
  · subst hr
    rfl
  · have hrank : ¬ 0 = (sharedStore 3 r).rank := fun e => hr e.symm
    simp [hr, hrank]

/-- Rank 0 is asked for its three edges by every other rank. -/
theorem sharedEdges_asked (p r : Nat) :
    ∑ q ∈ Finset.range (p + 1), (group ((sharedEdges q).edgePart (sharedStore 3 q))
      ((sharedEdges q).ghostEdges (sharedStore 3 q)) r).length = if r = 0 then p * 3 else 0 := by
  apply asked_of_shared sharedEdges_part
  · rw [sharedEdges_ghosts, if_pos rfl]
  · intro q hq
    rw [sharedEdges_ghosts, if_neg hq]
    rfl

/-- Two ranks: each edge gets the least of two values, then the owner's. -/
theorem edge_ghosts_agree_two_ranks :
    Yields 2 (fun r => (sharedEdges r).ghostMinInt 2 (sharedStore 3 r)
        (fun e => (3 * r - e : Int)) ⟨fun _ => 0, fun _ => 0, fun _ => 0, fun _ => 0, fun _ => 0⟩)
      (LeastValue 2 (sharedStore 3) sharedEdges fun r e => (3 * r - e : Int)) ∧
    Yields 2 (fun r => (sharedEdges r).ghostInt 2 (sharedStore 3 r)
        (fun e => (3 * r - e : Int)) ⟨fun _ => 0, fun _ => 0, fun _ => 0, fun _ => 0, fun _ => 0⟩)
      (OwnersValue 2 (sharedStore 3) sharedEdges fun r e => (3 * r - e : Int)) := by
  apply edge_ghosts_agree (by decide) (sharedEdges_distributed (by decide))
  right
  intro r _
  rw [sharedEdges_ghosts, sharedEdges_asked 1]
  by_cases hr : r = 0
  · simp [hr, refIntMax]
  · simp [hr, refIntMax]

/-- With 357913943 ranks around three edges the owner's `2 * b_total` does not
fit. -/
theorem edge_ghosts_agree_overflow :
    ¬ ∀ (p : Nat) (node : Nat → RefNode Int) (edge : Nat → RefEdge) (data : Nat → Nat → Int)
      (mem : Nat → RequestMemory Int), 0 < p → EdgesDistributed p node edge →
      Yields p (fun r => (edge r).ghostInt p (node r) (data r) (mem r))
        (OwnersValue p node edge data) := by
  intro h
  obtain ⟨⟨out, hrun⟩, _⟩ := h (357913942 + 1) (sharedStore 3) sharedEdges (fun _ _ => 0)
    (fun _ => ⟨fun _ => 0, fun _ => 0, fun _ => 0, fun _ => 0, fun _ => 0⟩) (by decide)
    (sharedEdges_distributed (by decide))
  have hover : refIntMax < 2 * (askedOrder (357913942 + 1) (edgeOwners (sharedStore 3) sharedEdges)
      (edgeGhosts (sharedStore 3) sharedEdges) 0).length := by
    rw [length_askedOrder]
    exact (show refIntMax < 2 * (357913942 * 3) by decide).trans_eq
      (congrArg _ (sharedEdges_asked 357913942 0).symm)
  exact not_runs_askOwners_of_overflow (t := .int) (by decide) (by decide) hover hrun

end RefineMesh
