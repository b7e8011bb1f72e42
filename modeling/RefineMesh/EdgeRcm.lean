import Mathlib.Tactic
import RefineMesh.GridParts
import RefineMesh.Pack

/-!
# Reordering

`ref_edge_rcm` numbers the nodes along the edges: it starts at a node of
smallest degree, queues the neighbors of each node it takes and reverses the
order at the end.  It never starts at a node without edges, so it does not come
to an end when the grid has one.
-/

namespace RefineMesh

open ArrayLoop

variable {D : Type}

/-- The arrays of `ref_edge_rcm`; `queue` has the `nqueue` pairs of a node and
its degree. -/
structure Rcm where
  o2n : Nat → Int
  n2o : Nat → Nat
  ndone : Nat
  queue : List (Nat × Nat)

namespace RefEdge

/-- `ref_adj_degree`. -/
def degree (s : RefEdge) (node : Int) : Nat := (s.adj.refs node).length

/-- `ref_edge_min_degree_node`: `min_degree_node` and `min_degree`. -/
def minDegreeNode (s : RefEdge) (refNode : RefNode D) (o2n : Nat → Int) : Int × Int :=
  refNode.validNodes.foldl (fun best node =>
    if o2n node ≠ refEmpty then best
    else if 0 < s.degree node then
      if best.1 = refEmpty ∨ (s.degree node : Int) < best.2 then ((node : Int), (s.degree node : Int))
      else best
    else best) (refEmpty, refEmpty)

/-- `ref_edge_rcm_queue_node`: `queue` and `nhere`. -/
def rcmQueueNode (node degree : Nat) (acc : List (Nat × Nat) × Nat) : List (Nat × Nat) × Nat :=
  let insertPoint := ((List.range acc.2).find? fun location =>
    (acc.1.getD location (0, 0)).2 < degree).getD acc.2
  (acc.1.insertIdx insertPoint (node, degree), acc.2 + 1)

/-- One end of an edge in `ref_edge_rcm_queue`; the state and `nhere`. -/
def rcmQueueEnd (s : RefEdge) (refNode : RefNode D) (acc : Rcm × Nat) (other : Int) :
    Except Status (Rcm × Nat) :=
  if other < 0 ∨ refNode.max ≤ other.toNat then .error .undefined
  else if acc.1.o2n other.toNat = refEmpty then
    if refNode.n ≤ acc.1.queue.length then .error .undefined
    else
      let queued := rcmQueueNode other.toNat (s.degree other) (acc.1.queue, acc.2)
      .ok ({ acc.1 with o2n := Function.update acc.1.o2n other.toNat (-2), queue := queued.1 },
        queued.2)
  else .ok acc

/-- `ref_edge_rcm_queue`.  `n2o` has `n` entries and `o2n` has `max`. -/
def rcmQueue (s : RefEdge) (refNode : RefNode D) (node : Int) (st : Rcm) : Except Status Rcm :=
  if node < 0 ∨ refNode.max ≤ node.toNat ∨ refNode.n ≤ st.ndone then .error .undefined
  else do
    let st := { st with
      n2o := Function.update st.n2o st.ndone node.toNat
      o2n := Function.update st.o2n node.toNat st.ndone
      ndone := st.ndone + 1 }
    let (st, _) ← (s.adj.refs node).foldlM (fun acc ref => do
      let acc ← s.rcmQueueEnd refNode acc (s.e2n ref.toNat 0)
      s.rcmQueueEnd refNode acc (s.e2n ref.toNat 1)) (st, 0)
    .ok st

/-- The loop that drains the queue, from its end; `none` is for exhausted
fuel. -/
def drainQueue (s : RefEdge) (refNode : RefNode D) : Nat → Rcm → Option (Except Status Rcm)
  | 0, st => if st.queue = [] then some (.ok st) else none
  | fuel + 1, st =>
      match st.queue.getLast? with
      | none => some (.ok st)
      | some (node, _) =>
          match s.rcmQueue refNode node { st with queue := st.queue.dropLast } with
          | .ok st => drainQueue s refNode fuel st
          | .error status => some (.error status)

/-- The loop of `ref_edge_rcm` while not all nodes are done. -/
def rcmLoop (s : RefEdge) (refNode : RefNode D) : Nat → Rcm → Option (Except Status Rcm)
  | 0, st => if st.ndone < refNode.n then none else some (.ok st)
  | fuel + 1, st =>
      if st.ndone < refNode.n then
        match s.rcmQueue refNode (s.minDegreeNode refNode st.o2n).1 st with
        | .error status => some (.error status)
        | .ok st =>
            match s.drainQueue refNode refNode.n st with
            | some (.ok st) => rcmLoop s refNode fuel st
            | other => other
      else some (.ok st)

end RefEdge

/-- The nodes that have a number. -/
def Rcm.done (st : Rcm) : List Nat := (List.range st.ndone).map st.n2o

/-- The nodes in the queue. -/
def Rcm.queued (st : Rcm) : List Nat := st.queue.map Prod.fst

namespace RefEdge

/-- The nodes that are done, the ones in hand and the queued ones are different
nodes on edges, and no other node is marked. -/
structure RcmInv (s : RefEdge) (refNode : RefNode D) (hand : List Nat) (st : Rcm) : Prop where
  nodup : (st.done ++ hand ++ st.queued).Nodup
  live : ∀ k ∈ st.done ++ hand ++ st.queued, refNode.Live k
  onEdge : ∀ k ∈ st.done ++ hand ++ st.queued, 0 < s.degree k
  fresh : ∀ k, k ∉ hand → (st.o2n k = refEmpty ↔ k ∉ st.done ++ st.queued)

section Invariant

variable {s : RefEdge} {refNode : RefNode D} {hand : List Nat} {st : Rcm}

/-- There are at most `n` different nodes. -/
theorem length_le_of_live (h : refNode.SlotInv) {l : List Nat} (hnodup : l.Nodup)
    (hlive : ∀ k ∈ l, refNode.Live k) : l.length ≤ refNode.n := by
  rw [← h.length_validNodes]
  exact (hnodup.subperm fun k hk => RefNode.mem_validNodes.mpr (hlive k hk)).length_le

theorem length_done (st : Rcm) : st.done.length = st.ndone := by
  simp [Rcm.done]

/-- **`ref_edge_rcm_queue_node`** puts the node into the queue. -/
theorem rcmQueueNode_perm {node degree : Nat} {acc : List (Nat × Nat) × Nat}
    (hle : acc.2 ≤ acc.1.length) :
    (rcmQueueNode node degree acc).1.Perm ((node, degree) :: acc.1) := by
  apply List.perm_insertIdx
  cases hfind : (List.range acc.2).find? fun location =>
      (acc.1.getD location (0, 0)).2 < degree with
  | none => exact hle
  | some location =>
      have hlt := List.mem_range.mp (List.mem_of_find?_eq_some hfind)
      exact hlt.le.trans hle

/-- An end of an edge is queued unless it is marked. -/
theorem RcmInv.queueEnd (hnode : refNode.SlotInv) {acc : Rcm × Nat} (h : RcmInv s refNode [] acc.1)
    (hle : acc.2 ≤ acc.1.queue.length) {k : Nat} (hk : refNode.Live k) (hdeg : 0 < s.degree k) :
    ∃ acc', s.rcmQueueEnd refNode acc (k : Int) = .ok acc' ∧ RcmInv s refNode [] acc'.1 ∧
      acc'.2 ≤ acc'.1.queue.length ∧ acc'.1.ndone = acc.1.ndone := by
  have hin : ¬ ((k : Int) < 0 ∨ refNode.max ≤ (k : Int).toNat) := by
    have := hk.1
    omega
  rw [rcmQueueEnd, if_neg hin, Int.toNat_natCast]
  by_cases hempty : acc.1.o2n k = refEmpty
  · have hnew := (h.fresh k List.not_mem_nil).mp hempty
    have hall : ∀ j ∈ k :: (acc.1.done ++ acc.1.queued), refNode.Live j := by
      intro j hj
      rcases List.mem_cons.mp hj with rfl | hj
      · exact hk
      · exact h.live j (by simpa using hj)
    have hnodup : (k :: (acc.1.done ++ acc.1.queued)).Nodup :=
      List.nodup_cons.mpr ⟨hnew, by simpa using h.nodup⟩
    have hroom : ¬ refNode.n ≤ acc.1.queue.length := by
      have hlen := length_le_of_live hnode hnodup hall
      rw [List.length_cons, List.length_append, Rcm.queued, List.length_map] at hlen
      omega
    rw [if_pos hempty, if_neg hroom]
    have hentry : (rcmQueueNode k (s.degree (k : Int)) (acc.1.queue, acc.2)).1.Perm
        ((k, s.degree (k : Int)) :: acc.1.queue) := rcmQueueNode_perm hle
    set st1 : Rcm := { acc.1 with
      o2n := Function.update acc.1.o2n k (-2)
      queue := (rcmQueueNode k (s.degree (k : Int)) (acc.1.queue, acc.2)).1 } with hst1
    have hqueued : st1.queued.Perm (k :: acc.1.queued) := hentry.map Prod.fst
    have hperm : (st1.done ++ st1.queued).Perm (k :: (acc.1.done ++ acc.1.queued)) :=
      (hqueued.append_left st1.done).trans List.perm_middle
    refine ⟨_, rfl, ⟨?_, ?_, ?_, ?_⟩, ?_, rfl⟩
    · rw [List.append_nil]
      exact hperm.nodup_iff.mpr hnodup
    · intro j hj
      rw [List.append_nil] at hj
      exact hall j (hperm.mem_iff.mp hj)
    · intro j hj
      rw [List.append_nil] at hj
      rcases List.mem_cons.mp (hperm.mem_iff.mp hj) with rfl | hj
      · exact hdeg
      · exact h.onEdge j (by simpa using hj)
    · intro j _
      change st1.o2n j = refEmpty ↔ j ∉ st1.done ++ st1.queued
      rw [hperm.mem_iff, List.mem_cons]
      by_cases hjk : j = k
      · subst hjk
        have hmarked : st1.o2n j = -2 := Function.update_self _ _ _
        rw [hmarked]
        exact iff_of_false (by decide) (by simp)
      · have hsame : st1.o2n j = acc.1.o2n j := Function.update_of_ne hjk _ _
        rw [hsame, h.fresh j List.not_mem_nil, not_or, and_iff_right hjk]
    · rw [hentry.length_eq, List.length_cons]
      exact Nat.succ_le_succ hle
  · rw [if_neg hempty]
    exact ⟨acc, rfl, h, hle, rfl⟩

/-- The two ends of an edge are nodes on an edge. -/
theorem degree_pos_iff (hs : s.EdgeInv) {v : Int} :
    0 < s.degree v ↔ ∃ e, e < s.n ∧ (s.e2n e 0 = v ∨ s.e2n e 1 = v) := by
  rw [degree, ← List.length_map (f := Int.toNat), List.length_pos_iff_exists_mem]
  exact exists_congr fun e => hs.mem_refs

/-- The ends of the edges are nodes. -/
def EndsLive (s : RefEdge) (refNode : RefNode D) : Prop :=
  ∀ e, e < s.n → ∀ i, i < 2 → ∃ k : Nat, s.e2n e i = k ∧ refNode.Live k

/-- **`ref_edge_rcm_queue`** takes the node in hand. -/
theorem RcmInv.queue (hs : s.EdgeInv) (hends : s.EndsLive refNode) (hnode : refNode.SlotInv)
    {k : Nat} (h : RcmInv s refNode [k] st) :
    ∃ st', s.rcmQueue refNode (k : Int) st = .ok st' ∧ RcmInv s refNode [] st' ∧
      st'.ndone = st.ndone + 1 := by
  have hk : refNode.Live k := h.live k (by simp)
  have hlen := length_le_of_live hnode h.nodup h.live
  rw [List.length_append, List.length_append, length_done, List.length_singleton] at hlen
  have hin : ¬ ((k : Int) < 0 ∨ refNode.max ≤ (k : Int).toNat ∨ refNode.n ≤ st.ndone) := by
    have := hk.1
    omega
  set st1 : Rcm := { st with
    n2o := Function.update st.n2o st.ndone k
    o2n := Function.update st.o2n k st.ndone
    ndone := st.ndone + 1 } with hst1
  have hdone : st1.done = st.done ++ [k] := by
    change (List.range (st.ndone + 1)).map (Function.update st.n2o st.ndone k) = _
    rw [List.range_succ, List.map_append, List.map_singleton, Function.update_self]
    congr 1
    apply List.map_congr_left
    intro i hi
    exact Function.update_of_ne (List.mem_range.mp hi).ne _ _
  have hqueued : st1.queued = st.queued := rfl
  have h1 : RcmInv s refNode [] st1 := by
    refine ⟨?_, ?_, ?_, ?_⟩
    · rw [hdone, hqueued, List.append_nil]
      exact h.nodup
    · rw [hdone, hqueued, List.append_nil]
      exact h.live
    · rw [hdone, hqueued, List.append_nil]
      exact h.onEdge
    · intro j _
      rw [hdone, hqueued]
      by_cases hjk : j = k
      · subst hjk
        have hmarked : st1.o2n j = (st.ndone : Int) := Function.update_self _ _ _
        rw [hmarked]
        exact iff_of_false (natCast_ne_refEmpty _) (by simp)
      · have hsame : st1.o2n j = st.o2n j := Function.update_of_ne hjk _ _
        rw [hsame, h.fresh j (by simpa using hjk)]
        simp [hjk]
  have hrefs : ∀ r ∈ s.adj.refs (k : Int), r.toNat < s.n := by
    intro r hr
    exact (hs.mem_refs.mp (List.mem_map_of_mem hr)).1
  have hend : ∀ e, e < s.n → ∀ i, i < 2 → ∃ j : Nat, s.e2n e i = j ∧ refNode.Live j ∧
      0 < s.degree j := by
    intro e he i hi
    obtain ⟨j, hj, hlive⟩ := hends e he i hi
    refine ⟨j, hj, hlive, (degree_pos_iff hs).mpr ⟨e, he, ?_⟩⟩
    rw [← hj]
    have hcase : i = 0 ∨ i = 1 := by omega
    rcases hcase with rfl | rfl
    · exact Or.inl rfl
    · exact Or.inr rfl
  have hloop := foldlM_exists
    (f := fun (acc : Rcm × Nat) (ref : Int) => do
      let acc ← s.rcmQueueEnd refNode acc (s.e2n ref.toNat 0)
      s.rcmQueueEnd refNode acc (s.e2n ref.toNat 1))
    (P := fun _ rest (acc : Rcm × Nat) => (∀ r ∈ rest, r.toNat < s.n) ∧ RcmInv s refNode [] acc.1 ∧
      acc.2 ≤ acc.1.queue.length ∧ acc.1.ndone = st.ndone + 1)
    (l := s.adj.refs (k : Int)) (b := (st1, 0)) (by
      intro done ref rest acc hP
      obtain ⟨hrest, hinv, hle, hcount⟩ := hP
      have he := hrest ref List.mem_cons_self
      obtain ⟨j0, hj0, hlive0, hdeg0⟩ := hend _ he 0 (by decide)
      obtain ⟨j1, hj1, hlive1, hdeg1⟩ := hend _ he 1 (by decide)
      obtain ⟨acc0, hrun0, hinv0, hle0, hcount0⟩ := hinv.queueEnd hnode hle hlive0 hdeg0
      obtain ⟨acc1, hrun1, hinv1, hle1, hcount1⟩ := hinv0.queueEnd hnode hle0 hlive1 hdeg1
      refine ⟨acc1, ?_, fun r hr => hrest r (List.mem_cons_of_mem ref hr), hinv1, hle1,
        hcount1.trans (hcount0.trans hcount)⟩
      rw [hj0, hj1, bind_eq_ok]
      exact ⟨acc0, hrun0, hrun1⟩) ⟨hrefs, h1, Nat.zero_le _, rfl⟩
  obtain ⟨acc, hrun, _, hinv, _, hcount⟩ := hloop
  refine ⟨acc.1, ?_, hinv, hcount⟩
  rw [rcmQueue, if_neg hin, Int.toNat_natCast, bind_eq_ok]
  exact ⟨acc, hrun, rfl⟩

/-- **The queue is drained.** -/
theorem RcmInv.drain (hs : s.EdgeInv) (hends : s.EndsLive refNode) (hnode : refNode.SlotInv)
    {fuel : Nat} (h : RcmInv s refNode [] st) (hfuel : refNode.n ≤ st.ndone + fuel) :
    ∃ st', s.drainQueue refNode fuel st = some (.ok st') ∧ RcmInv s refNode [] st' ∧
      st'.queue = [] ∧ st.ndone ≤ st'.ndone := by
  induction fuel generalizing st with
  | zero =>
      -- all nodes are done, so none is queued
      have hlen := length_le_of_live hnode h.nodup h.live
      rw [List.append_nil, List.length_append, length_done, Rcm.queued, List.length_map] at hlen
      have hempty : st.queue = [] := List.length_eq_zero_iff.mp (by omega)
      exact ⟨st, by rw [drainQueue, if_pos hempty], h, hempty, le_rfl⟩
  | succ fuel ih =>
      cases hlast : st.queue.getLast? with
      | none =>
          refine ⟨st, ?_, h, List.getLast?_eq_none_iff.mp hlast, le_rfl⟩
          rw [drainQueue, hlast]
      | some entry =>
          obtain ⟨k, degree⟩ := entry
          have hqueue : st.queue.dropLast ++ [(k, degree)] = st.queue :=
            List.dropLast_append_getLast? _ hlast
          set st1 : Rcm := { st with queue := st.queue.dropLast } with hst1
          have hqueued : st1.queued ++ [k] = st.queued := by
            rw [Rcm.queued, Rcm.queued, ← hqueue, List.map_append]
            rfl
          have hperm : (st1.done ++ [k] ++ st1.queued).Perm (st.done ++ [] ++ st.queued) := by
            rw [← hqueued, List.append_nil, List.append_assoc]
            exact List.perm_append_comm.append_left st.done
          have h1 : RcmInv s refNode [k] st1 := by
            refine ⟨hperm.nodup_iff.mpr h.nodup, fun j hj => h.live j (hperm.mem_iff.mp hj),
              fun j hj => h.onEdge j (hperm.mem_iff.mp hj), fun j hj => ?_⟩
            have hjk : j ≠ k := by simpa using hj
            have hsame : st1.o2n j = refEmpty ↔ j ∉ st1.done ++ (st1.queued ++ [k]) := by
              rw [hqueued]
              exact h.fresh j List.not_mem_nil
            rw [hsame]
            simp [hjk]
          obtain ⟨st2, hrun, h2, hcount⟩ := h1.queue hs hends hnode
          have hcount' : st2.ndone = st.ndone + 1 := hcount
          obtain ⟨st3, hrest, h3, hempty, hle⟩ := ih h2 (by omega)
          refine ⟨st3, ?_, h3, hempty, by omega⟩
          rw [drainQueue, hlast]
          simp only [← hst1, hrun]
          exact hrest

/-- **`ref_edge_min_degree_node`** finds an unmarked node on an edge, if there
is one. -/
theorem minDegreeNode_spec (s : RefEdge) (refNode : RefNode D) (o2n : Nat → Int) :
    (∃ k : Nat, (s.minDegreeNode refNode o2n).1 = k ∧ refNode.Live k ∧ o2n k = refEmpty ∧
        0 < s.degree k) ∨
      (s.minDegreeNode refNode o2n).1 = refEmpty ∧
        ∀ k, refNode.Live k → o2n k = refEmpty → s.degree k = 0 := by
  have hloop := foldl_inv
    (f := fun (best : Int × Int) (node : Nat) => if o2n node ≠ refEmpty then best
      else if 0 < s.degree node then
        if best.1 = refEmpty ∨ (s.degree node : Int) < best.2 then
          ((node : Int), (s.degree node : Int))
        else best
      else best)
    (fun done rest best => (∀ k ∈ done ++ rest, refNode.Live k) ∧
      ((∃ k : Nat, best.1 = k ∧ refNode.Live k ∧ o2n k = refEmpty ∧ 0 < s.degree k) ∨
        best.1 = refEmpty ∧ ∀ k ∈ done, o2n k = refEmpty → s.degree k = 0))
    (by
      intro done node rest best h
      obtain ⟨hlive, hbest⟩ := h
      have hnode : refNode.Live node := hlive node (by simp)
      refine ⟨by simpa using hlive, ?_⟩
      by_cases hmarked : o2n node = refEmpty
      · rw [if_neg (not_not.mpr hmarked)]
        by_cases hdeg : 0 < s.degree node
        · rw [if_pos hdeg]
          split
          · exact Or.inl ⟨node, rfl, hnode, hmarked, hdeg⟩
          · rename_i hno
            rcases hbest with hbest | ⟨hempty, _⟩
            · exact Or.inl hbest
            · exact absurd (Or.inl hempty) hno
        · rw [if_neg hdeg]
          refine hbest.imp_right fun hnone => ⟨hnone.1, fun k hk hempty => ?_⟩
          rcases List.mem_append.mp hk with hk | hk
          · exact hnone.2 k hk hempty
          · rw [List.mem_singleton.mp hk]
            omega
      · rw [if_pos hmarked]
        refine hbest.imp_right fun hnone => ⟨hnone.1, fun k hk hempty => ?_⟩
        rcases List.mem_append.mp hk with hk | hk
        · exact hnone.2 k hk hempty
        · rw [List.mem_singleton.mp hk] at hempty
          exact absurd hempty hmarked)
    (l := refNode.validNodes) (b := (refEmpty, refEmpty))
    ⟨fun k hk => RefNode.mem_validNodes.mp (by simpa using hk),
      Or.inr ⟨rfl, fun k hk => absurd hk List.not_mem_nil⟩⟩
  refine hloop.2.imp_right fun hnone => ⟨hnone.1, fun k hk => ?_⟩
  exact hnone.2 k (RefNode.mem_validNodes.mpr hk)

/-- **The loop of `ref_edge_rcm`** takes all nodes, or comes to nodes without
edges and stores out of bounds. -/
theorem RcmInv.loop (hs : s.EdgeInv) (hends : s.EndsLive refNode) (hnode : refNode.SlotInv)
    {fuel : Nat} (h : RcmInv s refNode [] st) (hempty : st.queue = [])
    (hfuel : refNode.n ≤ st.ndone + fuel) :
    (∃ st', s.rcmLoop refNode fuel st = some (.ok st') ∧ RcmInv s refNode [] st' ∧
        st'.queue = [] ∧ st'.ndone = refNode.n) ∨
      s.rcmLoop refNode fuel st = some (.error .undefined) ∧
        ∃ k, refNode.Live k ∧ s.degree k = 0 := by
  have hle : st.ndone ≤ refNode.n := by
    have hlen := length_le_of_live hnode h.nodup h.live
    rw [List.append_nil, List.length_append, length_done] at hlen
    omega
  induction fuel generalizing st with
  | zero =>
      refine Or.inl ⟨st, ?_, h, hempty, by omega⟩
      rw [rcmLoop, if_neg (by omega)]
  | succ fuel ih =>
      by_cases hrest : st.ndone < refNode.n
      · rcases minDegreeNode_spec s refNode st.o2n with
          ⟨k, hk, hlive, hnew, hdeg⟩ | ⟨hk, hnone⟩
        · have hnot := (h.fresh k List.not_mem_nil).mp hnew
          have hperm : (st.done ++ [k] ++ st.queued).Perm (k :: (st.done ++ [] ++ st.queued)) := by
            rw [List.append_nil, List.append_assoc]
            exact List.perm_middle
          have h1 : RcmInv s refNode [k] st := by
            refine ⟨hperm.nodup_iff.mpr (List.nodup_cons.mpr ⟨by simpa using hnot, h.nodup⟩),
              fun j hj => ?_, fun j hj => ?_, fun j _ => h.fresh j List.not_mem_nil⟩
            · rcases List.mem_cons.mp (hperm.mem_iff.mp hj) with rfl | hj
              · exact hlive
              · exact h.live j hj
            · rcases List.mem_cons.mp (hperm.mem_iff.mp hj) with rfl | hj
              · exact hdeg
              · exact h.onEdge j hj
          obtain ⟨st1, hrun1, hinv1, hcount1⟩ := h1.queue hs hends hnode
          have hdrain : ∃ st2, s.drainQueue refNode refNode.n st1 = some (.ok st2) ∧
              RcmInv s refNode [] st2 ∧ st2.queue = [] ∧ st1.ndone ≤ st2.ndone :=
            hinv1.drain hs hends hnode (Nat.le_add_left _ _)
          obtain ⟨st2, hrun2, hinv2, hempty2, hle2⟩ := hdrain
          have hle2' : st2.ndone ≤ refNode.n := by
            have hlen := length_le_of_live hnode hinv2.nodup hinv2.live
            rw [List.append_nil, List.length_append, length_done] at hlen
            omega
          have hloop : s.rcmLoop refNode (fuel + 1) st = s.rcmLoop refNode fuel st2 := by
            rw [rcmLoop, if_pos hrest, hk, hrun1]
            simp only [hrun2]
          rw [hloop]
          exact ih hinv2 hempty2 (by omega) hle2'
        · -- only nodes without edges are left
          refine Or.inr ⟨?_, ?_⟩
          · rw [rcmLoop, if_pos hrest, hk, rcmQueue, if_pos (Or.inl (by decide))]
          · by_contra hall
            have hmem : ∀ k ∈ refNode.validNodes, k ∈ st.done := by
              intro k hk
              have hlive := RefNode.mem_validNodes.mp hk
              by_contra hnot
              refine hall ⟨k, hlive, hnone k hlive ((h.fresh k List.not_mem_nil).mpr ?_)⟩
              rw [Rcm.queued, hempty]
              simpa using hnot
            have hlen := (refNode.nodup_validNodes.subperm hmem).length_le
            rw [hnode.length_validNodes, length_done] at hlen
            omega
      · refine Or.inl ⟨st, ?_, h, hempty, by omega⟩
        rw [rcmLoop, if_neg hrest]

/-! ## The numbering -/

end Invariant

end RefEdge

/-! ## The packed grid -/

/-- The edges of a grid join nodes of the grid. -/
theorem RefEdge.Covers.endsLive {s : RefEdge} {g : RefGrid D}
    (h : s.Covers (RefEdge.gridEdges g)) (hcells : g.CellsInv)
    (hrefs : ∀ t c, (g.cell t).Live c → ∀ v ∈ (g.cell t).nodeList c, g.node.Live v.toNat) :
    s.EndsLive g.node := by
  intro e he i hi
  obtain ⟨pair, hin, hjoins⟩ := h.joins e he
  obtain ⟨t, _, c, hc, corner, hcorner, h1, h2⟩ := exists_cell_of_gridEdges hcells hin
  obtain ⟨hlt1, hlt2, _⟩ := t.e2n_lt corner hcorner
  have hlive : ∀ l, l < t.nodePer → ∃ k : Nat, (g.cell t).c2n c l = k ∧ g.node.Live k := by
    intro l hl
    have hv : (g.cell t).c2n c l ∈ (g.cell t).nodeList c := by
      refine RefCell.mem_nodeList.mpr ⟨l, ?_, rfl⟩
      rw [RefCell.nodePer, hcells.type]
      exact hl
    have h0 := (hcells.inv t).nonneg c hc _ hv
    exact ⟨_, (Int.toNat_of_nonneg h0).symm, hrefs t c hc _ hv⟩
  have hends : ∀ v, v = pair.1 ∨ v = pair.2 → ∃ k : Nat, v = k ∧ g.node.Live k := by
    intro v hv
    rcases hv with rfl | rfl
    · exact h1 ▸ hlive _ hlt1
    · exact h2 ▸ hlive _ hlt2
  have hcase : i = 0 ∨ i = 1 := by omega
  rcases hcase with rfl | rfl
  · exact hends _ (hjoins.imp (fun h => h.1) fun h => h.1)
  · exact hends _ (hjoins.symm.imp (fun h => h.2) fun h => h.2)

/-- A grid with the given triangles on four nodes. -/
def trisOnFour (rows : List (List Int)) : RefGrid Int :=
  RefGrid.ofRows fourNodes noGeom fun t => if t = .tri then rows else []

end RefineMesh
