import Mathlib.Tactic
import RefineMesh.ArrayLoops
import RefineMesh.NodeInvariant
import RefineMesh.Mpi

/-!
# Ghost exchange

`ref_node_ghost_int`, `ref_node_ghost_glob` and `ref_node_ghost_dbl` are one
program at three element types.  Each rank asks the owners of its ghosts for
their entries: the globals are sorted into buckets by owner, sent, looked up
there, and the answers come back in the order of the requests.  A rank sends
the `ldim` components of a node at once when its own totals are small enough
for the products to fit a `REF_INT`, and one component at a time otherwise.

The index `i + ldim*local` into the data is computed in `REF_INT` in both
branches, and the size test divides by `ldim`.
-/

namespace RefineMesh

open Segments Spmd

variable {D : Type}

namespace RefNode

/-- The valid nodes that another rank owns, in slot order. -/
def ghosts (s : RefNode D) : List Nat := s.validNodes.filter fun node => ¬ s.Owned node

/-- The slot of a global whose entry `i` is about to be used. -/
def entrySlot (s : RefNode D) (ldim i : Nat) (global : Int) : Except Status Nat := do
  let node ← s.nodeLocal global
  if refIntMax < i + ldim * node then .error .undefined else .ok node

end RefNode

/-- The requests of one rank after the first half of the exchange: `a` for
what it asks, `b` for what it is asked. -/
structure GhostRequest where
  aSize : Nat → Nat
  bSize : Nat → Nat
  aTotal : Nat
  bTotal : Nat
  aGlobal : Nat → Int
  bGlobal : Nat → Int

/-- The memory of the buffers. -/
structure GhostMemory (E : Type) where
  aGlobal : Nat → Int
  bGlobal : Nat → Int
  aVector : Nat → E
  bVector : Nat → E

/-- `a_global` of the ghost exchange. -/
def packedGlobals (s : RefNode D) (aMem : Nat → Int) : Nat → Int :=
  (s.ghosts.foldl (bucketStep s.part fun buf k node => Function.update buf k (s.global node))
    (start (tally s.part s.ghosts fun _ => 0), aMem)).2

/-- The first half of the exchange: sizes and globals. -/
def ghostRequests (p : Nat) (s : RefNode D) (aMem bMem : Nat → Int) :
    RankProg D GhostRequest :=
  let aSize := tally s.part s.ghosts fun _ => 0
  .alltoall aSize fun bSize =>
    let aTotal := start aSize p
    let bTotal := start bSize p
    if refIntMax < aTotal ∨ refIntMax < bTotal then .fail .undefined
    else
      let aGlobal := packedGlobals s aMem
      (alltoallv p .long aGlobal aSize bSize 1 bMem).bind fun bGlobal =>
        .ret { aSize, bSize, aTotal, bTotal, aGlobal, bGlobal }

/-- The size test that picks the branch. -/
def GhostRequest.AtOnce (req : GhostRequest) (ldim : Nat) : Prop :=
  req.aTotal < refIntMax / ldim ∧ req.bTotal < refIntMax / ldim

instance (req : GhostRequest) (ldim : Nat) : Decidable (req.AtOnce ldim) :=
  inferInstanceAs (Decidable (_ ∧ _))

section Branches

variable (p : Nat) (s : RefNode D) (t : RefType) (ldim : Nat) (req : GhostRequest)

/-- The loop that fills `b_vector` with all components. -/
def gatherRecords (vector bVector : Nat → t.Elem D) : Except Status (Nat → t.Elem D) :=
  (List.range req.bTotal).foldlM (fun buf k => do
    let node ← s.entrySlot ldim (ldim - 1) (req.bGlobal k)
    .ok (storeRecord ldim (fun i => vector (i + ldim * node)) k buf)) bVector

/-- The loop that reads `a_vector` with all components. -/
def scatterRecords (aVector vector : Nat → t.Elem D) : Except Status (Nat → t.Elem D) :=
  (List.range req.aTotal).foldlM (fun vec k => do
    let node ← s.entrySlot ldim (ldim - 1) (req.aGlobal k)
    .ok (storeRecord ldim (fun i => aVector (i + ldim * k)) node vec)) vector

/-- The branch that sends `ldim` components at once. -/
def ghostAtOnce (vector : Nat → t.Elem D) (mem : GhostMemory (t.Elem D)) :
    RankProg D (Nat → t.Elem D) :=
  if refIntMax < ldim * req.aTotal ∨ refIntMax < ldim * req.bTotal then .fail .undefined
  else
    (Prog.lift (gatherRecords s t ldim req vector mem.bVector)).bind fun bVector =>
      (alltoallv p t bVector req.bSize req.aSize ldim mem.aVector).bind fun aVector =>
        Prog.lift (scatterRecords s t ldim req aVector vector)

/-- The loop that fills `b_vector` with component `i`. -/
def gatherComponent (i : Nat) (vector bVector : Nat → t.Elem D) :
    Except Status (Nat → t.Elem D) :=
  (List.range req.bTotal).foldlM (fun buf k => do
    let node ← s.entrySlot ldim i (req.bGlobal k)
    .ok (Function.update buf k (vector (i + ldim * node)))) bVector

/-- The loop that reads component `i` from `a_vector`. -/
def scatterComponent (i : Nat) (aVector vector : Nat → t.Elem D) :
    Except Status (Nat → t.Elem D) :=
  (List.range req.aTotal).foldlM (fun vec k => do
    let node ← s.entrySlot ldim i (req.aGlobal k)
    .ok (Function.update vec (i + ldim * node) (aVector k))) vector

/-- The components from `i` on, `todo` of them. -/
def ghostComponents : Nat → Nat → (Nat → t.Elem D) → (Nat → t.Elem D) → (Nat → t.Elem D) →
    RankProg D (Nat → t.Elem D)
  | 0, _, vector, _, _ => .ret vector
  | todo+1, i, vector, aVector, bVector =>
      (Prog.lift (gatherComponent s t ldim req i vector bVector)).bind fun bVector =>
        (alltoallv p t bVector req.bSize req.aSize 1 aVector).bind fun aVector =>
          (Prog.lift (scatterComponent s t ldim req i aVector vector)).bind fun vector =>
            ghostComponents todo (i + 1) vector aVector bVector

/-- The branch that sends one component at a time. -/
def ghostOneByOne (vector : Nat → t.Elem D) (mem : GhostMemory (t.Elem D)) :
    RankProg D (Nat → t.Elem D) :=
  ghostComponents p s t ldim req ldim 0 vector mem.aVector mem.bVector

end Branches

/-- `ref_node_ghost_int`, `ref_node_ghost_glob` and `ref_node_ghost_dbl`. -/
def ghost (p : Nat) (s : RefNode D) (t : RefType) (vector : Nat → t.Elem D) (ldim : Nat)
    (mem : GhostMemory (t.Elem D)) : RankProg D (Nat → t.Elem D) :=
  if p ≤ 1 then .ret vector
  else
    (ghostRequests p s mem.aGlobal mem.bGlobal).bind fun req =>
      -- `REF_INT_MAX / ldim`
      if ldim = 0 then .fail .undefined
      else if req.AtOnce ldim then ghostAtOnce p s t ldim req vector mem
      else ghostOneByOne p s t ldim req vector mem

/-- `ref_node_ghost_int`. -/
def ghostInt (p : Nat) (s : RefNode D) (vector : Nat → Int) (ldim : Nat)
    (mem : GhostMemory Int) : RankProg D (Nat → Int) :=
  ghost p s .int vector ldim mem

/-- `ref_node_ghost_glob`. -/
def ghostGlob (p : Nat) (s : RefNode D) (vector : Nat → Int) (ldim : Nat)
    (mem : GhostMemory Int) : RankProg D (Nat → Int) :=
  ghost p s .long vector ldim mem

/-- `ref_node_ghost_dbl`. -/
def ghostDbl (p : Nat) (s : RefNode D) (vector : Nat → D) (ldim : Nat)
    (mem : GhostMemory D) : RankProg D (Nat → D) :=
  ghost p s .dbl vector ldim mem

/-! ## Requests -/

/-- Stores in which the owner of every ghost holds its global. -/
structure Distributed (p : Nat) (s : Nat → RefNode D) : Prop where
  inv : ∀ r, r < p → (s r).Inv
  rank : ∀ r, r < p → (s r).rank = r
  owner : ∀ r, r < p → ∀ node ∈ (s r).ghosts,
    (s r).part node < p ∧ (s ((s r).part node)).Holds ((s r).global node)

/-- Stores in which every node has one part on all ranks that hold it. -/
structure Partitioned (p : Nat) (s : Nat → RefNode D) : Prop where
  inv : ∀ r, r < p → (s r).Inv
  rank : ∀ r, r < p → (s r).rank = r
  parts : ∀ r q, r < p → q < p → ∀ i j, (s r).Live i → (s q).Live j →
    (s r).global i = (s q).global j → (s r).part i = (s q).part j

theorem RefNode.mem_ghosts {s : RefNode D} {node : Nat} :
    node ∈ s.ghosts ↔ s.Live node ∧ ¬ s.Owned node := by
  simp [RefNode.ghosts, RefNode.mem_validNodes]

/-- The ghosts of a rank in the order of its requests. -/
def ghostOrder (p : Nat) (s : RefNode D) : List Nat :=
  (List.range p).flatMap (group s.part s.ghosts)

/-- The requests that rank `r` receives, in their order: the rank that asks
and its ghost. -/
def requestOrder (p : Nat) (s : Nat → RefNode D) (r : Nat) : List (Nat × Nat) :=
  (List.range p).flatMap fun q => (group (s q).part (s q).ghosts r).map fun node => (q, node)

/-- The slot of the owner for a ghost of rank `r`. -/
def ownerSlot (s : Nat → RefNode D) (r node : Nat) : Nat :=
  match (s ((s r).part node)).nodeLocal ((s r).global node) with
  | .ok k => k
  | .error _ => 0

section Requests

variable {p : Nat} {s : Nat → RefNode D}

theorem Distributed.nodeLocal_owner (h : Distributed p s) {r node : Nat} (hr : r < p)
    (hnode : node ∈ (s r).ghosts) :
    (s ((s r).part node)).nodeLocal ((s r).global node) = .ok (ownerSlot s r node) := by
  obtain ⟨hpart, k, hk⟩ := h.owner r hr node hnode
  have hlocal := ((h.inv _ hpart).nodeLocal_eq_ok_iff _ k).mpr hk
  rw [ownerSlot, hlocal]

theorem Distributed.nodeLocal_self (h : Distributed p s) {r node : Nat} (hr : r < p)
    (hnode : node ∈ (s r).ghosts) : (s r).nodeLocal ((s r).global node) = .ok node :=
  ((h.inv r hr).nodeLocal_eq_ok_iff _ node).mpr ⟨(RefNode.mem_ghosts.mp hnode).1, rfl⟩

theorem mem_group_ghosts {s : RefNode D} {part node : Nat} :
    node ∈ group s.part s.ghosts part ↔ node ∈ s.ghosts ∧ s.part node = part := by
  simp [group]

theorem mem_ghostOrder {r node : Nat} (h : Distributed p s) (hr : r < p) :
    node ∈ ghostOrder p (s r) ↔ node ∈ (s r).ghosts := by
  simp only [ghostOrder, List.mem_flatMap, List.mem_range, mem_group_ghosts]
  constructor
  · intro hmem
    obtain ⟨_, _, hnode, _⟩ := hmem
    exact hnode
  · intro hnode
    exact ⟨_, (h.owner r hr node hnode).1, hnode, rfl⟩

theorem nodup_ghostOrder (p : Nat) (s : RefNode D) : (ghostOrder p s).Nodup := by
  apply List.nodup_flatMap.mpr
  constructor
  · intro part _
    exact (s.nodup_validNodes.filter _).filter _
  · apply List.nodup_range.imp
    intro a b hab node ha hb
    exact hab ((mem_group_ghosts.mp ha).2.symm.trans (mem_group_ghosts.mp hb).2)

theorem mem_requestOrder {r : Nat} {ask : Nat × Nat} :
    ask ∈ requestOrder p s r ↔
      ask.1 < p ∧ ask.2 ∈ (s ask.1).ghosts ∧ (s ask.1).part ask.2 = r := by
  simp only [requestOrder, List.mem_flatMap, List.mem_range, List.mem_map, mem_group_ghosts]
  constructor
  · intro hmem
    obtain ⟨q, hq, node, hnode, rfl⟩ := hmem
    exact ⟨hq, hnode⟩
  · intro hask
    exact ⟨ask.1, hask.1, ask.2, hask.2, rfl⟩

theorem length_group_ghosts (s : RefNode D) (part : Nat) :
    tally s.part s.ghosts (fun _ => 0) part = (group s.part s.ghosts part).length := by
  rw [tally_apply, Nat.zero_add]

theorem start_aSize (s : RefNode D) (part : Nat) :
    start (tally s.part s.ghosts fun _ => 0) part =
      start (fun q => (group s.part s.ghosts q).length) part :=
  start_congr fun q _ => length_group_ghosts s q

theorem start_bSize {r part : Nat} (hpart : part ≤ p) :
    start (onRanks p fun q => tally (s q).part (s q).ghosts (fun _ => 0) r) part =
      start (fun q => ((group (s q).part (s q).ghosts r).map fun node => (q, node)).length) part := by
  apply start_congr
  intro q hq
  rw [onRanks_of_lt _ (by omega), length_group_ghosts, List.length_map]

/-- What the first half of the exchange gives rank `r`. -/
def requestOf (p : Nat) (s : Nat → RefNode D) (aMem bMem : Nat → Nat → Int) (r : Nat) :
    GhostRequest where
  aSize := tally (s r).part (s r).ghosts fun _ => 0
  bSize := onRanks p fun q => tally (s q).part (s q).ghosts (fun _ => 0) r
  aTotal := (ghostOrder p (s r)).length
  bTotal := (requestOrder p s r).length
  aGlobal := packedGlobals (s r) (aMem r)
  bGlobal := exchanged p (fun q => packedGlobals (s q) (aMem q))
    (fun q r => 1 * tally (s q).part (s q).ghosts (fun _ => 0) r)
    (fun r q => 1 * onRanks p (fun q => tally (s q).part (s q).ghosts (fun _ => 0) r) q) bMem r

variable {aMem bMem : Nat → Nat → Int}

/-- The segment of `part` holds the globals of the ghosts of `part`. -/
theorem packedGlobals_place (h : Distributed p s) {r part j node : Nat} (hr : r < p)
    (hpart : part < p) (hj : (group (s r).part (s r).ghosts part)[j]? = some node)
    (mem : Nat → Int) :
    packedGlobals (s r) mem (start (tally (s r).part (s r).ghosts fun _ => 0) part + j) =
      (s r).global node := by
  refine bucket_spec (fun (b : Nat → Int) k node => b k = (s r).global node)
    (fun buf k node => Function.update buf k ((s r).global node)) ?_ ?_ mem
    (fun part _ => length_group_ghosts (s r) part) (fun _ _ => rfl)
    (fun node hnode => (h.owner r hr node hnode).1) part hpart j node hj
  · intro b k node
    rw [Function.update_self]
  · intro b k node k' node' hk hold
    rw [Function.update_of_ne hk]
    exact hold

/-- A rank asks for the globals of its ghosts, in their order. -/
theorem aGlobal_requestOf (h : Distributed p s) {r k node : Nat} (hr : r < p)
    (hk : (ghostOrder p (s r))[k]? = some node) :
    (requestOf p s aMem bMem r).aGlobal k = (s r).global node := by
  obtain ⟨part, j, hpart, rfl, hj⟩ := exists_of_getElem?_flatMap_range hk
  rw [← start_aSize]
  exact packedGlobals_place h hr hpart hj _

/-- A rank is asked for the globals of the ghosts of the others. -/
theorem bGlobal_requestOf (h : Distributed p s) {r k q node : Nat} (hr : r < p)
    (hk : (requestOrder p s r)[k]? = some (q, node)) :
    (requestOf p s aMem bMem r).bGlobal k = (s q).global node := by
  obtain ⟨q', j, hq', rfl, hj⟩ := exists_of_getElem?_flatMap_range hk
  rw [List.getElem?_map] at hj
  obtain ⟨node', hj', heq⟩ := Option.map_eq_some_iff.mp hj
  obtain ⟨rfl, rfl⟩ := Prod.mk.inj heq
  have hlen : j < (requestOf p s aMem bMem r).bSize q' := by
    change j < onRanks p (fun q => tally (s q).part (s q).ghosts (fun _ => 0) r) q'
    rw [onRanks_of_lt _ hq', length_group_ghosts]
    exact (List.getElem?_eq_some_iff.mp hj').1
  have hmoved : exchanged p (fun q => packedGlobals (s q) (aMem q))
      (fun q r => 1 * (requestOf p s aMem bMem q).aSize r)
      (fun r q => 1 * (requestOf p s aMem bMem r).bSize q) bMem r
      (0 + 1 * (start (requestOf p s aMem bMem r).bSize q' + j)) = _ :=
    exchanged_record hq' hlen Nat.one_pos
  rw [Nat.zero_add, Nat.one_mul, Nat.zero_add, Nat.one_mul] at hmoved
  rw [← start_bSize hq'.le]
  exact hmoved.trans (packedGlobals_place h hq' hr hj' _)

/-- The answer to a request comes back to its place. -/
theorem exchanged_answer (aMem bMem : Nat → Nat → Int) {E : Type} {r k node : Nat} (hr : r < p)
    (hk : (ghostOrder p (s r))[k]? = some node) :
    ∃ k', (requestOrder p s ((s r).part node))[k']? = some (r, node) ∧
      ∀ (n l : Nat) (send mem : Nat → Nat → E), l < n →
        exchanged p send (fun q r => n * (requestOf p s aMem bMem q).bSize r)
            (fun r q => n * (requestOf p s aMem bMem r).aSize q) mem r (l + n * k) =
          send ((s r).part node) (l + n * k') := by
  obtain ⟨part, j, hpart, rfl, hj⟩ := exists_of_getElem?_flatMap_range hk
  obtain rfl : (s r).part node = part := (mem_group_ghosts.mp (List.mem_of_getElem? hj)).2
  have hj' : ((group (s r).part (s r).ghosts ((s r).part node)).map fun node => (r, node))[j]? =
      some (r, node) := by
    rw [List.getElem?_map, hj]
    rfl
  have hlen : j < (group (s r).part (s r).ghosts ((s r).part node)).length :=
    (List.getElem?_eq_some_iff.mp hj).1
  refine ⟨start (fun q => ((group (s q).part (s q).ghosts ((s r).part node)).map
    fun node => (q, node)).length) r + j, ?_, ?_⟩
  · rw [← hj']
    exact getElem?_flatMap_range hr (by rw [List.length_map]; exact hlen)
  · intro n l send mem hl
    rw [← start_aSize, ← start_bSize hr.le]
    apply exchanged_record hpart _ hl
    change j < tally (s r).part (s r).ghosts (fun _ => 0) ((s r).part node)
    rw [length_group_ghosts]
    exact hlen

theorem length_ghostOrder_le (h : Distributed p s) {r : Nat} (hr : r < p) :
    (ghostOrder p (s r)).length ≤ refIntMax := by
  have hsub : ghostOrder p (s r) ⊆ (s r).validNodes := by
    intro node hnode
    exact RefNode.mem_validNodes.mpr (RefNode.mem_ghosts.mp ((mem_ghostOrder h hr).mp hnode)).1
  calc (ghostOrder p (s r)).length
      ≤ (s r).validNodes.length :=
        (List.subperm_of_subset (nodup_ghostOrder p (s r)) hsub).length_le
    _ ≤ (s r).max := by
        rw [RefNode.validNodes]
        exact (List.length_filter_le _ _).trans (List.length_range).le
    _ ≤ refIntMax := (h.inv r hr).fits

theorem start_aSize_all (r : Nat) :
    start (tally (s r).part (s r).ghosts fun _ => 0) p = (ghostOrder p (s r)).length := by
  rw [start_aSize, ghostOrder, length_flatMap_range]

theorem start_bSize_all (r : Nat) :
    start (onRanks p fun q => tally (s q).part (s q).ghosts (fun _ => 0) r) p =
      (requestOrder p s r).length := by
  rw [start_bSize le_rfl, requestOrder, length_flatMap_range]

/-- **The first half of the exchange** when the counts fit. -/
theorem ghostRequests_run (aMem bMem : Nat → Nat → Int) (h : Distributed p s)
    (hcount : ∀ r, r < p → (requestOrder p s r).length ≤ refIntMax) :
    Runs p (fun r => ghostRequests p (s r) (aMem r) (bMem r)) (requestOf p s aMem bMem) := by
  refine .alltoall _ _ (fun r hr => rfl) ?_
  refine Runs.congr (P := fun r => .alltoallv .long (packedGlobals (s r) (aMem r))
    (fun q => 1 * (requestOf p s aMem bMem r).aSize q)
    (fun q => 1 * (requestOf p s aMem bMem r).bSize q) (bMem r)
    fun bGlobal => .ret { requestOf p s aMem bMem r with bGlobal := bGlobal }) ?_ ?_
  · refine .alltoallv .long _ _ _ _ _ (fun r hr => rfl) (fun r q hr hq => ?_)
      (.ret fun r hr => rfl)
    simp only [requestOf, onRanks_of_lt _ hq]
  · intro r hr
    have ha : start _ p = (ghostOrder p (s r)).length := start_aSize_all r
    have hb : start _ p = (requestOrder p s r).length := start_bSize_all r
    have hale := length_ghostOrder_le h hr
    have hble := hcount r hr
    have hasize : SizesFit p 1 (tally (s r).part (s r).ghosts fun _ => 0) :=
      sizesFit_of_total (by omega)
    have hbsize : SizesFit p 1 (onRanks p fun q => tally (s q).part (s q).ghosts (fun _ => 0) r) :=
      sizesFit_of_total (by omega)
    simp only [ha, hb]
    rw [if_neg (by omega)]
    exact congrArg (fun P => Prog.bind P _)
      (alltoallv_eq (t := .long) hasize hbsize (packedGlobals (s r) (aMem r)) (bMem r))

/-- Without a count that fits there is no result. -/
theorem not_runs_of_request_overflow {α : Type} {f : Nat → GhostRequest → RankProg D α}
    {out : Nat → α} {r : Nat} (hr : r < p) (hcount : refIntMax < (requestOrder p s r).length) :
    ¬ Runs p (fun r => (ghostRequests p (s r) (aMem r) (bMem r)).bind (f r)) out := by
  have hb : start _ p = (requestOrder p s r).length := start_bSize_all r
  intro hrun
  have hrest := (runs_alltoall_iff (by omega) fun r _ => rfl).mp hrun
  refine not_runs_of_fail (e := .undefined) hr ?_ hrest
  simp only [hb]
  rw [if_pos (Or.inr hcount)]
  rfl

end Requests

/-! ## Passes

Both branches repeat one pass over a span of components: all of them, or one. -/

section Passes

variable (p : Nat) (s : RefNode D) (t : RefType) (ldim : Nat) (req : GhostRequest)
  (first n : Nat)

/-- Fill `b_vector` with the components `first .. first + n - 1`. -/
def gatherSpan (vector bVector : Nat → t.Elem D) : Except Status (Nat → t.Elem D) :=
  (List.range req.bTotal).foldlM (fun buf k => do
    let node ← s.entrySlot ldim (first + n - 1) (req.bGlobal k)
    .ok (storeRecord n (fun l => vector (first + l + ldim * node)) k buf)) bVector

/-- Read the components `first .. first + n - 1` from `a_vector`. -/
def scatterSpan (aVector vector : Nat → t.Elem D) : Except Status (Nat → t.Elem D) :=
  (List.range req.aTotal).foldlM (fun vec k => do
    let node ← s.entrySlot ldim (first + n - 1) (req.aGlobal k)
    .ok (storeSpan ldim first n (fun l => aVector (l + n * k)) node vec)) vector

/-- One pass; the buffers are handed on to the next. -/
def ghostPass (vector aVector bVector : Nat → t.Elem D) :
    RankProg D ((Nat → t.Elem D) × (Nat → t.Elem D) × (Nat → t.Elem D)) :=
  (Prog.lift (gatherSpan s t ldim req first n vector bVector)).bind fun bVector =>
    (alltoallv p t bVector req.bSize req.aSize n aVector).bind fun aVector =>
      (Prog.lift (scatterSpan s t ldim req first n aVector vector)).bind fun vector =>
        .ret (vector, aVector, bVector)

theorem ghostAtOnce_eq (vector : Nat → t.Elem D) (mem : GhostMemory (t.Elem D)) :
    ghostAtOnce p s t ldim req vector mem =
      if refIntMax < ldim * req.aTotal ∨ refIntMax < ldim * req.bTotal then .fail .undefined
      else (ghostPass p s t ldim req 0 ldim vector mem.aVector mem.bVector).bind
        fun done => .ret done.1 := by
  have hgather : gatherRecords s t ldim req vector mem.bVector =
      gatherSpan s t ldim req 0 ldim vector mem.bVector := by
    simp only [gatherRecords, gatherSpan, Nat.zero_add]
  have hscatter : ∀ aVector, scatterRecords s t ldim req aVector vector =
      scatterSpan s t ldim req 0 ldim aVector vector := by
    intro aVector
    simp only [scatterRecords, scatterSpan, Nat.zero_add, storeRecord_eq_storeSpan]
  simp only [ghostAtOnce, ghostPass, hgather, hscatter, Prog.bind_assoc, Prog.ret_bind,
    Prog.bind_ret]

theorem ghostComponents_succ (todo i : Nat) (vector aVector bVector : Nat → t.Elem D) :
    ghostComponents p s t ldim req (todo + 1) i vector aVector bVector =
      (ghostPass p s t ldim req i 1 vector aVector bVector).bind fun done =>
        ghostComponents p s t ldim req todo (i + 1) done.1 done.2.1 done.2.2 := by
  have hgather : gatherComponent s t ldim req i vector bVector =
      gatherSpan s t ldim req i 1 vector bVector := by
    simp [gatherComponent, gatherSpan, storeRecord]
  have hscatter : ∀ aVector, scatterComponent s t ldim req i aVector vector =
      scatterSpan s t ldim req i 1 aVector vector := by
    intro aVector
    simp [scatterComponent, scatterSpan, storeSpan]
  simp only [ghostComponents, ghostPass, hgather, hscatter, Prog.bind_assoc, Prog.ret_bind]

end Passes

section PassRuns

variable {p : Nat} {s : Nat → RefNode D} {t : RefType} {ldim : Nat}
  {aMem bMem : Nat → Nat → Int}

/-- The lookup of an own ghost. -/
theorem entrySlot_self (h : Distributed p s) {r k node : Nat} (hr : r < p)
    (hk : (ghostOrder p (s r))[k]? = some node) (i : Nat) :
    (s r).entrySlot ldim i ((requestOf p s aMem bMem r).aGlobal k) =
      if refIntMax < i + ldim * node then .error .undefined else .ok node := by
  have hnode : node ∈ (s r).ghosts := (mem_ghostOrder h hr).mp (List.mem_of_getElem? hk)
  rw [RefNode.entrySlot, aGlobal_requestOf h hr hk, h.nodeLocal_self hr hnode]
  rfl

/-- The lookup of a ghost that another rank asks for. -/
theorem entrySlot_asked (h : Distributed p s) {r k q node : Nat} (hr : r < p)
    (hk : (requestOrder p s r)[k]? = some (q, node)) (i : Nat) :
    (s r).entrySlot ldim i ((requestOf p s aMem bMem r).bGlobal k) =
      if refIntMax < i + ldim * ownerSlot s q node then .error .undefined
      else .ok (ownerSlot s q node) := by
  obtain ⟨hq, hnode, hpart⟩ := mem_requestOrder.mp (List.mem_of_getElem? hk)
  have hlocal := h.nodeLocal_owner hq hnode
  rw [hpart] at hlocal
  rw [RefNode.entrySlot, bGlobal_requestOf h hr hk, hlocal]
  rfl

/-- The entries up to component `last` of every ghost, and of its owner's
slot, have indices that fit a `REF_INT`. -/
def EntriesFit (p : Nat) (s : Nat → RefNode D) (ldim last : Nat) : Prop :=
  ∀ r, r < p → ∀ node ∈ (s r).ghosts,
    last + ldim * node ≤ refIntMax ∧ last + ldim * ownerSlot s r node ≤ refIntMax

theorem gatherSpan_ok (aMem bMem : Nat → Nat → Int) (h : Distributed p s) {r first n : Nat} (hr : r < p)
    (hfit : EntriesFit p s ldim (first + n - 1)) (vector bVector : Nat → t.Elem D) :
    ∃ buf, gatherSpan (s r) t ldim (requestOf p s aMem bMem r) first n vector bVector = .ok buf ∧
      ∀ k q node, (requestOrder p s r)[k]? = some (q, node) → ∀ l, l < n →
        buf (l + n * k) = vector (first + l + ldim * ownerSlot s q node) := by
  have hask : ∀ k ∈ List.range (requestOf p s aMem bMem r).bTotal,
      ∃ q node, (requestOrder p s r)[k]? = some (q, node) := by
    intro k hk
    exact ⟨_, _, List.getElem?_eq_getElem (List.mem_range.mp hk)⟩
  -- the slot that request `k` finds
  let slot : Nat → Nat := fun k =>
    (requestOrder p s r)[k]?.elim 0 fun ask => ownerSlot s ask.1 ask.2
  have hslot : ∀ {k q node}, (requestOrder p s r)[k]? = some (q, node) →
      slot k = ownerSlot s q node := by
    intro k q node hk
    simp only [slot, hk, Option.elim_some]
  refine ⟨_, ArrayLoop.foldlM_ok (g := fun buf k =>
    storeRecord n (fun l => vector (first + l + ldim * slot k)) k buf) ?_ bVector, ?_⟩
  · intro k hk buf
    obtain ⟨q, node, hq⟩ := hask k hk
    have hmem := mem_requestOrder.mp (List.mem_of_getElem? hq)
    rw [entrySlot_asked h hr hq, if_neg (by have := (hfit q hmem.1 node hmem.2.1).2; omega),
      hslot hq]
    rfl
  · intro k q node hk l hl
    rw [← hslot hk]
    refine ArrayLoop.foldl_establish (a := k)
      (Q := fun buf => buf (l + n * k) = vector (first + l + ldim * slot k)) ?_ ?_ ?_ bVector
    · exact List.mem_range.mpr (List.getElem?_eq_some_iff.mp hk).1
    · intro buf
      rw [storeRecord_apply _ _ hl, if_pos rfl]
    · intro k' _ hne buf hbuf
      rw [storeRecord_apply _ _ hl, if_neg hne.symm]
      exact hbuf

theorem scatterSpan_ok (aMem bMem : Nat → Nat → Int) (h : Distributed p s) {r first n : Nat} (hr : r < p)
    (hn : first + n ≤ ldim) (hfit : EntriesFit p s ldim (first + n - 1))
    (aVector vector : Nat → t.Elem D) :
    ∃ vec, scatterSpan (s r) t ldim (requestOf p s aMem bMem r) first n aVector vector = .ok vec ∧
      (∀ k node, (ghostOrder p (s r))[k]? = some node → ∀ l, l < n →
        vec (first + l + ldim * node) = aVector (l + n * k)) ∧
      ∀ c node, c < ldim → ¬ (node ∈ (s r).ghosts ∧ first ≤ c ∧ c < first + n) →
        vec (c + ldim * node) = vector (c + ldim * node) := by
  have hghost : ∀ k ∈ List.range (requestOf p s aMem bMem r).aTotal,
      (ghostOrder p (s r))[k]? = some ((ghostOrder p (s r)).getD k 0) := by
    intro k hk
    have hlt : k < (ghostOrder p (s r)).length := List.mem_range.mp hk
    rw [List.getD_eq_getElem?_getD, List.getElem?_eq_getElem hlt]
    rfl
  refine ⟨_, ArrayLoop.foldlM_ok (g := fun vec k => storeSpan ldim first n
    (fun l => aVector (l + n * k)) ((ghostOrder p (s r)).getD k 0) vec) ?_ vector, ?_, ?_⟩
  · intro k hk vec
    have hnode : (ghostOrder p (s r)).getD k 0 ∈ (s r).ghosts :=
      (mem_ghostOrder h hr).mp (List.mem_of_getElem? (hghost k hk))
    rw [entrySlot_self h hr (hghost k hk), if_neg (by have := (hfit r hr _ hnode).1; omega)]
    rfl
  · intro k node hk l hl
    have hlt : k < (ghostOrder p (s r)).length := (List.getElem?_eq_some_iff.mp hk).1
    have hplace : (ghostOrder p (s r)).getD k 0 = node := by
      rw [List.getD_eq_getElem?_getD, hk]
      rfl
    refine ArrayLoop.foldl_establish (a := k)
      (Q := fun vec => vec (first + l + ldim * node) = aVector (l + n * k)) ?_ ?_ ?_ vector
    · exact List.mem_range.mpr hlt
    · intro vec
      rw [storeSpan_apply _ _ (by omega) hn, if_pos ⟨hplace.symm, by omega, by omega⟩,
        Nat.add_sub_cancel_left]
    · intro k' hk' hne vec hvec
      -- two requests are for two ghosts
      have hother : node ≠ (ghostOrder p (s r)).getD k' 0 := by
        intro e
        have hk'' := hghost k' hk'
        rw [← e] at hk''
        have hlt' : k' < (ghostOrder p (s r)).length := List.mem_range.mp hk'
        exact hne ((List.getElem?_inj hlt' (nodup_ghostOrder p (s r))).mp (hk''.trans hk.symm))
      rw [storeSpan_apply _ _ (by omega) hn, if_neg fun e => hother e.1]
      exact hvec
  · intro c node hc hout
    refine List.foldlRecOn
      (motive := fun vec : Nat → t.Elem D => vec (c + ldim * node) = vector (c + ldim * node))
      _ _ rfl ?_
    intro vec hvec k hk
    rw [storeSpan_apply _ _ hc hn, if_neg]
    · exact hvec
    · intro e
      rw [e.1] at hout
      exact hout ⟨(mem_ghostOrder h hr).mp (List.mem_of_getElem? (hghost k hk)), e.2⟩

/-- The data of rank `r` with the components below `m` of its ghosts taken
from their owners. -/
def refreshedTo {E : Type} (s : Nat → RefNode D) (ldim : Nat) (vector : Nat → Nat → E)
    (m r : Nat) : Nat → E := fun x =>
  if x % ldim < m ∧ x / ldim ∈ (s r).ghosts then
    vector ((s r).part (x / ldim)) (x % ldim + ldim * ownerSlot s r (x / ldim))
  else vector r x

theorem refreshedTo_apply {E : Type} {vector : Nat → Nat → E} {m r c node : Nat} (hc : c < ldim) :
    refreshedTo s ldim vector m r (c + ldim * node) =
      if c < m ∧ node ∈ (s r).ghosts then
        vector ((s r).part node) (c + ldim * ownerSlot s r node)
      else vector r (c + ldim * node) := by
  have hmod : (c + ldim * node) % ldim = c := by
    rw [Nat.add_mul_mod_self_left, Nat.mod_eq_of_lt hc]
  have hdiv : (c + ldim * node) / ldim = node := by
    rw [Nat.add_mul_div_left _ _ (by omega), Nat.div_eq_of_lt hc, Nat.zero_add]
  rw [refreshedTo, hmod, hdiv]

theorem refreshedTo_zero {E : Type} (vector : Nat → Nat → E) (r : Nat) :
    refreshedTo s ldim vector 0 r = vector r := by
  funext x
  rw [refreshedTo, if_neg (by omega)]

/-- What the three loops of a pass leave in the data. -/
theorem eq_refreshedTo {vector : Nat → Nat → t.Elem D} {first n r : Nat} (hpos : 0 < n)
    (hn : first + n ≤ ldim) (h : Distributed p s) (hr : r < p) {buf aVec : Nat → Nat → t.Elem D}
    {vec : Nat → t.Elem D}
    (hbuf : ∀ r, r < p → ∀ k q node, (requestOrder p s r)[k]? = some (q, node) → ∀ l, l < n →
      buf r (l + n * k) =
        refreshedTo s ldim vector first r (first + l + ldim * ownerSlot s q node))
    (hmoved : ∀ k node, (ghostOrder p (s r))[k]? = some node →
      ∃ k', (requestOrder p s ((s r).part node))[k']? = some (r, node) ∧
        ∀ l, l < n → aVec r (l + n * k) = buf ((s r).part node) (l + n * k'))
    (hnew : ∀ k node, (ghostOrder p (s r))[k]? = some node → ∀ l, l < n →
      vec (first + l + ldim * node) = aVec r (l + n * k))
    (hold : ∀ c node, c < ldim → ¬ (node ∈ (s r).ghosts ∧ first ≤ c ∧ c < first + n) →
      vec (c + ldim * node) = refreshedTo s ldim vector first r (c + ldim * node)) :
    vec = refreshedTo s ldim vector (first + n) r := by
  funext x
  have hdim : 0 < ldim := by omega
  have hc : x % ldim < ldim := Nat.mod_lt x hdim
  rw [← Nat.mod_add_div x ldim]
  generalize x % ldim = c at hc
  generalize x / ldim = node
  rw [refreshedTo_apply hc]
  by_cases hin : node ∈ (s r).ghosts ∧ first ≤ c ∧ c < first + n
  · obtain ⟨hnode, hge, hlt⟩ := hin
    obtain ⟨k, hk⟩ := List.mem_iff_getElem?.mp ((mem_ghostOrder h hr).mpr hnode)
    obtain ⟨k', hk', haVec⟩ := hmoved k node hk
    have hpart : (s r).part node < p := (h.owner r hr node hnode).1
    obtain ⟨l, rfl⟩ := Nat.exists_eq_add_of_le hge
    have hl : l < n := by omega
    rw [hnew k node hk l hl, haVec l hl, hbuf _ hpart k' r node hk' l hl,
      refreshedTo_apply hc, if_neg (by omega), if_pos ⟨hlt, hnode⟩]
  · rw [hold c node hc hin, refreshedTo_apply hc]
    by_cases hnode : node ∈ (s r).ghosts
    · simp only [hnode, and_true, true_and] at hin ⊢
      by_cases hfirst : c < first
      · rw [if_pos hfirst, if_pos (by omega)]
      · rw [if_neg hfirst, if_neg (by omega)]
    · simp only [hnode, and_false, if_false]

/-- **A pass** takes its components of every ghost from the owner. -/
theorem ghostPass_run (aMem bMem : Nat → Nat → Int) (h : Distributed p s) (first : Nat) {n : Nat}
    (hpos : 0 < n)
    (hn : first + n ≤ ldim) (hfit : EntriesFit p s ldim (first + n - 1))
    (hsent : ∀ r, r < p → n * (ghostOrder p (s r)).length ≤ refIntMax)
    (hasked : ∀ r, r < p → n * (requestOrder p s r).length ≤ refIntMax)
    (vector aVector bVector : Nat → Nat → t.Elem D) :
    ∃ out, Runs p (fun r => ghostPass p (s r) t ldim (requestOf p s aMem bMem r) first n
        (refreshedTo s ldim vector first r) (aVector r) (bVector r)) out ∧
      ∀ r, r < p → (out r).1 = refreshedTo s ldim vector (first + n) r := by
  have hnonempty : Nonempty (Nat → t.Elem D) := ⟨vector 0⟩
  choose! buf hgather hbuf using fun r (hr : r < p) => gatherSpan_ok aMem bMem h hr hfit
    (refreshedTo s ldim vector first r) (bVector r)
  let aVec : Nat → Nat → t.Elem D := exchanged p buf
    (fun q r => n * (requestOf p s aMem bMem q).bSize r)
    (fun r q => n * (requestOf p s aMem bMem r).aSize q) aVector
  choose! vec hscatter hnew hold using fun r (hr : r < p) =>
    scatterSpan_ok aMem bMem h hr hn hfit (aVec r)
      (refreshedTo s ldim vector first r)
  refine ⟨fun r => (vec r, aVec r, buf r), ?_, ?_⟩
  · refine Runs.congr (P := fun r => .alltoallv t (buf r)
      (fun q => n * (requestOf p s aMem bMem r).bSize q)
      (fun q => n * (requestOf p s aMem bMem r).aSize q) (aVector r) fun aVec =>
        (Prog.lift (scatterSpan (s r) t ldim (requestOf p s aMem bMem r) first n aVec
          (refreshedTo s ldim vector first r))).bind fun vec => .ret (vec, aVec, buf r)) ?_ ?_
    · refine .alltoallv t _ _ _ _ _ (fun r hr => rfl) (fun r q hr hq => ?_) (.ret fun r hr => ?_)
      · simp only [requestOf, onRanks_of_lt _ hr]
      · rw [show exchanged p buf _ _ aVector r = aVec r from rfl, hscatter r hr]
        rfl
    · intro r hr
      have hasize : SizesFit p n (requestOf p s aMem bMem r).aSize :=
        sizesFit_of_total (by rw [requestOf, start_aSize_all]; exact hsent r hr)
      have hbsize : SizesFit p n (requestOf p s aMem bMem r).bSize :=
        sizesFit_of_total (by rw [requestOf, start_bSize_all]; exact hasked r hr)
      rw [ghostPass, hgather r hr, Prog.lift_ok, Prog.ret_bind, alltoallv_eq hbsize hasize]
      rfl
  · intro r hr
    apply eq_refreshedTo hpos hn h hr hbuf _ (hnew r hr) (hold r hr)
    intro k node hk
    obtain ⟨k', hk', hrecord⟩ := exchanged_answer aMem bMem hr hk
    exact ⟨k', hk', fun l hl => hrecord n l buf aVector hl⟩

/-- **The branch that sends all components at once.** -/
theorem ghostAtOnce_run (aMem bMem : Nat → Nat → Int) (h : Distributed p s) (hdim : 0 < ldim)
    (hfit : EntriesFit p s ldim (ldim - 1))
    (hsent : ∀ r, r < p → ldim * (ghostOrder p (s r)).length ≤ refIntMax)
    (hasked : ∀ r, r < p → ldim * (requestOrder p s r).length ≤ refIntMax)
    (vector : Nat → Nat → t.Elem D) (mem : Nat → GhostMemory (t.Elem D)) :
    Runs p (fun r => ghostAtOnce p (s r) t ldim (requestOf p s aMem bMem r) (vector r) (mem r))
      (refreshedTo s ldim vector ldim) := by
  obtain ⟨mid, hrun, hmid⟩ := ghostPass_run aMem bMem h 0 hdim
    (show 0 + ldim ≤ ldim by omega) (by rwa [Nat.zero_add]) hsent hasked vector (fun r => (mem r).aVector)
    (fun r => (mem r).bVector)
  apply (hrun.bind (f := fun _ done => .ret done.1) (.ret fun r hr => by
    rw [hmid r hr, Nat.zero_add])).congr
  intro r hr
  have hfits : ¬ (refIntMax < ldim * (requestOf p s aMem bMem r).aTotal ∨
      refIntMax < ldim * (requestOf p s aMem bMem r).bTotal) := by
    have h1 := hsent r hr
    have h2 := hasked r hr
    simp only [requestOf]
    omega
  rw [ghostAtOnce_eq, if_neg hfits, refreshedTo_zero]

theorem ghostComponents_run (h : Distributed p s) (hfit : EntriesFit p s ldim (ldim - 1))
    (hasked : ∀ r, r < p → (requestOrder p s r).length ≤ refIntMax)
    (vector : Nat → Nat → t.Elem D) :
    ∀ (todo i : Nat) (aVector bVector : Nat → Nat → t.Elem D), i + todo = ldim →
      Runs p (fun r => ghostComponents p (s r) t ldim (requestOf p s aMem bMem r) todo i
          (refreshedTo s ldim vector i r) (aVector r) (bVector r))
        (refreshedTo s ldim vector ldim) := by
  intro todo
  induction todo with
  | zero =>
      intro i aVector bVector hi
      rw [Nat.add_zero] at hi
      subst hi
      exact .ret fun r hr => rfl
  | succ todo ih =>
      intro i aVector bVector hi
      have hfit' : EntriesFit p s ldim (i + 1 - 1) := by
        intro r hr node hnode
        have := hfit r hr node hnode
        omega
      obtain ⟨mid, hrun, hmid⟩ := ghostPass_run aMem bMem h i
        Nat.one_pos (show i + 1 ≤ ldim by omega) hfit' (fun r hr => by rw [Nat.one_mul]; exact length_ghostOrder_le h hr)
        (fun r hr => by rw [Nat.one_mul]; exact hasked r hr) vector aVector bVector
      have hrest := ih (i + 1) (fun r => (mid r).2.1) (fun r => (mid r).2.2) (by omega)
      apply (hrun.bind (f := fun r done => ghostComponents p (s r) t ldim
        (requestOf p s aMem bMem r) todo (i + 1) done.1 done.2.1 done.2.2) (hrest.congr _)).congr
      · intro r hr
        rw [ghostComponents_succ]
      · intro r hr
        rw [hmid r hr]

/-- **The branch that sends one component at a time.** -/
theorem ghostOneByOne_run (aMem bMem : Nat → Nat → Int) (h : Distributed p s) (hfit : EntriesFit p s ldim (ldim - 1))
    (hasked : ∀ r, r < p → (requestOrder p s r).length ≤ refIntMax)
    (vector : Nat → Nat → t.Elem D) (mem : Nat → GhostMemory (t.Elem D)) :
    Runs p (fun r => ghostOneByOne p (s r) t ldim (requestOf p s aMem bMem r) (vector r) (mem r))
      (refreshedTo s ldim vector ldim) := by
  apply (ghostComponents_run h hfit hasked vector ldim 0 (fun r => (mem r).aVector)
    (fun r => (mem r).bVector) (by omega)).congr
  intro r hr
  rw [ghostOneByOne, refreshedTo_zero]

end PassRuns

end RefineMesh
