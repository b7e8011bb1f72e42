import Mathlib.Tactic
import RefineMesh.Mpi
import RefineMesh.Redistribute

/-!
# The graph for a subset of the ranks

`ref_migrate_parmetis_subset` moves a distributed graph to the first `newproc`
ranks, has ParMETIS find a part for each vertex there and takes the parts back.
The graph is a distributed CSR: the vertices are cut by `vtxdist`, and a rank
holds `xadj`, `adjncy` and `adjwgt` of its vertices.

ParMETIS is not part of the repository.  It is a function from the graph, row
by row, to a part for each vertex.
-/

namespace RefineMesh

open Segments Spmd Redistribute

variable {D : Type}

/-- `ref_part_large_part_size`. -/
def refPartLargePartSize (totalThings totalParts : Int) : Int :=
  (totalThings + totalParts - 1).tdiv totalParts

/-- `ref_part_small_part_size`. -/
def refPartSmallPartSize (totalThings totalParts : Int) : Int := (totalThings - 1).tdiv totalParts

/-- `ref_part_n_large_part`. -/
def refPartNLargePart (totalThings totalParts : Int) : Int :=
  totalThings - totalParts * refPartSmallPartSize totalThings totalParts

/-- `ref_part_first`. -/
def refPartFirst (totalThings totalParts part : Int) : Int :=
  if part < refPartNLargePart totalThings totalParts then
    part * refPartLargePartSize totalThings totalParts
  else
    (part - refPartNLargePart totalThings totalParts) *
        refPartSmallPartSize totalThings totalParts +
      refPartNLargePart totalThings totalParts * refPartLargePartSize totalThings totalParts

/-- A vertex as ParMETIS sees it. -/
structure GraphRow (E : Type) where
  degree : Nat
  neighbors : List E
  weights : List E

/-- The piece of a distributed graph on one rank. -/
structure LocalGraph (E : Type) where
  xadj : Nat → Nat
  adjncy : Nat → E
  adjwgt : Nat → E

/-- Vertex `i` of the piece. -/
def LocalGraph.row {E : Type} (g : LocalGraph E) (i : Nat) : GraphRow E :=
  let degree := g.xadj (i + 1) - g.xadj i
  { degree
    neighbors := (List.range degree).map fun l => g.adjncy (g.xadj i + l)
    weights := (List.range degree).map fun l => g.adjwgt (g.xadj i + l) }

/-- The vertices of the first `n` ranks. -/
def graphRows {E : Type} (n : Nat) (cuts : Nat → Nat) (graph : Nat → LocalGraph E) :
    List (GraphRow E) :=
  (List.range n).flatMap fun r => (List.range (cuts (r + 1) - cuts r)).map (graph r).row

/-- `vtx`: the vertices over the first `newproc` ranks. -/
def subsetVtx (ntotal newproc : Nat) : Nat → Nat := fun proc =>
  if proc < newproc then (refPartFirst ntotal newproc proc).toNat else ntotal

/-- The memory of the receive buffers. -/
structure SubsetMemory (E : Type) where
  newdeg : Nat → Int
  adjncy : Nat → E
  adjwgt : Nat → E

section Subset

variable (p : Nat) (t : RefType) (parmMax : Nat)

/-- The number of edges of the vertices that go from `rank` to `proc`. -/
def edgeSendSize (vtx vtxdist xadjdist : Nat → Nat) (rank proc : Nat) : Nat :=
  let n0 := max (vtx proc) (vtxdist rank)
  let n1 := min (vtx (proc + 1)) (vtxdist (rank + 1))
  let nsend := n1 - n0
  let first := n0 - vtxdist rank
  if 0 < nsend then xadjdist (first + nsend) - xadjdist first else 0

/-- The degrees of the new vertices, summed up to `xadj`. -/
def subsetDegrees (rank : Nat) (vtx vtxdist xadjdist : Nat → Nat) (mem : Nat → Int) :
    RankProg D (Nat → Nat) :=
  let deg : Nat → Int := fun i => (xadjdist (i + 1) - xadjdist i : Nat)
  (alltoallv p .int deg (fun proc => overlap vtx vtxdist proc rank)
    (fun proc => overlap vtx vtxdist rank proc) 1 mem).bind fun newdeg =>
      .ret (start fun i => (newdeg i).toNat)

/-- The edges of the `nnew` new vertices. -/
def subsetEdges (rank nnew : Nat) (vtx vtxdist : Nat → Nat) (graph : LocalGraph (t.Elem D))
    (mem : SubsetMemory (t.Elem D)) (xadj : Nat → Nat) : RankProg D (LocalGraph (t.Elem D)) :=
  let sendSize := edgeSendSize vtx vtxdist graph.xadj rank
  if ∃ proc, proc < p ∧ refIntMax < sendSize proc then .fail .undefined
  else
    .alltoall sendSize fun recvSize =>
      let nrecv := start recvSize p
      if refIntMax < nrecv then .fail .undefined
      -- "verify total recv sizes"
      else if nrecv ≠ xadj nnew then .fail .failure
      else
        (alltoallv p t graph.adjncy sendSize recvSize 1 mem.adjncy).bind fun adjncy =>
          (alltoallv p t graph.adjwgt sendSize recvSize 1 mem.adjwgt).bind fun adjwgt =>
            .ret { xadj, adjncy, adjwgt }

/-- The first part of `ref_migrate_parmetis_subset`: the graph on the working
ranks.  `parmMax` is the largest `PARM_INT`; the counts are `REF_INT`. -/
def subsetGraph (rank newproc : Nat) (vtxdist : Nat → Nat) (graph : LocalGraph (t.Elem D))
    (mem : SubsetMemory (t.Elem D)) : RankProg D (LocalGraph (t.Elem D)) :=
  let ntotal := vtxdist p
  if ¬ (0 < newproc ∧ newproc ≤ p) then .fail .failure
  else if parmMax < ntotal + newproc - 1 then .fail .undefined
  else
    let vtx := subsetVtx ntotal newproc
    let nold := vtxdist (rank + 1) - vtxdist rank
    let nnew := vtx (rank + 1) - vtx rank
    if refIntMax < nold ∨ refIntMax < nnew then .fail .undefined
    else if ∃ i, i < nold ∧ refIntMax < graph.xadj (i + 1) - graph.xadj i then .fail .undefined
    else
      (subsetDegrees p rank vtx vtxdist graph.xadj mem.newdeg).bind
        (subsetEdges p t rank nnew vtx vtxdist graph mem)

/-- `part` after the call of ParMETIS by the first `newproc` ranks; a rank
without vertices has no entries. -/
def parmetisPart {E : Type} (parmetis : Nat → List (GraphRow E) → Nat → E) (npart newproc : Nat)
    (vtx : Nat → Nat) (graph : Nat → LocalGraph E) (r : Nat) : Nat → E := fun i =>
  parmetis npart (graphRows newproc vtx graph) (vtx r + i)

/-- The last part of `ref_migrate_parmetis_subset`: the parts go back. -/
def returnPart (rank newproc : Nat) (vtxdist : Nat → Nat) (part partdist : Nat → t.Elem D) :
    RankProg D (Nat → t.Elem D) :=
  let vtx := subsetVtx (vtxdist p) newproc
  alltoallv p t part (fun proc => overlap vtx vtxdist rank proc)
    (fun proc => overlap vtx vtxdist proc rank) 1 partdist

/-- Runs of `ref_migrate_parmetis_subset`: the graph is moved, ParMETIS is
called on the working ranks, the parts are moved back. -/
def SubsetRuns (parmetis : Nat → List (GraphRow (t.Elem D)) → Nat → t.Elem D)
    (npart newproc : Nat) (vtxdist : Nat → Nat) (graph : Nat → LocalGraph (t.Elem D))
    (mem : Nat → SubsetMemory (t.Elem D)) (partdist : Nat → Nat → t.Elem D)
    (new : Nat → LocalGraph (t.Elem D)) (out : Nat → Nat → t.Elem D) : Prop :=
  Runs p (fun r => subsetGraph p t parmMax r newproc vtxdist (graph r) (mem r)) new ∧
    Runs p (fun r => returnPart p t r newproc vtxdist
      (parmetisPart parmetis npart newproc (subsetVtx (vtxdist p) newproc) new r) (partdist r)) out

end Subset

/-! ## The cuts of the working ranks -/

/-- No things start at 0, also where the quotient `-1 / 1` of the source is
`-1`. -/
theorem refPartFirst_none {parts part : Nat} (hparts : 0 < parts) (hpart : part ≤ parts) :
    refPartFirst (0 : Nat) parts part = 0 := by
  by_cases hone : parts = 1
  · subst hone
    interval_cases part <;> decide
  · have hsmall : refPartSmallPartSize (0 : Nat) parts = 0 := by
      rw [refPartSmallPartSize, Nat.cast_zero, zero_sub, Int.neg_tdiv,
        Int.tdiv_eq_zero_of_lt (by omega) (by omega), neg_zero]
    have hcount : refPartNLargePart (0 : Nat) parts = 0 := by
      rw [refPartNLargePart, hsmall]
      simp
    rw [refPartFirst, hcount, hsmall, if_neg (by omega)]
    simp

theorem refPartSmallPartSize_eq (n parts : Nat) :
    refPartSmallPartSize (n + 1 : Nat) parts = (n / parts : Nat) := by
  rw [refPartSmallPartSize, Nat.cast_succ, add_sub_cancel_right]
  exact Int.ofNat_tdiv n parts

theorem refPartLargePartSize_eq (n : Nat) {parts : Nat} (hparts : 0 < parts) :
    refPartLargePartSize (n + 1 : Nat) parts = (n / parts + 1 : Nat) := by
  have hsum : ((n + 1 : Nat) : Int) + parts - 1 = (n + parts : Nat) := by
    push_cast
    ring
  rw [refPartLargePartSize, hsum, ← Nat.add_div_right n hparts]
  exact Int.ofNat_tdiv (n + parts) parts

theorem refPartNLargePart_eq (n parts : Nat) :
    refPartNLargePart (n + 1 : Nat) parts = (n % parts + 1 : Nat) := by
  have hmod := Nat.div_add_mod n parts
  rw [refPartNLargePart, refPartSmallPartSize_eq, ← Nat.cast_mul, Nat.cast_succ]
  omega

/-- `ref_part_first`: every part has `small` things, and the first parts have
one more. -/
theorem refPartFirst_eq_add_min (n : Nat) {parts : Nat} (hparts : 0 < parts) (part : Int) :
    refPartFirst (n + 1 : Nat) parts part =
      part * (n / parts : Nat) + min part (n % parts + 1 : Nat) := by
  rw [refPartFirst, refPartNLargePart_eq, refPartSmallPartSize_eq,
    refPartLargePartSize_eq n hparts]
  split
  · rename_i hlt
    rw [min_eq_left hlt.le]
    push_cast
    ring
  · rename_i hge
    rw [min_eq_right (not_lt.mp hge)]
    push_cast
    ring

theorem refPartFirst_eq {n parts part : Nat} (hparts : 0 < parts) :
    refPartFirst (n + 1 : Nat) parts part = (part * (n / parts) + min part (n % parts + 1) : Nat) := by
  rw [refPartFirst_eq_add_min n hparts]
  push_cast
  rfl

/-- The cuts of the working ranks, with nothing for the others. -/
theorem subsetVtx_cuts {p newproc : Nat} (ntotal : Nat) (hnew : 0 < newproc) (hle : newproc ≤ p) :
    Cuts p ntotal (subsetVtx ntotal newproc) := by
  cases ntotal with
  | zero =>
      have hzero : ∀ proc, subsetVtx 0 newproc proc = 0 := by
        intro proc
        unfold subsetVtx
        split
        · rename_i hlt
          rw [refPartFirst_none hnew hlt.le]
          rfl
        · rfl
      exact ⟨hzero 0, hzero p, fun i j _ _ => by rw [hzero, hzero]⟩
  | succ n =>
      have hmod := Nat.div_add_mod n newproc
      have hrem := Nat.mod_lt n hnew
      have hval : ∀ proc, subsetVtx (n + 1) newproc proc =
          if proc < newproc then proc * (n / newproc) + min proc (n % newproc + 1) else n + 1 := by
        intro proc
        unfold subsetVtx
        split
        · rw [refPartFirst_eq hnew, Int.toNat_natCast]
        · rfl
      refine ⟨?_, ?_, ?_⟩
      · rw [hval, if_pos hnew]
        simp
      · rw [hval, if_neg (by omega)]
      · intro i j hij _
        rw [hval, hval]
        split
        · rename_i hi
          split
          · have hmul := Nat.mul_le_mul_right (n / newproc) hij
            omega
          · have hmul := Nat.mul_le_mul_right (n / newproc) hi.le
            omega
        · rw [if_neg (by omega)]

/-! ## The graph moves -/

/-- A graph that the ranks hold piece by piece: `vtxdist` cuts the vertices and
every `xadj` starts at 0 and does not decrease. -/
structure DistributedGraph {E : Type} (p : Nat) (vtxdist : Nat → Nat)
    (graph : Nat → LocalGraph E) : Prop where
  cuts : Cuts p (vtxdist p) vtxdist
  first : ∀ r, r < p → (graph r).xadj 0 = 0
  mono : ∀ r, r < p → ∀ i, i < vtxdist (r + 1) - vtxdist r → (graph r).xadj i ≤ (graph r).xadj (i + 1)

/-- The global form of a distributed graph: the degrees of all vertices and
the items of all edges. -/
structure GlobalGraph {E : Type} (p : Nat) (vtxdist : Nat → Nat) (graph : Nat → LocalGraph E)
    (len : Nat → Nat) (adjncy adjwgt : Nat → E) : Prop where
  xadj : ∀ r, r < p → ∀ i, vtxdist r + i ≤ vtxdist (r + 1) →
    start len (vtxdist r) + (graph r).xadj i = start len (vtxdist r + i)
  adjncy : ∀ r, r < p → ∀ l, start len (vtxdist r) + l < start len (vtxdist (r + 1)) →
    (graph r).adjncy l = adjncy (start len (vtxdist r) + l)
  adjwgt : ∀ r, r < p → ∀ l, start len (vtxdist r) + l < start len (vtxdist (r + 1)) →
    (graph r).adjwgt l = adjwgt (start len (vtxdist r) + l)

section Move

variable {E : Type} {p : Nat} {cuts : Nat → Nat} {graph : Nat → LocalGraph E}

theorem DistributedGraph.exists_global (h : DistributedGraph p cuts graph) :
    ∃ len adjncy adjwgt, GlobalGraph p cuts graph len adjncy adjwgt := by
  obtain ⟨len, hlen⟩ := h.cuts.exists_joined fun r i => (graph r).xadj (i + 1) - (graph r).xadj i
  have hxadj : ∀ r, r < p → ∀ i, cuts r + i ≤ cuts (r + 1) →
      start len (cuts r) + (graph r).xadj i = start len (cuts r + i) := by
    intro r hr i
    induction i with
    | zero =>
        intro _
        rw [h.first r hr, Nat.add_zero, Nat.add_zero]
    | succ i ih =>
        intro hi
        have hmono := h.mono r hr i (by omega)
        have hdeg := hlen r hr i (by omega)
        have hprev := ih (by omega)
        rw [← Nat.add_assoc, start_succ]
        omega
  obtain ⟨adjncy, hadjncy⟩ := (h.cuts.items len).exists_joined fun r => (graph r).adjncy
  obtain ⟨adjwgt, hadjwgt⟩ := (h.cuts.items len).exists_joined fun r => (graph r).adjwgt
  exact ⟨len, adjncy, adjwgt, hxadj, hadjncy, hadjwgt⟩

/-- Row `g` of the global form. -/
def globalRow (len : Nat → Nat) (adjncy adjwgt : Nat → E) (g : Nat) : GraphRow E :=
  { degree := len g
    neighbors := (List.range (len g)).map fun l => adjncy (start len g + l)
    weights := (List.range (len g)).map fun l => adjwgt (start len g + l) }

theorem GlobalGraph.row_eq {len : Nat → Nat} {adjncy adjwgt : Nat → E}
    (h : GlobalGraph p cuts graph len adjncy adjwgt) {r i : Nat}
    (hr : r < p) (hi : cuts r + i < cuts (r + 1)) :
    (graph r).row i = globalRow len adjncy adjwgt (cuts r + i) := by
  have hfrom := h.xadj r hr i (by omega)
  have hto := h.xadj r hr (i + 1) (by omega)
  rw [← Nat.add_assoc, start_succ] at hto
  have hdeg : (graph r).xadj (i + 1) - (graph r).xadj i = len (cuts r + i) := by omega
  -- the items of the row are items of this rank
  have hend : start len (cuts r + i) + len (cuts r + i) ≤ start len (cuts (r + 1)) := by
    rw [← start_succ]
    exact start_le (by omega)
  rw [LocalGraph.row, globalRow, hdeg]
  congr 1
  · apply List.map_congr_left
    intro l hl
    have hl := List.mem_range.mp hl
    rw [h.adjncy r hr _ (by omega)]
    congr 1
    omega
  · apply List.map_congr_left
    intro l hl
    have hl := List.mem_range.mp hl
    rw [h.adjwgt r hr _ (by omega)]
    congr 1
    omega

theorem GlobalGraph.rows_eq {len : Nat → Nat} {adjncy adjwgt : Nat → E}
    (h : GlobalGraph p cuts graph len adjncy adjwgt) (hcuts : Cuts p (cuts p) cuts) :
    graphRows p cuts graph = (List.range (cuts p)).map (globalRow len adjncy adjwgt) :=
  hcuts.flatMap_range fun _ hr _ hi => h.row_eq hr hi

/-- The number of edges of the first `m` vertices. -/
def edgesBefore (p : Nat) (cuts : Nat → Nat) (graph : Nat → LocalGraph E) (m : Nat) : Nat :=
  (((graphRows p cuts graph).take m).map GraphRow.degree).sum

theorem GlobalGraph.edgesBefore_eq {len : Nat → Nat} {adjncy adjwgt : Nat → E}
    (h : GlobalGraph p cuts graph len adjncy adjwgt) (hcuts : Cuts p (cuts p) cuts) {m : Nat}
    (hm : m ≤ cuts p) : edgesBefore p cuts graph m = start len m := by
  rw [edgesBefore, h.rows_eq hcuts, ← List.map_take, List.map_map, List.take_range, min_eq_left hm]
  exact sum_map_range len m

end Move


section Run

variable {p total : Nat} {t : RefType} {vtx vtxdist : Nat → Nat}

/-- One exchange from the cuts `b` to the cuts `a`. -/
theorem moved_run {a b : Nat → Nat} (ha : Cuts p total a) (hb : Cuts p total b)
    {send : Nat → Nat → t.Elem D} {x : Nat → t.Elem D} {sendSize recvSize : Nat → Nat → Nat}
    (hsend : ∀ q, q < p → ∀ j, b q + j < b (q + 1) → send q j = x (b q + j))
    (hsent : ∀ q r, q < p → r < p → sendSize q r = overlap a b r q)
    (hrecv : ∀ r q, r < p → q < p → recvSize r q = overlap a b r q)
    (hold : ∀ r, r < p → b (r + 1) - b r ≤ refIntMax)
    (hnew : ∀ r, r < p → a (r + 1) - a r ≤ refIntMax) (mem : Nat → Nat → t.Elem D) :
    ∃ out, Runs p (fun r => alltoallv p t (send r) (sendSize r) (recvSize r) 1 (mem r)) out ∧
      ∀ r, r < p → ∀ i, a r + i < a (r + 1) → out r i = x (a r + i) := by
  refine ⟨_, .alltoallv t send (fun q r => 1 * sendSize q r) (fun r q => 1 * recvSize r q) mem
    (fun _ => .ret) (fun r hr => alltoallv_eq ?_ ?_ _ _) ?_ (.ret fun r _ => rfl), ?_⟩
  · apply sizesFit_of_total
    rw [Nat.one_mul, start_congr fun m hm => hsent r m hr hm, ha.start_overlap_all hb hr]
    exact hold r hr
  · apply sizesFit_of_total
    rw [Nat.one_mul, start_congr fun m hm => (hrecv r m hr hm).trans (overlap_comm _ _ _ _),
      hb.start_overlap_all ha hr]
    exact hnew r hr
  · intro r q hr hq
    rw [hsent q r hq hr, hrecv r q hr hq]
  · intro r hr i hi
    apply ha.exchanged_eq hb hsend _ _ mem hr hi
    · intro q r hq hr
      rw [Nat.one_mul, hsent q r hq hr]
    · intro r q hr hq
      rw [Nat.one_mul, hrecv r q hr hq]

variable {len : Nat → Nat} {adjncy adjwgt : Nat → t.Elem D} {graph : Nat → LocalGraph (t.Elem D)}

/-- The new `xadj` count the edges from the first vertex of the rank on. -/
theorem subsetDegrees_run (ha : Cuts p total vtx) (hb : Cuts p total vtxdist)
    (hglobal : GlobalGraph p vtxdist graph len adjncy adjwgt)
    (hold : ∀ r, r < p → vtxdist (r + 1) - vtxdist r ≤ refIntMax)
    (hnew : ∀ r, r < p → vtx (r + 1) - vtx r ≤ refIntMax) (mem : Nat → Nat → Int) :
    ∃ xadj : Nat → Nat → Nat,
      Runs p (fun r => (subsetDegrees p r vtx vtxdist (graph r).xadj (mem r) :
        RankProg D (Nat → Nat))) xadj ∧
      ∀ r, r < p → ∀ i, vtx r + i ≤ vtx (r + 1) →
        start len (vtx r) + xadj r i = start len (vtx r + i) := by
  have hdeg : ∀ q, q < p → ∀ j, vtxdist q + j < vtxdist (q + 1) →
      (((graph q).xadj (j + 1) - (graph q).xadj j : Nat) : Int) = (len (vtxdist q + j) : Nat) := by
    intro q hq j hj
    have hfrom := hglobal.xadj q hq j (by omega)
    have hto := hglobal.xadj q hq (j + 1) (by omega)
    rw [← Nat.add_assoc, start_succ] at hto
    congr 1
    omega
  obtain ⟨newdeg, hrun, hout⟩ := moved_run (D := D) (t := .int) ha hb
    (x := fun g => ((len g : Nat) : Int)) hdeg
    (show ∀ q r, q < p → r < p → overlap vtx vtxdist r q = overlap vtx vtxdist r q from
      fun _ _ _ _ => rfl)
    (show ∀ r q, r < p → q < p → overlap vtx vtxdist r q = overlap vtx vtxdist r q from
      fun _ _ _ _ => rfl) hold hnew mem
  refine ⟨fun r => start fun i => Int.toNat (newdeg r i),
    Runs.bind (f := fun _ (newdeg : Nat → Int) => .ret (start fun i => (newdeg i).toNat)) hrun
      (.ret fun r _ => rfl), ?_⟩
  intro r hr i hi
  rw [start_add]
  congr 1
  apply start_congr
  intro k hk
  rw [hout r hr k (by omega)]
  rfl

/-- A rank sends the edges that are in its old piece and in the new piece of
the receiver. -/
theorem edgeSendSize_eq (hglobal : GlobalGraph p vtxdist graph len adjncy adjwgt) {q : Nat}
    (hq : q < p) (r : Nat) :
    edgeSendSize vtx vtxdist (graph q).xadj q r =
      overlap (fun r => start len (vtx r)) (fun q => start len (vtxdist q)) r q := by
  rw [overlap_items, edgeSendSize]
  split
  · rename_i hpos
    have hfrom := hglobal.xadj q hq (max (vtx r) (vtxdist q) - vtxdist q) (by omega)
    have hto := hglobal.xadj q hq (max (vtx r) (vtxdist q) - vtxdist q +
      (min (vtx (r + 1)) (vtxdist (q + 1)) - max (vtx r) (vtxdist q))) (by omega)
    rw [show vtxdist q + (max (vtx r) (vtxdist q) - vtxdist q) = max (vtx r) (vtxdist q) by omega]
      at hfrom
    rw [show vtxdist q + (max (vtx r) (vtxdist q) - vtxdist q +
      (min (vtx (r + 1)) (vtxdist (q + 1)) - max (vtx r) (vtxdist q))) =
        min (vtx (r + 1)) (vtxdist (q + 1)) by omega] at hto
    omega
  · rename_i hnone
    have hle : start len (min (vtx (r + 1)) (vtxdist (q + 1))) ≤
        start len (max (vtx r) (vtxdist q)) := start_le (by omega)
    omega

/-- The edges that a rank sends are those of its old vertices. -/
theorem start_edgeSendSize (ha : Cuts p total vtx) (hb : Cuts p total vtxdist)
    (hglobal : GlobalGraph p vtxdist graph len adjncy adjwgt) {r : Nat} (hr : r < p) :
    start (edgeSendSize vtx vtxdist (graph r).xadj r) p =
      start len (vtxdist (r + 1)) - start len (vtxdist r) := by
  rw [← (ha.items len).start_overlap_all (hb.items len) hr]
  exact start_congr fun q _ => edgeSendSize_eq hglobal hr q

theorem edgeSendSize_le (ha : Cuts p total vtx) (hb : Cuts p total vtxdist)
    (hglobal : GlobalGraph p vtxdist graph len adjncy adjwgt) {r : Nat} (hr : r < p)
    (hold : start len (vtxdist (r + 1)) - start len (vtxdist r) ≤ refIntMax) :
    ¬ ∃ proc, proc < p ∧ refIntMax < edgeSendSize vtx vtxdist (graph r).xadj r proc := by
  rintro ⟨proc, hproc, hover⟩
  have hle : start (edgeSendSize vtx vtxdist (graph r).xadj r) (proc + 1) ≤
      start (edgeSendSize vtx vtxdist (graph r).xadj r) p := start_le hproc
  rw [start_succ, start_edgeSendSize ha hb hglobal hr] at hle
  omega

/-- The edges that a rank receives are those of its new vertices. -/
theorem start_edgeRecvSize (ha : Cuts p total vtx) (hb : Cuts p total vtxdist)
    (hglobal : GlobalGraph p vtxdist graph len adjncy adjwgt) {r : Nat} (hr : r < p) :
    start (onRanks p fun q => edgeSendSize vtx vtxdist (graph q).xadj q r) p =
      start len (vtx (r + 1)) - start len (vtx r) := by
  rw [← (hb.items len).start_overlap_all (ha.items len) hr]
  apply start_congr
  intro q hq
  rw [onRanks_of_lt _ hq, edgeSendSize_eq hglobal hq, overlap_comm]

/-- The edges arrive with their vertices. -/
theorem subsetEdges_run (ha : Cuts p total vtx) (hb : Cuts p total vtxdist)
    (hglobal : GlobalGraph p vtxdist graph len adjncy adjwgt)
    (hold : ∀ r, r < p → start len (vtxdist (r + 1)) - start len (vtxdist r) ≤ refIntMax)
    (hnew : ∀ r, r < p → start len (vtx (r + 1)) - start len (vtx r) ≤ refIntMax)
    {xadj : Nat → Nat → Nat}
    (hxadj : ∀ r, r < p → ∀ i, vtx r + i ≤ vtx (r + 1) →
      start len (vtx r) + xadj r i = start len (vtx r + i))
    (mem : Nat → SubsetMemory (t.Elem D)) :
    ∃ new, Runs p (fun r => subsetEdges p t r (vtx (r + 1) - vtx r) vtx vtxdist (graph r) (mem r)
        (xadj r)) new ∧
      GlobalGraph p vtx new len adjncy adjwgt := by
  have hae := ha.items len
  have hbe := hb.items len
  have hsent : ∀ q r, q < p → r < p → edgeSendSize vtx vtxdist (graph q).xadj q r =
      overlap (fun r => start len (vtx r)) (fun q => start len (vtxdist q)) r q :=
    fun q r hq _ => edgeSendSize_eq hglobal hq r
  let recvSize : Nat → Nat → Nat := fun r =>
    onRanks p fun q => edgeSendSize vtx vtxdist (graph q).xadj q r
  have hrecv : ∀ r q, r < p → q < p → recvSize r q =
      overlap (fun r => start len (vtx r)) (fun q => start len (vtxdist q)) r q :=
    fun r q hr hq => (onRanks_of_lt _ hq).trans (hsent q r hq hr)
  obtain ⟨newAdjncy, hrunAdjncy, hadjncy⟩ := moved_run hae hbe hglobal.adjncy hsent hrecv hold hnew
    fun r => (mem r).adjncy
  obtain ⟨newAdjwgt, hrunAdjwgt, hadjwgt⟩ := moved_run hae hbe hglobal.adjwgt hsent hrecv hold hnew
    fun r => (mem r).adjwgt
  refine ⟨fun r => ⟨xadj r, newAdjncy r, newAdjwgt r⟩, ?_, hxadj, hadjncy, hadjwgt⟩
  have hnrecv : ∀ r, r < p → start (recvSize r) p =
      start len (vtx (r + 1)) - start len (vtx r) := fun r hr =>
    start_edgeRecvSize ha hb hglobal hr
  refine .alltoall (fun r => edgeSendSize vtx vtxdist (graph r).xadj r) _
    (fun r hr => by
      rw [subsetEdges, if_neg (edgeSendSize_le ha hb hglobal hr (hold r hr))]) ?_
  refine Runs.congr (hrunAdjncy.bind (f := fun r adjncy =>
    (alltoallv p t (graph r).adjwgt (edgeSendSize vtx vtxdist (graph r).xadj r) (recvSize r) 1
      (mem r).adjwgt).bind fun adjwgt => .ret ⟨xadj r, adjncy, adjwgt⟩)
    (hrunAdjwgt.bind (.ret fun r _ => rfl))) ?_
  intro r hr
  have hcheck : start (recvSize r) p = xadj r (vtx (r + 1) - vtx r) := by
    have hmono := ha.mono r (r + 1) (Nat.le_succ r) hr
    have hall := hxadj r hr (vtx (r + 1) - vtx r) (by omega)
    rw [show vtx r + (vtx (r + 1) - vtx r) = vtx (r + 1) by omega] at hall
    rw [hnrecv r hr]
    omega
  have hfit : ¬ refIntMax < start (recvSize r) p := by
    rw [hnrecv r hr]
    exact not_lt.mpr (hnew r hr)
  change (if refIntMax < start (recvSize r) p then _ else _) = _
  rw [if_neg hfit, if_neg (not_not.mpr hcheck)]

/-- The counts of old and new vertices and edges are `REF_INT`, and the sum
that `ref_part_first` forms is a `PARM_INT`. -/
structure SubsetFits {E : Type} (p newproc parmMax : Nat) (vtxdist : Nat → Nat)
    (graph : Nat → LocalGraph E) : Prop where
  things : vtxdist p + newproc - 1 ≤ parmMax
  old : ∀ r, r < p → vtxdist (r + 1) - vtxdist r ≤ refIntMax
  new : ∀ r, r < p →
    subsetVtx (vtxdist p) newproc (r + 1) - subsetVtx (vtxdist p) newproc r ≤ refIntMax
  oldEdges : ∀ r, r < p → edgesBefore p vtxdist graph (vtxdist (r + 1)) -
    edgesBefore p vtxdist graph (vtxdist r) ≤ refIntMax
  newEdges : ∀ r, r < p →
    edgesBefore p vtxdist graph (subsetVtx (vtxdist p) newproc (r + 1)) -
      edgesBefore p vtxdist graph (subsetVtx (vtxdist p) newproc r) ≤ refIntMax

variable {newproc parmMax : Nat}

theorem subsetGraph_eq (hnew : 0 < newproc) (hle : newproc ≤ p)
    (hthings : vtxdist p + newproc - 1 ≤ parmMax) {r : Nat} {g : LocalGraph (t.Elem D)}
    (hold : vtxdist (r + 1) - vtxdist r ≤ refIntMax)
    (hcount : subsetVtx (vtxdist p) newproc (r + 1) - subsetVtx (vtxdist p) newproc r ≤ refIntMax)
    (hdeg : ∀ i, i < vtxdist (r + 1) - vtxdist r → g.xadj (i + 1) - g.xadj i ≤ refIntMax)
    (mem : SubsetMemory (t.Elem D)) :
    subsetGraph p t parmMax r newproc vtxdist g mem =
      (subsetDegrees p r (subsetVtx (vtxdist p) newproc) vtxdist g.xadj mem.newdeg).bind
        (subsetEdges p t r (subsetVtx (vtxdist p) newproc (r + 1) - subsetVtx (vtxdist p) newproc r)
          (subsetVtx (vtxdist p) newproc) vtxdist g mem) := by
  have hsmall : ¬ ∃ i, i < vtxdist (r + 1) - vtxdist r ∧
      refIntMax < g.xadj (i + 1) - g.xadj i := by
    rintro ⟨i, hi, hover⟩
    exact absurd (hdeg i hi) (not_le.mpr hover)
  rw [subsetGraph, if_neg (not_not.mpr ⟨hnew, hle⟩), if_neg (not_lt.mpr hthings),
    if_neg (by omega), if_neg hsmall]

/-- A degree is a part of the edges of its rank. -/
theorem GlobalGraph.degree_le (hglobal : GlobalGraph p vtxdist graph len adjncy adjwgt) {r i : Nat}
    (hr : r < p) (hi : i < vtxdist (r + 1) - vtxdist r) :
    (graph r).xadj (i + 1) - (graph r).xadj i ≤
      start len (vtxdist (r + 1)) - start len (vtxdist r) := by
  have hfrom := hglobal.xadj r hr i (by omega)
  have hto := hglobal.xadj r hr (i + 1) (by omega)
  have hall : start len (vtxdist r + (i + 1)) ≤ start len (vtxdist (r + 1)) := start_le (by omega)
  have hnone : start len (vtxdist r) ≤ start len (vtxdist r + i) := start_le (by omega)
  omega

/-- **The graph moves.**  The working ranks get the rows of the graph, in
order, and every check passes. -/
theorem subsetGraph_run (h : DistributedGraph p vtxdist graph) (hnew : 0 < newproc)
    (hle : newproc ≤ p) (hfit : SubsetFits p newproc parmMax vtxdist graph)
    (mem : Nat → SubsetMemory (t.Elem D)) :
    ∃ new, Runs p (fun r => subsetGraph p t parmMax r newproc vtxdist (graph r) (mem r)) new ∧
      ∃ (len : Nat → Nat) (adjncy adjwgt : Nat → t.Elem D),
        GlobalGraph p vtxdist graph len adjncy adjwgt ∧
        GlobalGraph p (subsetVtx (vtxdist p) newproc) new len adjncy adjwgt := by
  obtain ⟨len, adjncy, adjwgt, hglobal⟩ := h.exists_global
  have hcuts := subsetVtx_cuts (vtxdist p) hnew hle
  have hoff : ∀ m, m ≤ p → edgesBefore p vtxdist graph (subsetVtx (vtxdist p) newproc m) =
      start len (subsetVtx (vtxdist p) newproc m) := fun m hm =>
    hglobal.edgesBefore_eq h.cuts (hcuts.le_total hm)
  have hoff' : ∀ m, m ≤ p → edgesBefore p vtxdist graph (vtxdist m) = start len (vtxdist m) :=
    fun m hm => hglobal.edgesBefore_eq h.cuts (h.cuts.le_total hm)
  have holdEdges : ∀ r, r < p →
      start len (vtxdist (r + 1)) - start len (vtxdist r) ≤ refIntMax := by
    intro r hr
    rw [← hoff' (r + 1) hr, ← hoff' r hr.le]
    exact hfit.oldEdges r hr
  have hnewEdges : ∀ r, r < p → start len (subsetVtx (vtxdist p) newproc (r + 1)) -
      start len (subsetVtx (vtxdist p) newproc r) ≤ refIntMax := by
    intro r hr
    rw [← hoff (r + 1) hr, ← hoff r hr.le]
    exact hfit.newEdges r hr
  obtain ⟨xadj, hdegrees, hxadj⟩ := subsetDegrees_run (D := D) hcuts h.cuts hglobal hfit.old hfit.new
    fun r => (mem r).newdeg
  obtain ⟨new, hedges, hnewGlobal⟩ := subsetEdges_run hcuts h.cuts hglobal holdEdges hnewEdges hxadj
    mem
  refine ⟨new, ?_, len, adjncy, adjwgt, hglobal, hnewGlobal⟩
  refine (hdegrees.bind hedges).congr fun r hr => ?_
  exact subsetGraph_eq hnew hle hfit.things (hfit.old r hr) (hfit.new r hr)
    (fun i hi => (hglobal.degree_le hr hi).trans (holdEdges r hr)) (mem r)

/-- A rank that gets more edges than a `REF_INT` counts ends every run. -/
theorem not_runs_subsetGraph (h : DistributedGraph p vtxdist graph) (hnew : 0 < newproc)
    (hle : newproc ≤ p) (hthings : vtxdist p + newproc - 1 ≤ parmMax)
    (hold : ∀ r, r < p → vtxdist (r + 1) - vtxdist r ≤ refIntMax)
    (hcount : ∀ r, r < p →
      subsetVtx (vtxdist p) newproc (r + 1) - subsetVtx (vtxdist p) newproc r ≤ refIntMax)
    (holdEdges : ∀ r, r < p → edgesBefore p vtxdist graph (vtxdist (r + 1)) -
      edgesBefore p vtxdist graph (vtxdist r) ≤ refIntMax) {r : Nat} (hr : r < p)
    (hover : refIntMax < edgesBefore p vtxdist graph (subsetVtx (vtxdist p) newproc (r + 1)) -
      edgesBefore p vtxdist graph (subsetVtx (vtxdist p) newproc r))
    {mem : Nat → SubsetMemory (t.Elem D)} {new : Nat → LocalGraph (t.Elem D)} :
    ¬ Runs p (fun r => subsetGraph p t parmMax r newproc vtxdist (graph r) (mem r)) new := by
  intro hrun
  obtain ⟨len, adjncy, adjwgt, hglobal⟩ := h.exists_global
  have hcuts := subsetVtx_cuts (vtxdist p) hnew hle
  have holdEdges' : ∀ q, q < p →
      start len (vtxdist (q + 1)) - start len (vtxdist q) ≤ refIntMax := by
    intro q hq
    rw [← hglobal.edgesBefore_eq h.cuts (h.cuts.le_total (show q + 1 ≤ p from hq)),
      ← hglobal.edgesBefore_eq h.cuts (h.cuts.le_total hq.le)]
    exact holdEdges q hq
  rw [hglobal.edgesBefore_eq h.cuts (hcuts.le_total (show r + 1 ≤ p from hr)),
    hglobal.edgesBefore_eq h.cuts (hcuts.le_total hr.le)] at hover
  obtain ⟨xadj, hdegrees, -⟩ := subsetDegrees_run (D := D) hcuts h.cuts hglobal hold hcount
    fun r => (mem r).newdeg
  have hphases := hrun.congr fun q hq => (subsetGraph_eq hnew hle hthings (hold q hq) (hcount q hq)
    (fun i hi => (hglobal.degree_le hq hi).trans (holdEdges' q hq)) (mem q)).symm
  have hedges := (Runs.bind_iff (by omega) hdegrees).mp hphases
  have hrest := (runs_alltoall_iff (by omega) fun q hq => by
    rw [subsetEdges, if_neg (edgeSendSize_le hcuts h.cuts hglobal hq (holdEdges' q hq))]).mp hedges
  refine not_runs_of_fail (e := .undefined) hr ?_ hrest
  dsimp only
  rw [start_edgeRecvSize hcuts h.cuts hglobal hr, if_pos hover]

/-- ParMETIS sees the whole graph on the working ranks. -/
theorem graphRows_subset {new : Nat → LocalGraph (t.Elem D)} (h : DistributedGraph p vtxdist graph)
    (hnew : 0 < newproc) (hle : newproc ≤ p)
    (hglobal : GlobalGraph p vtxdist graph len adjncy adjwgt)
    (hnewGlobal : GlobalGraph p (subsetVtx (vtxdist p) newproc) new len adjncy adjwgt) :
    graphRows p (subsetVtx (vtxdist p) newproc) new = graphRows p vtxdist graph ∧
      graphRows newproc (subsetVtx (vtxdist p) newproc) new = graphRows p vtxdist graph := by
  have hrows := hglobal.rows_eq h.cuts
  constructor
  · rw [hrows]
    exact (subsetVtx_cuts (vtxdist p) hnew hle).flatMap_range fun _ hr _ hi => hnewGlobal.row_eq hr hi
  · rw [hrows]
    exact (subsetVtx_cuts (vtxdist p) hnew le_rfl).flatMap_range fun _ hr _ hi =>
      hnewGlobal.row_eq (hr.trans_le hle) hi

/-- The parts go back to the ranks of the vertices. -/
theorem returnPart_run (h : DistributedGraph p vtxdist graph) (hnew : 0 < newproc)
    (hle : newproc ≤ p) (hfit : SubsetFits p newproc parmMax vtxdist graph)
    (parts : Nat → t.Elem D) (partdist : Nat → Nat → t.Elem D) :
    ∃ out, Runs p (fun r => returnPart p t r newproc vtxdist
        (fun i => parts (subsetVtx (vtxdist p) newproc r + i)) (partdist r)) out ∧
      ∀ r, r < p → ∀ i, vtxdist r + i < vtxdist (r + 1) → out r i = parts (vtxdist r + i) := by
  exact moved_run h.cuts (subsetVtx_cuts (vtxdist p) hnew hle) (fun _ _ _ _ => rfl)
    (fun q r _ _ => overlap_comm _ _ _ _) (fun r q _ _ => overlap_comm _ _ _ _) hfit.new hfit.old
    partdist

end Run

/-- **ParMETIS on a subset of the ranks.**  As long as the counts of vertices
and edges are `REF_INT`, the graph after the redistribution is the graph before
it, row by row, no check fails, and every rank gets the parts of its own
vertices. -/
theorem parmetis_subset {p newproc parmMax : Nat} {t : RefType} {vtxdist : Nat → Nat}
    {graph : Nat → LocalGraph (t.Elem D)} (h : DistributedGraph p vtxdist graph)
    (hnew : 0 < newproc) (hle : newproc ≤ p) (hfit : SubsetFits p newproc parmMax vtxdist graph)
    (parmetis : Nat → List (GraphRow (t.Elem D)) → Nat → t.Elem D) (npart : Nat)
    (mem : Nat → SubsetMemory (t.Elem D)) (partdist : Nat → Nat → t.Elem D) :
    (∃ new out, SubsetRuns p t parmMax parmetis npart newproc vtxdist graph mem partdist new out) ∧
    ∀ new out, SubsetRuns p t parmMax parmetis npart newproc vtxdist graph mem partdist new out →
      graphRows p (subsetVtx (vtxdist p) newproc) new = graphRows p vtxdist graph ∧
      ∀ r, r < p → ∀ i, i < vtxdist (r + 1) - vtxdist r →
        out r i = parmetis npart (graphRows p vtxdist graph) (vtxdist r + i) := by
  obtain ⟨new, hrun, len, adjncy, adjwgt, hglobal, hnewGlobal⟩ := subsetGraph_run h hnew hle hfit mem
  obtain ⟨hall, hworking⟩ := graphRows_subset h hnew hle hglobal hnewGlobal
  obtain ⟨out, hback, hout⟩ := returnPart_run h hnew hle hfit
    (parmetis npart (graphRows p vtxdist graph)) partdist
  have hparts : ∀ r, parmetisPart parmetis npart newproc (subsetVtx (vtxdist p) newproc) new r =
      fun i => parmetis npart (graphRows p vtxdist graph) (subsetVtx (vtxdist p) newproc r + i) := by
    intro r
    unfold parmetisPart
    rw [hworking]
  constructor
  · refine ⟨new, out, hrun, ?_⟩
    simp only [hparts]
    exact hback
  · intro new' out' hruns
    obtain ⟨hrun', hback'⟩ := hruns
    have hsame := hrun'.unique hrun
    have hrows : ∀ n, n ≤ p → graphRows n (subsetVtx (vtxdist p) newproc) new' =
        graphRows n (subsetVtx (vtxdist p) newproc) new := by
      intro n hn
      apply List.flatMap_congr
      intro r hr
      rw [hsame r ((List.mem_range.mp hr).trans_le hn)]
    refine ⟨(hrows p le_rfl).trans hall, ?_⟩
    intro r hr i hi
    have hparts' : ∀ r, parmetisPart parmetis npart newproc (subsetVtx (vtxdist p) newproc) new' r =
        fun i => parmetis npart (graphRows p vtxdist graph)
          (subsetVtx (vtxdist p) newproc r + i) := by
      intro r
      rw [← hparts r]
      unfold parmetisPart
      rw [hrows newproc hle]
    simp only [hparts'] at hback'
    rw [hback'.unique hback r hr]
    exact hout r hr i (by omega)

/-! ## Two vertices on two ranks -/

/-- Rank `r` holds one vertex with `m` edges to the other. -/
def pairGraph (m r : Nat) : LocalGraph (RefType.long.Elem Int) where
  xadj := fun i => i * m
  adjncy := fun _ => ((1 - r : Nat) : Int)
  adjwgt := fun _ => (1 : Int)

theorem pairGraph_distributed (m : Nat) : DistributedGraph 2 id (pairGraph m) := by
  refine ⟨⟨rfl, rfl, fun i j hij _ => hij⟩, fun r _ => Nat.zero_mul m, ?_⟩
  intro r _ i _
  exact Nat.mul_le_mul_right m (Nat.le_succ i)

theorem pairGraph_edges (m i : Nat) (hi : i ≤ 2) :
    edgesBefore 2 id (pairGraph m) i = i * m := by
  have hdeg : ((graphRows 2 id (pairGraph m)).take i).map GraphRow.degree = List.replicate i m := by
    have hall : graphRows 2 id (pairGraph m) = [(pairGraph m 0).row 0, (pairGraph m 1).row 0] := rfl
    have hrow : ∀ r, ((pairGraph m r).row 0).degree = m := by
      intro r
      simp [LocalGraph.row, pairGraph]
    rw [hall]
    interval_cases i
    · rfl
    · simp [hrow]
    · simp [hrow]
  rw [edgesBefore, hdeg, List.sum_replicate, smul_eq_mul]

/-- The memory of the two ranks. -/
def pairMemory : SubsetMemory (RefType.long.Elem Int) :=
  ⟨fun _ => 0, fun _ => (0 : Int), fun _ => (0 : Int)⟩

/-- A partitioner that deals the vertices out in turn. -/
def dealVertices (npart : Nat) (_ : List (GraphRow (RefType.long.Elem Int))) (v : Nat) :
    RefType.long.Elem Int := ((v % npart : Nat) : Int)

theorem parmetis_subset_two_ranks :
    (∃ new out, SubsetRuns 2 .long refIntMax dealVertices 2 1 id (pairGraph 1)
      (fun _ => pairMemory) (fun _ _ => (0 : Int)) new out) ∧
    ∀ new out, SubsetRuns 2 .long refIntMax dealVertices 2 1 id (pairGraph 1)
        (fun _ => pairMemory) (fun _ _ => (0 : Int)) new out →
      graphRows 2 (subsetVtx 2 1) new = graphRows 2 id (pairGraph 1) ∧
      ∀ r, r < 2 → ∀ i, i < id (r + 1) - id r →
        out r i = dealVertices 2 (graphRows 2 id (pairGraph 1)) (id r + i) := by
  apply parmetis_subset (t := .long) (pairGraph_distributed 1) (by decide) (by decide)
  exact ⟨by decide, by decide, by decide, by decide, by decide⟩

/-- Two vertices with 1073741824 edges each: on one rank their number is no
`REF_INT`. -/
theorem parmetis_subset_overflow :
    ¬ ∀ (p newproc parmMax : Nat) (t : RefType) (vtxdist : Nat → Nat)
      (graph : Nat → LocalGraph (t.Elem Int)), DistributedGraph p vtxdist graph → 0 < newproc →
      newproc ≤ p → vtxdist p + newproc - 1 ≤ parmMax →
      ∀ (parmetis : Nat → List (GraphRow (t.Elem Int)) → Nat → t.Elem Int) (npart : Nat)
        (mem : Nat → SubsetMemory (t.Elem Int)) (partdist : Nat → Nat → t.Elem Int),
        ∃ new out, SubsetRuns p t parmMax parmetis npart newproc vtxdist graph mem partdist new out := by
  intro h
  have hgraph := pairGraph_distributed (2 ^ 30)
  obtain ⟨new, out, hrun, -⟩ := h 2 1 refIntMax .long id (pairGraph (2 ^ 30)) hgraph (by decide)
    (by decide) (by decide) dealVertices 2 (fun _ => pairMemory) fun _ _ => (0 : Int)
  refine not_runs_subsetGraph (t := .long) (r := 0) hgraph (by decide) (by decide) (by decide)
    (by decide) (by decide) ?_ (by decide) ?_ hrun
  · intro r hr
    rw [pairGraph_edges _ _ (show id (r + 1) ≤ 2 by simp only [id]; omega),
      pairGraph_edges _ _ (show id r ≤ 2 by simp only [id]; omega)]
    simp only [id, refIntMax]
    omega
  · rw [pairGraph_edges _ _ (by decide), pairGraph_edges _ _ (by decide)]
    decide

end RefineMesh
