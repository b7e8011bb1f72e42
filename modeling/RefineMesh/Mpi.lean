import Mathlib.Tactic
import RefineMesh.Status
import RefineMesh.Segments
import RefineMesh.Spmd

/-!
# Exchanges between ranks

The exchanges of `ref_mpi.c` on top of the collectives of MPI.  `p` is
`ref_mpi_n`.  Sizes and displacements are `REF_INT`: `ref_mpi_alltoallv` checks
its products and prefix sums, the totals of its callers are not checked and
overflow.  Only one rank makes no collective call at all.
-/

namespace RefineMesh

open Segments Spmd

/-- `REF_TYPE`; `REF_GLOB_TYPE` is `long`. -/
inductive RefType
  | int
  | long
  | dbl
  deriving DecidableEq, Repr

/-- The C type behind a `REF_TYPE`. -/
def RefType.Elem (D : Type) : RefType → Type
  | .int => Int
  | .long => Int
  | .dbl => D

/-- The program of one rank. -/
abbrev RankProg (D α : Type) : Type := Prog (RefType.Elem D) Status α

variable {D : Type}

/-- The two checks of `ref_mpi_alltoallv` on one array of sizes: each product
with `n` and each displacement fits a `REF_INT`. -/
def SizesFit (p n : Nat) (size : Nat → Nat) : Prop :=
  (∀ part, part < p → n * size part ≤ refIntMax) ∧
    ∀ part, part < p → start (fun q => n * size q) part ≤ refIntMax

instance (p n : Nat) (size : Nat → Nat) : Decidable (SizesFit p n size) :=
  inferInstanceAs (Decidable (_ ∧ _))

theorem sizesFit_of_total {p n : Nat} {size : Nat → Nat} (h : n * start size p ≤ refIntMax) :
    SizesFit p n size := by
  constructor
  · intro part hpart
    have hle : start size (part + 1) ≤ start size p := start_le hpart
    rw [start_succ] at hle
    calc n * size part ≤ n * start size p := Nat.mul_le_mul_left n (by omega)
      _ ≤ refIntMax := h
  · intro part hpart
    rw [start_mul]
    exact (Nat.mul_le_mul_left n (start_le hpart.le)).trans h

/-- `ref_mpi_alltoallv`; `mem` is the memory of the receive buffer. -/
def alltoallv (p : Nat) (t : RefType) (send : Nat → t.Elem D) (sendSize recvSize : Nat → Nat)
    (n : Nat) (mem : Nat → t.Elem D) : RankProg D (Nat → t.Elem D) :=
  if ¬ SizesFit p n sendSize then .fail .failure
  else if ¬ SizesFit p n recvSize then .fail .failure
  else .alltoallv t send (fun q => n * sendSize q) (fun q => n * recvSize q) mem .ret

theorem alltoallv_eq {p : Nat} {t : RefType} {sendSize recvSize : Nat → Nat} {n : Nat}
    (hsend : SizesFit p n sendSize) (hrecv : SizesFit p n recvSize) (send mem : Nat → t.Elem D) :
    alltoallv p t send sendSize recvSize n mem =
      .alltoallv t send (fun q => n * sendSize q) (fun q => n * recvSize q) mem .ret := by
  rw [alltoallv, if_neg (not_not.mpr hsend), if_neg (not_not.mpr hrecv)]

/-- `ref_mpi_blindsend`; `aMem` and `recvMem` are the memory of its buffers. -/
def blindsend (p : Nat) (proc : Nat → Nat) (t : RefType) (send : Nat → t.Elem D)
    (ldim nsend : Nat) (aMem recvMem : Nat → t.Elem D) : RankProg D ((Nat → t.Elem D) × Nat) :=
  if p ≤ 1 then
    if refIntMax < ldim * nsend then .fail .undefined
    else .ret (fun i => if i < ldim * nsend then send i else recvMem i, nsend)
  else
    let aSize := tally proc (List.range nsend) (fun _ => 0)
    .alltoall aSize fun bSize =>
      let aTotal := start aSize p
      let bTotal := start bSize p
      if refIntMax < aTotal ∨ refIntMax < bTotal then .fail .undefined
      else if refIntMax < ldim * aTotal ∨ refIntMax < ldim * bTotal then .fail .undefined
      else
        let aNext := start aSize
        let aData := ((List.range nsend).foldl
          (bucketStep proc fun buf k i => storeRecord ldim (fun l => send (l + ldim * i)) k buf)
          (aNext, aMem)).2
        (alltoallv p t aData aSize bSize ldim recvMem).bind fun recv => .ret (recv, bTotal)

/-- The loop of `find_destination`. -/
def findDestinationFrom (n : Nat) (shares : Nat → Nat) : Nat → Nat → Nat → Nat
  | _, 0, _ => n - 1
  | part, fuel+1, gid =>
      if gid < shares part then part
      else findDestinationFrom n shares (part + 1) fuel (gid - shares part)

/-- `find_destination`. -/
def findDestination (n : Nat) (shares : Nat → Nat) (gid : Nat) : Nat :=
  findDestinationFrom n shares 0 n gid

/-- The share of one rank in `ref_mpi_balance`. -/
def balancedShare (rank firstRank lastRank total : Nat) : Nat :=
  let active := lastRank + 1 - firstRank
  let inside := firstRank ≤ rank ∧ rank ≤ lastRank
  let share := if inside then total / active else 0
  let remainder := if inside then total - share * active else 0
  if rank - firstRank < remainder then share + 1 else share

/-- `ref_mpi_balance`. -/
def balance (p rank : Nat) (t : RefType) (ldim nitem : Nat) (items : Nat → t.Elem D)
    (firstRank lastRank : Nat) (aMem recvMem : Nat → t.Elem D) :
    RankProg D ((Nat → t.Elem D) × Nat) :=
  .allsum nitem fun total =>
    if (refIntMax : Int) < total then .fail .undefined
    else
      let share := balancedShare rank firstRank lastRank total.toNat
      .allgather share fun shares =>
        .allgather nitem fun haves =>
          let offset := start (fun part => (haves part).toNat) rank
          let destination := fun i =>
            findDestination p (fun part => (shares part).toNat) (offset + i)
          (blindsend p destination t items ldim nitem aMem recvMem).bind fun balanced =>
            if share ≠ balanced.2 then .fail .failure else .ret balanced

/-- `ref_mpi_bcast`. -/
def bcast (p : Nat) (t : RefType) (n : Nat) (data : Nat → t.Elem D) : RankProg D (Nat → t.Elem D) :=
  if p ≤ 1 then .ret data else .bcast t n data .ret

/-- `ref_mpi_sum` with the addition `add`; only rank 0 has the sums, `output` is
the memory of the result. -/
def mpiSum (p : Nat) (t : RefType) (add : t.Elem D → t.Elem D → t.Elem D) (n : Nat)
    (input output : Nat → t.Elem D) : RankProg D (Nat → t.Elem D) :=
  if p ≤ 1 then .ret fun i => if i < n then input i else output i
  else .reduce t add n input output .ret

/-- `ref_mpi_bcast` of one `REF_INT`. -/
def bcastInt (p : Nat) (x : Int) : RankProg D Int :=
  (bcast p .int 1 fun _ => x).bind fun data => .ret (data 0)

/-- `ref_mpi_bcast` of one `REF_GLOB`. -/
def bcastLong (p : Nat) (x : Int) : RankProg D Int :=
  (bcast p .long 1 fun _ => x).bind fun data => .ret (data 0)

theorem bcast_run {p : Nat} (hp : 0 < p) (t : RefType) (n : Nat) (data : Nat → Nat → t.Elem D) :
    Runs p (fun r => bcast p t n (data r)) (broadcast n data) := by
  by_cases hone : p ≤ 1
  · refine .ret fun r hr => ?_
    obtain rfl : r = 0 := by omega
    rw [bcast, if_pos hone]
    congr 1
    funext i
    simp [broadcast]
  · exact .bcast t n data (fun _ => .ret) (fun r _ => by rw [bcast, if_neg hone])
      (.ret fun _ _ => rfl)

theorem bcast_broadcasts {p : Nat} (hp : 2 ≤ p) (t : RefType) (n : Nat) (data : Nat → t.Elem D) :
    (bcast p t n data).Broadcasts t := by
  rw [bcast, if_neg (by omega)]
  rfl

theorem bcastInt_run {p : Nat} (hp : 0 < p) (x : Nat → Int) :
    Runs p (fun r => (bcastInt p (x r) : RankProg D Int)) fun _ => x 0 :=
  (bcast_run hp .int 1 fun r _ => x r).bind (.ret fun _ _ => rfl)

theorem mpiSum_run {p : Nat} (hp : 0 < p) (t : RefType) (add : t.Elem D → t.Elem D → t.Elem D)
    (n : Nat) (input output : Nat → Nat → t.Elem D) :
    Runs p (fun r => mpiSum p t add n (input r) (output r)) (reduced p add n input output) := by
  by_cases hone : p ≤ 1
  · refine .ret fun r hr => ?_
    obtain rfl : r = 0 := by omega
    obtain rfl : p = 1 := by omega
    rw [mpiSum, if_pos le_rfl]
    congr 1
    funext i
    simp [reduced, combined]
  · exact .reduce t add n input output (fun _ => .ret) (fun r _ => by rw [mpiSum, if_neg hone])
      (.ret fun _ _ => rfl)

/-! ## Blind sends -/

/-- Record `i` of a buffer of records of `ldim` entries. -/
def recordAt {α : Type} (ldim : Nat) (buf : Nat → α) (i : Nat) : List α :=
  (List.range ldim).map fun l => buf (l + ldim * i)

/-- The first `n` records of a buffer. -/
def records {α : Type} (ldim n : Nat) (buf : Nat → α) : List (List α) :=
  (List.range n).map (recordAt ldim buf)

/-- The records addressed to rank `r`, each as its source and its place there:
by source rank, and within a source in the order of the source. -/
def deliveries (p : Nat) (proc : Nat → Nat → Nat) (nsend : Nat → Nat) (r : Nat) :
    List (Nat × Nat) :=
  (List.range p).flatMap fun q =>
    (group (proc q) (List.range (nsend q)) r).map fun i => (q, i)

theorem length_group_eq_tally (proc : Nat → Nat) (n part : Nat) :
    tally proc (List.range n) (fun _ => 0) part = (group proc (List.range n) part).length := by
  rw [tally_apply, Nat.zero_add]

/-- Every item goes to some rank. -/
theorem start_tally {proc : Nat → Nat} {n p : Nat} (hproc : ∀ i, i < n → proc i < p) :
    start (tally proc (List.range n) (fun _ => 0)) p = n := by
  induction n with
  | zero => simp [start, tally]
  | succ n ih =>
      have hstep : ∀ part, tally proc (List.range (n + 1)) (fun _ => 0) part =
          tally proc (List.range n) (fun _ => 0) part + if part = proc n then 1 else 0 := by
        intro part
        rw [tally, List.range_succ, List.foldl_append]
        simp only [List.foldl_cons, List.foldl_nil, Function.update_apply]
        split
        · rename_i hp
          rw [hp]
          rfl
        · rfl
      have hn : proc n < p := hproc n (Nat.lt_succ_self n)
      calc start (tally proc (List.range (n + 1)) (fun _ => 0)) p
          = start (tally proc (List.range n) (fun _ => 0)) p +
              ∑ part ∈ Finset.range p, (if part = proc n then 1 else 0) := by
            simp only [start, hstep, Finset.sum_add_distrib]
        _ = n + 1 := by
            rw [ih fun i hi => hproc i (by omega), Finset.sum_ite_eq']
            simp [hn]

theorem length_deliveries (p : Nat) (proc : Nat → Nat → Nat) (nsend : Nat → Nat) (r : Nat) :
    (deliveries p proc nsend r).length =
      start (fun q => tally (proc q) (List.range (nsend q)) (fun _ => 0) r) p := by
  induction p with
  | zero => simp [deliveries, start]
  | succ p ih =>
      rw [start_succ, ← ih, length_group_eq_tally]
      simp [deliveries, List.range_succ]

/-- The counts and lengths of a blind send are `REF_INT`. -/
structure SendFits (p ldim : Nat) (proc : Nat → Nat → Nat) (nsend : Nat → Nat) : Prop where
  sent : ∀ r, r < p → nsend r ≤ refIntMax ∧ ldim * nsend r ≤ refIntMax
  received : ∀ r, r < p → (deliveries p proc nsend r).length ≤ refIntMax ∧
    ldim * (deliveries p proc nsend r).length ≤ refIntMax

/-- What a rank holds after a blind send. -/
def Delivered (p : Nat) (t : RefType) (proc : Nat → Nat → Nat) (ldim : Nat)
    (send : Nat → Nat → t.Elem D) (nsend : Nat → Nat) (r : Nat)
    (out : (Nat → t.Elem D) × Nat) : Prop :=
  out.2 = (deliveries p proc nsend r).length ∧
    records ldim out.2 out.1 =
      (deliveries p proc nsend r).map fun source => recordAt ldim (send source.1) source.2

section Blindsend

variable {p ldim : Nat} {t : RefType} {proc : Nat → Nat → Nat} {send : Nat → Nat → t.Elem D}
  {nsend : Nat → Nat}

/-- The packed buffer of `ref_mpi_blindsend`. -/
def packed (proc : Nat → Nat) (t : RefType) (send : Nat → t.Elem D) (ldim nsend : Nat)
    (aMem : Nat → t.Elem D) : Nat → t.Elem D :=
  ((List.range nsend).foldl
    (bucketStep proc fun buf k i => storeRecord ldim (fun l => send (l + ldim * i)) k buf)
    (start (tally proc (List.range nsend) fun _ => 0), aMem)).2

/-- The `j`-th record of the segment for `r` is the `j`-th record addressed
to `r`. -/
theorem packed_record {proc : Nat → Nat} {send aMem : Nat → t.Elem D} {nsend r j i l : Nat}
    (hproc : ∀ i, i < nsend → proc i < p) (hr : r < p) (hl : l < ldim)
    (hj : (group proc (List.range nsend) r)[j]? = some i) :
    packed proc t send ldim nsend aMem
        (l + ldim * (start (tally proc (List.range nsend) fun _ => 0) r + j)) =
      send (l + ldim * i) := by
  have hheld := bucket_spec
    (fun (b : Nat → t.Elem D) k i => ∀ l, l < ldim → b (l + ldim * k) = send (l + ldim * i))
    (fun buf k i => storeRecord ldim (fun l => send (l + ldim * i)) k buf)
    ?_ ?_ aMem (fun part _ => length_group_eq_tally proc nsend part) (fun _ _ => rfl)
    (fun i hi => hproc i (List.mem_range.mp hi)) r hr j i hj
  · exact hheld l hl
  · intro b k i l hl
    rw [storeRecord_apply _ _ hl, if_pos rfl]
  · intro b k i k' i' hk h l hl
    rw [storeRecord_apply _ _ hl, if_neg hk]
    exact h l hl

/-- The sizes that rank `r` receives. -/
theorem start_received (r : Nat) :
    start (onRanks p fun q => tally (proc q) (List.range (nsend q)) (fun _ => 0) r) p =
      (deliveries p proc nsend r).length := by
  rw [length_deliveries]
  exact start_congr fun q hq => onRanks_of_lt _ hq

/-- The records of a rank after the exchange of the packed buffers. -/
theorem records_exchanged {aMem recvMem : Nat → Nat → t.Elem D} {r : Nat}
    (hproc : ∀ q, q < p → ∀ i, i < nsend q → proc q i < p) (hr : r < p) :
    records ldim (deliveries p proc nsend r).length
        (exchanged p (fun q => packed (proc q) t (send q) ldim (nsend q) (aMem q))
          (fun q r => ldim * tally (proc q) (List.range (nsend q)) (fun _ => 0) r)
          (fun r q => ldim * onRanks p
            (fun q => tally (proc q) (List.range (nsend q)) (fun _ => 0) r) q) recvMem r) =
      (deliveries p proc nsend r).map fun source => recordAt ldim (send source.1) source.2 := by
  rw [← start_received, records, range_start, deliveries, List.map_flatMap, List.map_flatMap]
  apply List.flatMap_congr
  intro q hq
  have hq : q < p := List.mem_range.mp hq
  rw [List.map_map, List.map_map, onRanks_of_lt _ hq, length_group_eq_tally]
  apply List.ext_getElem
  · simp
  · intro j hj hj'
    have hjg : j < (group (proc q) (List.range (nsend q)) r).length := by simpa using hj
    simp only [List.getElem_map, List.getElem_range, Function.comp_apply, recordAt]
    apply List.map_congr_left
    intro l hl
    have hl : l < ldim := List.mem_range.mp hl
    have hroom : j < onRanks p
        (fun q => tally (proc q) (List.range (nsend q)) (fun _ => 0) r) q := by
      rwa [onRanks_of_lt _ hq, length_group_eq_tally]
    rw [exchanged_record hq hroom hl]
    exact packed_record (hproc q hq) hr hl (List.getElem?_eq_getElem hjg)

/-- **A blind send** delivers to every rank the records addressed to it. -/
theorem blindsend_run (hp : 0 < p) (hproc : ∀ q, q < p → ∀ i, i < nsend q → proc q i < p)
    (hfit : SendFits p ldim proc nsend) (aMem recvMem : Nat → Nat → t.Elem D) :
    ∃ out, Runs p (fun r => blindsend p (proc r) t (send r) ldim (nsend r) (aMem r) (recvMem r)) out ∧
      ∀ r, r < p → Delivered p t proc ldim send nsend r (out r) := by
  by_cases hone : p ≤ 1
  · have hp1 : p = 1 := by omega
    subst hp1
    have hall : deliveries 1 proc nsend 0 = (List.range (nsend 0)).map fun i => (0, i) := by
      have hself : group (proc 0) (List.range (nsend 0)) 0 = List.range (nsend 0) := by
        apply List.filter_eq_self.mpr
        intro i hi
        simpa using hproc 0 hp i (List.mem_range.mp hi)
      simp [deliveries, hself]
    refine ⟨fun r => (fun i => if i < ldim * nsend r then send r i else recvMem r i, nsend r),
      .ret fun r hr => ?_, fun r hr => ?_⟩
    · have hsent := (hfit.sent r hr).2
      simp only [blindsend, le_refl, if_true, if_neg (show ¬ refIntMax < ldim * nsend r by omega)]
    · obtain rfl : r = 0 := by omega
      refine ⟨by simp [hall], ?_⟩
      rw [hall, List.map_map, records]
      apply List.map_congr_left
      intro i hi
      apply List.map_congr_left
      intro l hl
      have hin : l + ldim * i < ldim * nsend 0 := by
        have hi := List.mem_range.mp hi
        have hl := List.mem_range.mp hl
        calc l + ldim * i < ldim + ldim * i := by omega
          _ = ldim * (i + 1) := by ring
          _ ≤ ldim * nsend 0 := Nat.mul_le_mul_left ldim hi
      simp [hin]
  · -- the sizes, then the packed records
    refine ⟨fun r => (exchanged p (fun q => packed (proc q) t (send q) ldim (nsend q) (aMem q))
          (fun q r => ldim * tally (proc q) (List.range (nsend q)) (fun _ => 0) r)
          (fun r q => ldim * onRanks p
            (fun q => tally (proc q) (List.range (nsend q)) (fun _ => 0) r) q) recvMem r,
        (deliveries p proc nsend r).length), ?_,
      fun r hr => ⟨rfl, records_exchanged hproc hr⟩⟩
    refine .alltoall _ _ (fun r hr => by rw [blindsend, if_neg hone]) ?_
    refine Runs.congr (P := fun r => .alltoallv t
        (packed (proc r) t (send r) ldim (nsend r) (aMem r))
        (fun q => ldim * tally (proc r) (List.range (nsend r)) (fun _ => 0) q)
        (fun q => ldim * onRanks p
          (fun q => tally (proc q) (List.range (nsend q)) (fun _ => 0) r) q) (recvMem r)
        fun recv => .ret (recv, (deliveries p proc nsend r).length)) ?_ fun r hr => ?_
    · refine .alltoallv t _ _ _ _ _ (fun r hr => rfl) (fun r q hr hq => ?_) (.ret fun r hr => rfl)
      simp only [onRanks_of_lt _ hq]
    · obtain ⟨hsent, hsent'⟩ := hfit.sent r hr
      obtain ⟨hrecv, hrecv'⟩ := hfit.received r hr
      have ha := start_tally (hproc r hr)
      have hb : start _ p = (deliveries p proc nsend r).length := start_received r
      have hasize : SizesFit p ldim (tally (proc r) (List.range (nsend r)) fun _ => 0) :=
        sizesFit_of_total (by rw [ha]; exact hsent')
      have hbsize : SizesFit p ldim
          (onRanks p fun q => tally (proc q) (List.range (nsend q)) (fun _ => 0) r) :=
        sizesFit_of_total (by rw [hb]; exact hrecv')
      simp only [ha, hb]
      rw [if_neg (by omega), if_neg (by omega), alltoallv_eq hasize hbsize]
      rfl

/-- A rank that is sent more records than a `REF_INT` counts has no result. -/
theorem not_runs_blindsend_of_overflow (proc : Nat → Nat → Nat) (nsend : Nat → Nat) {r : Nat}
    {out : Nat → (Nat → t.Elem D) × Nat} {aMem recvMem : Nat → Nat → t.Elem D} (hp : 1 < p) (hr : r < p)
    (hover : refIntMax < (deliveries p proc nsend r).length) :
    ¬ Runs p (fun r => blindsend p (proc r) t (send r) ldim (nsend r) (aMem r) (recvMem r)) out := by
  have hpara : ¬ p ≤ 1 := by omega
  have hb : start _ p = (deliveries p proc nsend r).length := start_received r
  intro h
  rw [runs_alltoall_iff (by omega) (fun r _ => by rw [blindsend, if_neg hpara])] at h
  refine not_runs_of_fail (e := .undefined) hr ?_ h
  simp only [hb]
  rw [if_pos (Or.inr hover)]

/-- A single rank does not read the destinations. -/
theorem blindsend_serial {proc proc' : Nat → Nat} {send aMem recvMem : Nat → t.Elem D} {nsend : Nat}
    (hp : p ≤ 1) : blindsend p proc t send ldim nsend aMem recvMem =
      blindsend p proc' t send ldim nsend aMem recvMem := by
  rw [blindsend, blindsend, if_pos hp, if_pos hp]

/-- A run past a blind send has sizes that fit. -/
theorem SendFits.of_runs {α : Type} {f : Nat → (Nat → t.Elem D) × Nat → RankProg D α}
    {out : Nat → α} {aMem recvMem : Nat → Nat → t.Elem D} (hp : 0 < p) (hldim : 0 < ldim)
    (hproc : ∀ q, q < p → ∀ i, i < nsend q → proc q i < p)
    (hrun : Runs p (fun r => (blindsend p (proc r) t (send r) ldim (nsend r) (aMem r)
      (recvMem r)).bind (f r)) out) : SendFits p ldim proc nsend := by
  have hle : ∀ n, ldim * n ≤ refIntMax → n ≤ refIntMax := fun n hn =>
    (Nat.le_mul_of_pos_left n hldim).trans hn
  by_cases hone : p ≤ 1
  · obtain rfl : p = 1 := by omega
    have hfit : ldim * nsend 0 ≤ refIntMax := by
      by_contra hover
      refine not_runs_of_fail (e := .undefined) hp ?_ hrun
      rw [blindsend, if_pos hone, if_pos (by omega)]
      rfl
    have hall : (deliveries 1 proc nsend 0).length = nsend 0 := by
      rw [length_deliveries, start_succ, start_zero, Nat.zero_add, length_group_eq_tally,
        group, List.filter_eq_self.mpr, List.length_range]
      intro i hi
      have := hproc 0 hp i (List.mem_range.mp hi)
      simpa using this
    constructor
    · intro r hr
      obtain rfl : r = 0 := by omega
      exact ⟨hle _ hfit, hfit⟩
    · intro r hr
      obtain rfl : r = 0 := by omega
      rw [hall]
      exact ⟨hle _ hfit, hfit⟩
  · have hrest := (runs_alltoall_iff hp fun r _ => by rw [blindsend, if_neg hone]; rfl).mp hrun
    have hranks : ∀ r, r < p → ldim * nsend r ≤ refIntMax ∧
        ldim * (deliveries p proc nsend r).length ≤ refIntMax := by
      intro r hr
      have ha := start_tally (hproc r hr)
      have hb : start _ p = (deliveries p proc nsend r).length := start_received r
      by_contra hover
      refine not_runs_of_fail (e := .undefined) hr ?_ hrest
      simp only [ha, hb]
      split
      · rfl
      · rw [if_pos (by omega)]
        rfl
    exact ⟨fun r hr => ⟨hle _ (hranks r hr).1, (hranks r hr).1⟩,
      fun r hr => ⟨hle _ (hranks r hr).2, (hranks r hr).2⟩⟩

/-- The records a rank holds after a blind send. -/
theorem Delivered.record {r k : Nat} {out : (Nat → t.Elem D) × Nat}
    (h : Delivered p t proc ldim send nsend r out) {source : Nat × Nat}
    (hk : (deliveries p proc nsend r)[k]? = some source) :
    recordAt ldim out.1 k = recordAt ldim (send source.1) source.2 := by
  have hlt := (List.getElem?_eq_some_iff.mp hk).1
  have hget := congrArg (·[k]?) h.2
  simp only [records, List.getElem?_map, hk, Option.map_some] at hget
  rw [h.1, List.getElem?_range hlt] at hget
  exact Option.some.inj hget

theorem SendFits.mono {ldim' : Nat} (h : SendFits p ldim proc nsend) (hle : ldim' ≤ ldim) :
    SendFits p ldim' proc nsend where
  sent := fun r hr => ⟨(h.sent r hr).1, (Nat.mul_le_mul_right _ hle).trans (h.sent r hr).2⟩
  received := fun r hr =>
    ⟨(h.received r hr).1, (Nat.mul_le_mul_right _ hle).trans (h.received r hr).2⟩

end Blindsend

/-! ## What all ranks receive -/

theorem coe_flatMap_range {γ : Type} (f : Nat → List γ) (p : Nat) :
    (((List.range p).flatMap f : List γ) : Multiset γ) = ∑ q ∈ Finset.range p, (f q : Multiset γ) := by
  induction p with
  | zero => rfl
  | succ p ih =>
      rw [List.range_succ, List.flatMap_append, ← Multiset.coe_add, ih, Finset.sum_range_succ]
      simp

/-- Every item is in the group of one destination. -/
theorem sum_group {γ : Type} {dest : γ → Nat} {p : Nat} (items : List γ)
    (hdest : ∀ i ∈ items, dest i < p) :
    ∑ r ∈ Finset.range p, (group dest items r : Multiset γ) = items := by
  induction items with
  | nil => simp [group]
  | cons i items ih =>
      have hstep : ∀ r, (group dest (i :: items) r : Multiset γ) =
          (if dest i = r then {i} else 0) + (group dest items r : Multiset γ) := by
        intro r
        by_cases hr : dest i = r
        · simp [group, hr]
        · simp [group, hr]
      simp only [hstep, Finset.sum_add_distrib]
      rw [ih fun j hj => hdest j (List.mem_cons_of_mem _ hj), Finset.sum_ite_eq,
        if_pos (Finset.mem_range.mpr (hdest i List.mem_cons_self)), Multiset.singleton_add,
        Multiset.cons_coe]

/-- All ranks together receive what all ranks send. -/
theorem sum_deliveries {p : Nat} {proc : Nat → Nat → Nat} {nsend : Nat → Nat}
    (hproc : ∀ q, q < p → ∀ i, i < nsend q → proc q i < p) :
    ∑ r ∈ Finset.range p, (deliveries p proc nsend r : Multiset (Nat × Nat)) =
      ∑ q ∈ Finset.range p,
        (((List.range (nsend q)).map fun i => (q, i) : List (Nat × Nat)) :
          Multiset (Nat × Nat)) := by
  simp only [deliveries, coe_flatMap_range]
  rw [Finset.sum_comm]
  apply Finset.sum_congr rfl
  intro q hq
  have hsum := sum_group (List.range (nsend q)) fun i hi =>
    hproc q (Finset.mem_range.mp hq) i (List.mem_range.mp hi)
  have hmap := map_sum (Multiset.mapAddMonoidHom fun i : Nat => (q, i))
    (fun r => (group (proc q) (List.range (nsend q)) r : Multiset Nat)) (Finset.range p)
  rw [hsum] at hmap
  exact hmap.symm

/-! ## Balance -/

theorem findDestinationFrom_eq (n : Nat) (shares : Nat → Nat) :
    ∀ fuel part gid, findDestinationFrom n shares part fuel gid =
      ((locateFrom shares part fuel gid).map Prod.fst).getD (n - 1) := by
  intro fuel
  induction fuel with
  | zero => intro part gid; rfl
  | succ fuel ih =>
      intro part gid
      unfold findDestinationFrom locateFrom
      split
      · rfl
      · exact ih _ _

/-- Item `j` of the share of `part` goes to `part`. -/
theorem findDestination_start_add {n part j : Nat} {shares : Nat → Nat} (hpart : part < n)
    (hj : j < shares part) : findDestination n shares (start shares part + j) = part := by
  rw [findDestination, findDestinationFrom_eq]
  change ((locate n shares (start shares part + j)).map Prod.fst).getD (n - 1) = part
  rw [locate_start_add hpart hj]
  rfl

theorem findDestinationFrom_congr {n : Nat} {shares shares' : Nat → Nat} :
    ∀ fuel part gid, (∀ q, q < part + fuel → shares q = shares' q) →
      findDestinationFrom n shares part fuel gid = findDestinationFrom n shares' part fuel gid := by
  intro fuel
  induction fuel with
  | zero => intro part gid _; rfl
  | succ fuel ih =>
      intro part gid h
      rw [findDestinationFrom, findDestinationFrom, h part (by omega),
        ih (part + 1) _ fun q hq => h q (by omega)]

theorem findDestination_congr {n : Nat} {shares shares' : Nat → Nat} (gid : Nat)
    (h : ∀ q, q < n → shares q = shares' q) :
    findDestination n shares gid = findDestination n shares' gid :=
  findDestinationFrom_congr n 0 gid fun q hq => h q (by omega)

theorem findDestination_lt {n gid : Nat} {shares : Nat → Nat} (hn : 0 < n) :
    findDestination n shares gid < n := by
  rw [findDestination, findDestinationFrom_eq]
  change ((locate n shares gid).map Prod.fst).getD (n - 1) < n
  cases hloc : locate n shares gid with
  | none => simp; omega
  | some found => exact (locate_eq_some (q := found.1) (j := found.2) hloc).1

section Balance

variable {first last total : Nat}

theorem balancedShare_outside {rank : Nat} (h : ¬ (first ≤ rank ∧ rank ≤ last)) :
    balancedShare rank first last total = 0 := by
  simp [balancedShare, h]

theorem balancedShare_inside {rank : Nat} (h : first ≤ rank ∧ rank ≤ last) :
    balancedShare rank first last total = total / (last + 1 - first) +
      if rank - first < total % (last + 1 - first) then 1 else 0 := by
  have hrem : total - total / (last + 1 - first) * (last + 1 - first) =
      total % (last + 1 - first) := by
    rw [Nat.mod_eq_sub_div_mul]
  simp only [balancedShare, h, and_self, if_true, hrem]
  split <;> rfl

/-- The shares up to rank `m`. -/
theorem start_balancedShare (m : Nat) :
    start (fun rank => balancedShare rank first last total) m =
      min (m - first) (last + 1 - first) * (total / (last + 1 - first)) +
        min (m - first) (min (last + 1 - first) (total % (last + 1 - first))) := by
  induction m with
  | zero => simp
  | succ m ih =>
      rw [start_succ, ih]
      by_cases h : first ≤ m ∧ m ≤ last
      · rw [balancedShare_inside h, show min (m + 1 - first) (last + 1 - first) =
          min (m - first) (last + 1 - first) + 1 by omega, Nat.add_mul, Nat.one_mul]
        split <;> omega
      · rw [balancedShare_outside h, show min (m + 1 - first) (last + 1 - first) =
          min (m - first) (last + 1 - first) by omega]
        omega

/-- The shares add up to the total. -/
theorem start_balancedShare_all {p : Nat} (hfirst : first ≤ last) (hlast : last < p) :
    start (fun rank => balancedShare rank first last total) p = total := by
  have hmod : total % (last + 1 - first) < last + 1 - first := Nat.mod_lt _ (by omega)
  rw [start_balancedShare, show min (p - first) (last + 1 - first) = last + 1 - first by omega,
    show min (p - first) (min (last + 1 - first) (total % (last + 1 - first))) =
      total % (last + 1 - first) by omega]
  exact Nat.div_add_mod total (last + 1 - first)

variable {p ldim : Nat} {t : RefType} {items : Nat → Nat → t.Elem D} {nitem : Nat → Nat}

/-- The item with place `gid` in the concatenation over the ranks. -/
def itemAt (p ldim : Nat) (t : RefType) (items : Nat → Nat → t.Elem D) (nitem : Nat → Nat)
    (gid : Nat) : List (t.Elem D) :=
  match locate p nitem gid with
  | some (q, i) => recordAt ldim (items q) i
  | none => []

theorem itemAt_start_add {q i : Nat} (hq : q < p) (hi : i < nitem q) :
    itemAt p ldim t items nitem (start nitem q + i) = recordAt ldim (items q) i := by
  rw [itemAt, locate_start_add hq hi]

/-- The concatenation over the ranks, place by place. -/
theorem flatMap_records (items : Nat → Nat → t.Elem D) (nitem : Nat → Nat) :
    ((List.range p).flatMap fun q => records ldim (nitem q) (items q)) =
      (List.range (start nitem p)).map (itemAt p ldim t items nitem) := by
  rw [range_start, List.map_flatMap]
  apply List.flatMap_congr
  intro q hq
  rw [records, List.map_map]
  apply List.map_congr_left
  intro i hi
  exact (itemAt_start_add (List.mem_range.mp hq) (List.mem_range.mp hi)).symm

/-- Destinations by place deliver the items of the places, in order. -/
theorem deliveries_by_place (dest : Nat → Nat) (r : Nat) :
    (deliveries p (fun q i => dest (start nitem q + i)) nitem r).map
        (fun source => start nitem source.1 + source.2) =
      (List.range (start nitem p)).filter fun gid => dest gid = r := by
  rw [deliveries, range_start, List.filter_flatMap, List.map_flatMap]
  apply List.flatMap_congr
  intro q _
  rw [List.filter_map, List.map_map]
  rfl

theorem deliveries_items (dest : Nat → Nat) (r : Nat) :
    (deliveries p (fun q i => dest (start nitem q + i)) nitem r).map
        (fun source => recordAt ldim (items source.1) source.2) =
      ((List.range (start nitem p)).filter fun gid => dest gid = r).map
        (itemAt p ldim t items nitem) := by
  rw [← deliveries_by_place, List.map_map]
  apply List.map_congr_left
  intro source hsource
  simp only [deliveries, List.mem_flatMap, List.mem_range, List.mem_map, group,
    List.mem_filter] at hsource
  obtain ⟨q, hq, i, hi, rfl⟩ := hsource
  exact (itemAt_start_add hq hi.1).symm

/-- The counts and lengths of a balance are `REF_INT`. -/
structure BalanceFits (p ldim first last : Nat) (nitem : Nat → Nat) : Prop where
  total : start nitem p ≤ refIntMax
  sent : ∀ r, r < p → ldim * nitem r ≤ refIntMax
  received : ∀ r, r < p → ldim * balancedShare r first last (start nitem p) ≤ refIntMax

/-- What all ranks hold after a balance. -/
structure Balanced (p ldim : Nat) (t : RefType) (items : Nat → Nat → t.Elem D)
    (nitem : Nat → Nat) (first last : Nat) (out : Nat → (Nat → t.Elem D) × Nat) : Prop where
  concat : ((List.range p).flatMap fun r => records ldim (out r).2 (out r).1) =
    (List.range p).flatMap fun r => records ldim (nitem r) (items r)
  outside : ∀ r, r < p → ¬ (first ≤ r ∧ r ≤ last) → (out r).2 = 0
  even : ∀ r r', first ≤ r → r ≤ last → first ≤ r' → r' ≤ last → (out r).2 ≤ (out r').2 + 1

/-- The destination of item `i` of rank `q`. -/
def balanceDestination (p first last : Nat) (nitem : Nat → Nat) (q i : Nat) : Nat :=
  findDestination p (fun rank => balancedShare rank first last (start nitem p))
    (start nitem q + i)

/-- The places that go to rank `r` are those of its share. -/
theorem filter_balanceDestination {r : Nat} (hfirst : first ≤ last) (hlast : last < p)
    (hr : r < p) :
    ((List.range total).filter fun gid =>
        findDestination p (fun rank => balancedShare rank first last total) gid = r) =
      (List.range (balancedShare r first last total)).map
        (start (fun rank => balancedShare rank first last total) r + ·) := by
  have hall : start (fun rank => balancedShare rank first last total) p = total :=
    start_balancedShare_all hfirst hlast
  have hshare := filter_range_start (fun rank => balancedShare rank first last total) hr
    fun q j hq hj => findDestination_start_add hq hj
  rwa [hall] at hshare

theorem length_deliveries_balance {r : Nat} (hfirst : first ≤ last) (hlast : last < p)
    (hr : r < p) :
    (deliveries p (balanceDestination p first last nitem) nitem r).length =
      balancedShare r first last (start nitem p) := by
  have hplaces : (deliveries p (balanceDestination p first last nitem) nitem r).map
      (fun source => start nitem source.1 + source.2) = _ :=
    (deliveries_by_place _ r).trans (filter_balanceDestination hfirst hlast hr)
  simpa using congrArg List.length hplaces

/-- After the blind send of a balance. -/
theorem balanced_of_delivered {out : Nat → (Nat → t.Elem D) × Nat} (hfirst : first ≤ last)
    (hlast : last < p)
    (h : ∀ r, r < p → Delivered p t (balanceDestination p first last nitem) ldim items nitem r
      (out r)) : Balanced p ldim t items nitem first last out := by
  have hcount : ∀ r, r < p → (out r).2 = balancedShare r first last (start nitem p) :=
    fun r hr => (h r hr).1.trans (length_deliveries_balance hfirst hlast hr)
  refine ⟨?_, fun r hr hout => ?_, fun r r' hr hr' hs hs' => ?_⟩
  · have hplaces := range_start (fun rank => balancedShare rank first last (start nitem p)) p
    rw [start_balancedShare_all hfirst hlast] at hplaces
    rw [flatMap_records items nitem, hplaces, List.map_flatMap]
    apply List.flatMap_congr
    intro r hr
    have hr : r < p := List.mem_range.mp hr
    rw [(h r hr).2, ← filter_balanceDestination hfirst hlast hr]
    exact deliveries_items _ r
  · rw [hcount r hr, balancedShare_outside hout]
  · rw [hcount r (by omega), hcount r' (by omega), balancedShare_inside ⟨hr, hr'⟩,
      balancedShare_inside ⟨hs, hs'⟩]
    split <;> omega

/-- **A balance** keeps the items and their order. -/
theorem balance_run (hfirst : first ≤ last) (hlast : last < p)
    (hfit : BalanceFits p ldim first last nitem) (aMem recvMem : Nat → Nat → t.Elem D) :
    ∃ out, Runs p (fun r => balance p r t ldim (nitem r) (items r) first last (aMem r)
        (recvMem r)) out ∧
      ∀ r, r < p → Delivered p t (balanceDestination p first last nitem) ldim items nitem r
        (out r) := by
  have hp : 0 < p := by omega
  have hsendfit : SendFits p ldim (balanceDestination p first last nitem) nitem := by
    refine ⟨fun r hr => ⟨?_, hfit.sent r hr⟩, fun r hr => ?_⟩
    · have hle : start nitem (r + 1) ≤ start nitem p := start_le hr
      rw [start_succ] at hle
      exact (by omega : nitem r ≤ start nitem p).trans hfit.total
    · rw [length_deliveries_balance hfirst hlast hr]
      refine ⟨?_, hfit.received r hr⟩
      have hle : start (fun rank => balancedShare rank first last (start nitem p)) (r + 1) ≤
          start (fun rank => balancedShare rank first last (start nitem p)) p := start_le hr
      rw [start_succ, start_balancedShare_all hfirst hlast] at hle
      exact (by omega : balancedShare r first last (start nitem p) ≤ start nitem p).trans hfit.total
  obtain ⟨out, hout, hdelivered⟩ := blindsend_run hp
    (fun q _ i _ => findDestination_lt hp) hsendfit aMem recvMem
  have hcount : ∀ r, r < p → (out r).2 = balancedShare r first last (start nitem p) :=
    fun r hr => (hdelivered r hr).1.trans (length_deliveries_balance hfirst hlast hr)
  refine ⟨out, ?_, hdelivered⟩
  have htotal : ∑ q ∈ Finset.range p, (nitem q : Int) = (start nitem p : Nat) := by
    simp [start]
  -- the total, the shares and the offsets are known to every rank
  refine .allsum (fun r => nitem r) _ (fun r hr => rfl) ?_
  rw [htotal]
  refine Runs.congr (P := fun r => .allgather
    (balancedShare r first last (start nitem p) : Nat) fun shares => .allgather (nitem r : Nat)
      fun haves => (blindsend p (fun i => findDestination p (fun part => (shares part).toNat)
        (start (fun part => (haves part).toNat) r + i)) t (items r) ldim (nitem r) (aMem r)
          (recvMem r)).bind fun balanced =>
            if balancedShare r first last (start nitem p) ≠ balanced.2 then .fail .failure
            else .ret balanced) ?_ fun r hr => ?_
  · refine .allgather _ _ (fun r hr => rfl) (.allgather _ _ (fun r hr => rfl) ?_)
    refine Runs.congr (Runs.bind (f := fun r balanced =>
        if balancedShare r first last (start nitem p) ≠ balanced.2 then .fail .failure
        else .ret balanced) hout
      (.ret fun r hr => if_neg (not_not.mpr (hcount r hr).symm))) fun r hr => ?_
    have hoffset : start (fun part => (onRanks p (fun q => (nitem q : Int)) part).toNat) r =
        start nitem r := start_congr fun q hq => by rw [onRanks_of_lt _ (by omega)]; rfl
    have hdestination : (fun i => findDestination p (fun part => (onRanks p (fun q =>
        (balancedShare q first last (start nitem p) : Int)) part).toNat) (start nitem r + i)) =
          balanceDestination p first last nitem r := by
      funext i
      exact findDestination_congr _ fun q hq => by rw [onRanks_of_lt _ hq]; rfl
    rw [hoffset, hdestination]
    rfl
  · have hle := hfit.total
    rw [if_neg (by omega)]
    rfl

end Balance

/-- **Nothing is lost and nothing is sent twice.**  A blind send delivers to
each rank the records addressed to it, by source rank and then in the order of
the source, whatever the type and the length of the records.  A balance keeps
the concatenation of the items over the ranks. -/
theorem exchanges_lose_nothing {p : Nat} (hp : 0 < p) :
    (∀ (proc : Nat → Nat → Nat) (nsend : Nat → Nat),
      (∀ q, q < p → ∀ i, i < nsend q → proc q i < p) →
      ∀ (t : RefType) (ldim : Nat) (send aMem recvMem : Nat → Nat → t.Elem D),
        SendFits p ldim proc nsend →
        Yields p (fun r => blindsend p (proc r) t (send r) ldim (nsend r) (aMem r) (recvMem r))
          fun out => ∀ r, r < p → Delivered p t proc ldim send nsend r (out r)) ∧
    ∀ (t : RefType) (ldim : Nat) (items aMem recvMem : Nat → Nat → t.Elem D) (nitem : Nat → Nat)
      (first last : Nat), first ≤ last → last < p → BalanceFits p ldim first last nitem →
      Yields p (fun r => balance p r t ldim (nitem r) (items r) first last (aMem r) (recvMem r))
        (Balanced p ldim t items nitem first last) := by
  constructor
  · intro proc nsend hproc t ldim send aMem recvMem hfit
    obtain ⟨out, hrun, hout⟩ := blindsend_run hp hproc hfit aMem recvMem
    apply hrun.yields
    intro out' heq r hr
    rw [heq r hr]
    exact hout r hr
  · intro t ldim items aMem recvMem nitem first last hfirst hlast hfit
    obtain ⟨out, hrun, hout⟩ := balance_run hfirst hlast hfit aMem recvMem
    apply hrun.yields
    intro out' heq
    apply balanced_of_delivered hfirst hlast
    intro r hr
    rw [heq r hr]
    exact hout r hr

/-- Two ranks that swap two records of two entries, and two ranks with none
and three items. -/
theorem exchanges_lose_nothing_two_ranks :
    (Yields 2 (fun r => blindsend 2 (fun _ => 1 - r) (.int : RefType)
        (fun i => (10 * r + i : Int)) 2 2 (fun _ => (0 : Int)) (fun _ => (0 : Int)) (D := Int))
      fun out => ∀ r, r < 2 → Delivered 2 .int (fun r _ => 1 - r) 2
        (fun r i => (10 * r + i : Int)) (fun _ => 2) r (out r)) ∧
    Yields 2 (fun r => balance 2 r (.int : RefType) 1 (3 * r) (fun i => (i : Int)) 0 1
        (fun _ => (0 : Int)) (fun _ => (0 : Int)) (D := Int))
      (Balanced 2 1 .int (fun _ i => (i : Int)) (fun r => 3 * r) 0 1) := by
  constructor
  · apply (exchanges_lose_nothing (D := Int) (p := 2) (by decide)).1 (fun r _ => 1 - r) (fun _ => 2)
    · intro q _ i _
      omega
    · exact ⟨by decide, by decide⟩
  · apply (exchanges_lose_nothing (D := Int) (p := 2) (by decide)).2 .int 1 (fun _ i => (i : Int))
      (fun _ _ => (0 : Int)) (fun _ _ => (0 : Int)) (fun r => 3 * r) 0 1 (by decide) (by decide)
    exact ⟨by decide, by decide, by decide⟩

/-- Two ranks that each send `2^30` records to rank 0. -/
theorem blindsend_receives_too_many :
    ¬ ∃ out, Runs 2 (fun _ => blindsend 2 (fun _ => 0) (.int : RefType) (fun _ => (0 : Int)) 1
      (2 ^ 30) (fun _ => (0 : Int)) (fun _ => (0 : Int)) (D := Int)) out := by
  intro h
  obtain ⟨out, hrun⟩ := h
  refine not_runs_blindsend_of_overflow (fun _ _ => 0) (fun _ => 2 ^ 30) (r := 0)
    (by decide) (by decide) ?_ hrun
  have hall : ∀ n, group (fun _ => 0) (List.range n) 0 = List.range n := by
    intro n
    simp [group]
  simp only [deliveries, hall, List.length_flatMap, List.length_map, List.length_range]
  decide

end RefineMesh
