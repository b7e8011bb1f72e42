import Mathlib.Tactic
import RefineMesh.Decimal
import RefineMesh.Solb

/-!
# The 2D metric file

`ref_gather_node_bamg_met` writes a text file: the number of nodes and the
number of terms, then three numbers for each node.  `ref_part_bamg_metric` takes
half of the nodes of its grid for the nodes of the file, as when a 2D grid was
kept as two planes.  A grid has its nodes once, so the two functions agree on a
file only when there is no node at all.
-/

namespace RefineMesh

open Binary Decimal Segments Spmd

/-- How a double is printed with `%.15e` and scanned with `%lf`. -/
structure TextDbl (D : Type) where
  print : D → List UInt8
  scan : Reader Status D

variable {D : Type}

/-! ## The writer -/

/-- The line of a node. -/
def metLine (text : TextDbl D) (m : Nat → D) : List UInt8 :=
  text.print (m 0) ++ 32 :: (text.print (m 1) ++ 32 :: (text.print (m 3) ++ [10]))

/-- The first line. -/
def metHead (nGlobal : Int) : List UInt8 := intText nGlobal ++ 32 :: (intText 3 ++ [10])

/-- `ref_gather_node_bamg_met`. -/
def gatherBamgMet [RefDblData D] (p : Nat) (byteLimit : Int) (twod : Bool) (text : TextDbl D)
    (mem : Nat → D) (s : RefNode D) : RankProg D (List UInt8) :=
  if !twod then .fail .failure
  else
    (Prog.lift (gatherChunk p byteLimit s.oldNGlobal 6)).bind fun chunk =>
      s.gatherRows p 6 (fun node => .ok (s.metricGet node)) (metLine text) chunk mem
        s.oldNGlobal.toNat 0 (if s.rank = 0 then metHead s.oldNGlobal else [])

/-- `ref_gather_metric` for a name that ends in `.met`: the file, which rank 0
has. -/
def gatherMetricMet [RefDblData D] (p : Nat) (byteLimit : Int) (twod : Bool) (text : TextDbl D)
    (syncMem : Nat → Int) (mem : Nat → D) (s : RefNode D) : RankProg D (List UInt8) :=
  (s.synchronizeGlobals p syncMem).bind (gatherBamgMet p byteLimit twod text mem)

/-! ## The reader -/

/-- `fscanf("%d")` into a `REF_INT`. -/
def scanRefInt : Reader Status Int := do
  let x ← scanInt .failure
  Reader.require .undefined (-(refIntMax : Int) - 1 ≤ x ∧ x ≤ refIntMax)
  pure x

/-- The header with its two checks. -/
def readMetHead (nnode : Int) : Reader Status Unit := do
  let fileNnode ← scanRefInt
  let nterm ← scanRefInt
  Reader.require .failure (nnode = fileNnode)
  Reader.require .failure (3 = nterm)

/-- The three numbers of a line. -/
def readMetLine [RefDblData D] (text : TextDbl D) : Reader Status (Nat → D) := do
  let entries ← Reader.many text.scan 3
  pure fun i => entries.getD i RefDbl.zero

/-- The arguments of `ref_node_metric_form` for a line. -/
def metForm [RefDblData D] (row : Nat → D) (i : Nat) : D :=
  if i = 0 then row 0 else if i = 1 then row 1 else if i = 3 then row 2
  else if i = 5 then RefDbl.one else RefDbl.zero

/-- What a rank does with the line of a global. -/
def assignMet [RefDblData D] (s : RefNode D) (global : Int) (row : Nat → D) :
    Except Status (RefNode D) :=
  match s.nodeLocal global with
  | .ok node => s.metricSet node (metForm row)
  | .error .notFound => .ok s
  | .error status => .error status

/-- `ref_part_bamg_metric`: where rank 0 stands in the file at the end, and the
nodes. -/
def partBamgMetric [RefDblData D] (p : Nat) (minusOne : D) (text : TextDbl D) (file : List UInt8)
    (s : RefNode D) : RankProg D (Nat × RefNode D) :=
  let nnode := s.oldNGlobal.tdiv 2
  (Prog.lift (if s.rank = 0 then readMetHead nnode file 0 else .ok ((), 0))).bind fun head =>
    let chunk := scatterChunk p nnode
    (Prog.lift (refMalloc (3 * chunk))).bind fun _ =>
      scatterRows p s.rank 3 chunk nnode
        (fun rest => toRefInt (min chunk (s.oldNGlobal - (nnode - rest)))) (readMetLine text)
        assignMet file nnode.toNat 0 head.2 (fun _ => minusOne) s

/-! ## What the file says -/

theorem reader_bind_ok {ε α β : Type} {m : Reader ε α} {f : α → Reader ε β} {file : List UInt8}
    {pos pos' : Nat} {a : α} (h : m file pos = .ok (a, pos')) :
    (m >>= f) file pos = f a file pos' := by
  simp only [Bind.bind]
  rw [h]

theorem reader_bind_error {ε α β : Type} {m : Reader ε α} {f : α → Reader ε β}
    {file : List UInt8} {pos : Nat} {e : ε} (h : m file pos = .error e) :
    (m >>= f) file pos = .error e := by
  simp only [Bind.bind]
  rw [h]

/-- A scanned integer must be a `REF_INT`. -/
theorem scanRefInt_eq {file : List UInt8} {pos pos' : Nat} {x : Int}
    (h : scanInt Status.failure file pos = .ok (x, pos')) :
    scanRefInt file pos = if -(refIntMax : Int) - 1 ≤ x ∧ x ≤ refIntMax then .ok (x, pos')
      else .error .undefined := by
  rw [scanRefInt, reader_bind_ok h]
  by_cases hfits : -(refIntMax : Int) - 1 ≤ x ∧ x ≤ refIntMax
  · rw [if_pos hfits, Reader.require, if_pos hfits]
    rfl
  · rw [if_neg hfits, Reader.require, if_neg hfits]
    rfl

/-- Where the lines begin. -/
def metHeadLength (nGlobal : Int) : Nat := (intText nGlobal).length + 2

/-- **The header decides**: the reader accepts the file of a writer exactly when
it counts as many nodes. -/
theorem readMetHead_eq (nnode : Int) {nGlobal : Int} {file : List UInt8}
    (hfile : metHead nGlobal <+: file) :
    readMetHead nnode file 0 =
      if -(refIntMax : Int) - 1 ≤ nGlobal ∧ nGlobal ≤ refIntMax then
        if nnode = nGlobal then .ok ((), metHeadLength nGlobal) else .error .failure
      else .error .undefined := by
  obtain ⟨lines, rfl⟩ := hfile
  have hstop : ∀ {c : UInt8} {text : List UInt8}, isDigit c = false →
      ∀ b tail, c :: text = b :: tail → isDigit b = false := by
    intro c text hc b tail heq
    rw [← (List.cons.inj heq).1]
    exact hc
  have hfirst := scanInt_at Status.failure (metHead nGlobal ++ lines) 0 [] nGlobal
    (32 :: (intText 3 ++ [10] ++ lines)) (by simp [metHead]) (by simp) (hstop (by decide))
  have hsecond := scanInt_at Status.failure (metHead nGlobal ++ lines) (intText nGlobal).length [32]
    3 (10 :: lines) (by simp [metHead]) (by decide +kernel) (hstop (by decide))
  have hthree : (intText 3).length = 1 := by decide +kernel
  simp only [List.length_nil, Nat.zero_add] at hfirst
  by_cases hfits : -(refIntMax : Int) - 1 ≤ nGlobal ∧ nGlobal ≤ refIntMax
  · have hread := (scanRefInt_eq hfirst).trans (if_pos hfits)
    have hterm := (scanRefInt_eq hsecond).trans
      (if_pos (by unfold refIntMax; omega))
    rw [readMetHead, reader_bind_ok hread, reader_bind_ok hterm, if_pos hfits]
    by_cases hsame : nnode = nGlobal
    · rw [if_pos hsame, Reader.require, if_pos hsame]
      rw [hthree]
      rfl
    · rw [if_neg hsame, Reader.require, if_neg hsame]
      rfl
  · have hread := (scanRefInt_eq hfirst).trans (if_neg hfits)
    rw [if_neg hfits, readMetHead, reader_bind_error hread]

/-! ## The round trip -/

section RoundTrip

variable [RefDblData D]

/-- A writer only appends to the file. -/
theorem gatherRows_prefix {p width : Nat} {t : RefNode D} {rows : Nat → Except Status (Nat → D)}
    {emit : (Nat → D) → List UInt8} {chunk : Int} {mem : Nat → D} :
    ∀ (fuel : Nat) (written : Int) (file : List UInt8),
      (t.gatherRows p width rows emit chunk mem fuel written file).Ensures fun out => file <+: out := by
  intro fuel
  induction fuel with
  | zero =>
      intro written file
      rw [RefNode.gatherRows]
      split
      · trivial
      · exact List.prefix_refl file
  | succ fuel ih =>
      intro written file
      rw [RefNode.gatherRows]
      split
      · refine Prog.Ensures.bind (Prog.ensures_true _) fun localXyzm _ => ?_
        refine Prog.Ensures.bind (Prog.ensures_true _) fun xyzm _ => ?_
        refine Prog.Ensures.imp (ih _ _) fun out hout => ?_
        split at hout
        · exact (List.prefix_append _ _).trans hout
        · exact hout
      · exact List.prefix_refl file

/-- The file of a writer begins with its header. -/
theorem gatherBamgMet_ensures {p : Nat} {byteLimit : Int} {twod : Bool} {text : TextDbl D}
    {mem : Nat → D} {u : RefNode D} (hrank : u.rank = 0) :
    (gatherBamgMet p byteLimit twod text mem u).Ensures fun out => metHead u.oldNGlobal <+: out := by
  rw [gatherBamgMet, if_pos hrank]
  split
  · trivial
  · refine Prog.Ensures.bind (Prog.ensures_true _) fun chunk _ => ?_
    exact gatherRows_prefix _ _ _

/-- The writer and the reader succeed, the reader takes as many lines as the file
says it has and stops behind the last of them, and every node has the metric of
the line of its global. -/
def MetRoundTrip (p p' : Nat) (byteLimit : Int) (minusOne : D) (text : TextDbl D)
    (syncMem : Nat → Nat → Int) (mem : Nat → Nat → D) (N : Nat) (before t : Nat → RefNode D) : Prop :=
  Yields p (fun r => gatherMetricMet p byteLimit true text (syncMem r) (mem r) (before r)) fun out =>
    Yields p' (fun r => partBamgMetric p' minusOne text (out 0) (t r)) fun res =>
      ∃ lines pos, (do readMetHead N; Reader.many (readMetLine text) N) (out 0) 0 = .ok (lines, pos) ∧
        (res 0).1 = pos ∧ (∀ b ∈ (out 0).drop pos, isSpace b = true) ∧
        ∀ r, r < p' → ∀ node, (t r).Live node → ∀ i, i < 6 →
          (res r).2.metricGet node i =
            metForm (lines.getD ((t r).global node).toNat fun _ => RefDbl.zero) i

variable {p p' N : Nat} {byteLimit : Int} {before s t : Nat → RefNode D}

/-- With a node in the grid rank 0 finds the wrong count. -/
theorem not_reads_met (ht : NodesNumbered p' t N) (hp' : 0 < p') (hN : 0 < N) {file : List UInt8}
    (hfile : metHead N <+: file) (minusOne : D) (text : TextDbl D) (res : Nat → Nat × RefNode D) :
    ¬ Runs p' (fun r => partBamgMetric p' minusOne text file (t r)) res := by
  have hhead : ∃ e, readMetHead ((N : Int).tdiv 2) file 0 = .error e := by
    have hwrong : ¬ (N : Int).tdiv 2 = N := by
      rw [Int.tdiv_eq_ediv_of_nonneg (by omega)]
      omega
    rw [readMetHead_eq _ hfile, if_neg hwrong]
    split
    · exact ⟨_, rfl⟩
    · exact ⟨_, rfl⟩
  obtain ⟨e, he⟩ := hhead
  refine not_runs_of_fail (r := 0) (e := e) hp' ?_
  rw [partBamgMetric, ht.rank 0 hp', ht.count 0 hp']
  simp only [if_true, he]
  rfl

/-- Without a node there is nothing to write or read but the header. -/
theorem met_round_trip_empty (hp : 0 < p) (hp' : 0 < p') {syncMem : Nat → Nat → Int}
    (hsync : Runs p (fun r => (before r).synchronizeGlobals p (syncMem r)) s)
    (hs : NodesNumbered p s 0) (ht : NodesNumbered p' t 0) (minusOne : D) (text : TextDbl D)
    (mem : Nat → Nat → D) :
    MetRoundTrip p p' byteLimit minusOne text syncMem mem 0 before t := by
  have hchunk : ∃ chunk, gatherChunk p byteLimit (0 : Nat) 6 = .ok chunk := by
    have hone : toRefInt ((0 : Nat) / p + 1 : Int) = 1 := by
      rw [Nat.cast_zero, Int.zero_ediv, toRefInt_of_fits (by norm_num) (by norm_num)]
      rfl
    have hlimit : ∃ limit, reduceChunkLimit byteLimit ((6 + 1) * 8) = .ok limit ∧ 0 ≤ limit := by
      by_cases hbytes : 0 < byteLimit
      · refine ⟨byteLimit / 56, ?_, by omega⟩
        rw [reduceChunkLimit, if_pos hbytes, if_neg (by unfold refIntMax; omega)]
        norm_num
      · exact ⟨refIntMax, by rw [reduceChunkLimit, if_neg hbytes], by unfold refIntMax; omega⟩
    obtain ⟨limit, hlim, hpos⟩ := hlimit
    refine ⟨min 1 limit, ?_⟩
    rw [gatherChunk, hlim, hone]
    change (refMalloc ((6 + 1 : Nat) * min 1 limit) >>= fun _ => _) = _
    rw [refMalloc_eq_ok.mpr (by unfold refIntMax; omega)]
    rfl
  obtain ⟨chunk, hchunk⟩ := hchunk
  have hwrite : Runs p (fun r => gatherBamgMet p byteLimit true text (mem r) (s r))
      fun r => if r = 0 then metHead 0 else [] := by
    refine .ret fun r hr => ?_
    rw [gatherBamgMet, hs.count r hr, hchunk, hs.rank r hr]
    simp [RefNode.gatherRows, hs.count r hr, Prog.lift]
  refine (hsync.bind hwrite).yields fun out hout => ?_
  rw [hout 0 hp, if_pos rfl]
  have hhead : readMetHead 0 (metHead 0) 0 = .ok ((), metHeadLength 0) := by
    rw [readMetHead_eq 0 (List.prefix_refl _), if_pos (by unfold refIntMax; omega), if_pos rfl]
  have hread : Runs p' (fun r => partBamgMetric p' minusOne text (metHead 0) (t r))
      fun r => (if r = 0 then metHeadLength 0 else 0, t r) := by
    refine .ret fun r hr => ?_
    rw [partBamgMetric, ht.count r hr, ht.rank r hr]
    have hzero : scatterChunk p' 0 = 0 := by
      have h := scatterChunk_of_fits (p := p') (N := 0) (Nat.zero_le _)
      rw [Nat.cast_zero] at h
      rw [h]
      omega
    have hroot : (if r = 0 then readMetHead 0 (metHead 0) 0 else .ok ((), 0)) =
        Except.ok ((), if r = 0 then metHeadLength 0 else 0) := by
      split
      · exact hhead
      · rfl
    simp only [Nat.cast_zero, Int.zero_tdiv, hzero]
    rw [hroot, refMalloc_eq_ok.mpr (by unfold refIntMax; omega)]
    rfl
  refine hread.yields fun res hres => ⟨[], metHeadLength 0, ?_, ?_, ?_, ?_⟩
  · rw [Nat.cast_zero, reader_bind_ok hhead]
    rfl
  · rw [hres 0 hp']
    rfl
  · decide +kernel
  · intro r hr node hlive
    have hbound := ht.bound r hr _ ⟨node, hlive, rfl⟩
    have hnonneg := hlive.2
    omega

/-- **The 2D metric comes back from its file exactly when there is no node**: the
reader expects half of the lines that the writer writes. -/
theorem met_round_trip_iff (byteLimit : Int) (hp : 0 < p) (hp' : 0 < p')
    (syncMem : Nat → Nat → Int)
    (hsync : Runs p (fun r => (before r).synchronizeGlobals p (syncMem r)) s)
    (hs : NodesNumbered p s N) (ht : NodesNumbered p' t N) (minusOne : D) (text : TextDbl D)
    (mem : Nat → Nat → D) :
    MetRoundTrip p p' byteLimit minusOne text syncMem mem N before t ↔ N = 0 := by
  constructor
  · rintro ⟨⟨out, hrun⟩, hread⟩
    obtain ⟨⟨res, hres⟩, -⟩ := hread out hrun
    have hfile : metHead N <+: out 0 := by
      have h := ((Runs.bind_iff hp hsync).mp hrun).ensures hp (gatherBamgMet_ensures (hs.rank 0 hp))
      rw [hs.count 0 hp] at h
      exact h
    by_contra hN
    exact not_reads_met ht hp' (by omega) hfile minusOne text res hres
  · rintro rfl
    exact met_round_trip_empty hp hp' hsync hs ht minusOne text mem

end RoundTrip

/-- Doubles written as the number of their bits. -/
def bitsText : TextDbl (BitVec 64) where
  print x := intText x.toNat
  scan := do
    let x ← scanInt .failure
    pure (BitVec.ofInt 64 x)

/-- An empty grid, written on one rank and read on two. -/
theorem met_round_trip_iff_empty :
    MetRoundTrip 1 2 1000000 0 bitsText (fun _ _ => 0) (fun _ _ => 0) 0
      (denseStore 0 (fun _ => 0) fun _ _ => 0) (denseStore 0 (fun _ => 0) fun _ _ => 0) := by
  have hnone : Settled 1 (denseStore 0 (fun _ => 0) fun _ _ => (0 : BitVec 64)) 0 :=
    denseStore_settled (Nat.zero_le _) (fun _ hk => absurd hk (Nat.not_lt_zero _)) _
  exact (met_round_trip_iff 1000000 Nat.one_pos Nat.two_pos (fun _ _ => 0)
    (synchronizeGlobals_nothing hnone.inv hnone.count hnone.new hnone.released fun _ _ => 0)
    hnone.toNodesNumbered
    (denseStore_numbered (Nat.zero_le _) (fun _ hk => absurd hk (Nat.not_lt_zero _)) _) 0 bitsText
    fun _ _ => 0).mpr rfl

/-- Two nodes: the file says two, the reader expects one. -/
theorem met_loses_two_nodes :
    ¬ MetRoundTrip 2 2 1000000 0 bitsText (fun _ _ => 0) (fun _ _ => 0) 2 metricNodes metricNodes := by
  rintro ⟨⟨out, hrun⟩, hread⟩
  obtain ⟨⟨res, hres⟩, -⟩ := hread out hrun
  have hs := metricNodes_settled
  have hsync := synchronizeGlobals_nothing hs.inv hs.count hs.new hs.released fun _ _ => 0
  have hfile := ((Runs.bind_iff Nat.two_pos hsync).mp hrun).ensures Nat.two_pos
    (gatherBamgMet_ensures (hs.rank 0 Nat.two_pos))
  rw [hs.count 0 Nat.two_pos] at hfile
  exact not_reads_met hs.toNodesNumbered Nat.two_pos Nat.two_pos hfile 0 bitsText res hres

end RefineMesh
