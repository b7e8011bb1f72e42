import Mathlib.Tactic
import RefineMesh.Meshb
import RefineMesh.NodeRowsRuns
import RefineMesh.NodeSyncRuns
import RefineMesh.Restart

/-!
# Metric and solution files

`ref_gather_node_metric_solb` and `ref_gather_scalar_solb` write a `.solb` file
with the dimension and one record for the nodes; `ref_part_metric_solb` and
`ref_part_scalar_solb` read it.  The writers differ in the types of the record
and in the row of a node, the readers in the types they take and in what they do
with a row.
-/

namespace RefineMesh

open Binary Segments Spmd

variable {D : Type}

/-! ## Writers -/

/-- The version of a file: `REF_EXPORT_MESHB_VERTEX_3` and
`REF_EXPORT_MESHB_VERTEX_4` are the counts above which it changes. -/
def solbVersion (meshbVersion nGlobal : Int) : Int :=
  if 1 < meshbVersion then meshbVersion
  else if 200000000 < nGlobal then 4
  else if 10000000 < nGlobal then 3
  else 2

/-- What rank 0 writes in front of the rows, with the position behind them. -/
def solbHead (version dim nGlobal : Int) (types : List Int) (rowBytes : Nat) :
    Except Status (Int × List UInt8) := do
  let headerSize := 4 + fpSize version + intSize version
  let file := intBytes 4 1 ++ intBytes 4 version
  let nextPosition : Int := (4 + fpSize version + 4 : Nat) + file.length
  let position ← meshbNextPosition version nextPosition
  let file := file ++ (intBytes 4 3 ++ (position ++ intBytes 4 dim))
  if nextPosition ≠ file.length then .error .failure
  else do
    let nextPosition := headerSize + (4 + types.length * 4 : Nat) + nGlobal * rowBytes + file.length
    let position ← meshbNextPosition version nextPosition
    .ok (nextPosition, file ++ (intBytes 4 62 ++ (position ++ (gatherMeshbGlob version nGlobal ++
      (intBytes 4 types.length ++ types.flatMap (intBytes 4))))))

/-- What rank 0 does behind the rows. -/
def solbEnd (version nextPosition : Int) (file : List UInt8) : Except Status (List UInt8) := do
  if nextPosition ≠ file.length then .error .failure
  else do
    let position ← meshbNextPosition version 0
    .ok (file ++ (intBytes 4 54 ++ position))

/-- A writer after the synchronization. -/
def gatherSolb [RefDblData D] (p : Nat) (byteLimit version dim : Int) (types : List Int)
    (rowBytes width : Nat) (row : Nat → Except Status (Nat → D)) (emit : (Nat → D) → List UInt8)
    (mem : Nat → D) (s : RefNode D) : RankProg D (List UInt8) :=
  (Prog.lift (if s.rank = 0 then solbHead version dim s.oldNGlobal types rowBytes
    else .ok (0, []))).bind fun head =>
    (Prog.lift (gatherChunk p byteLimit s.oldNGlobal width)).bind fun chunk =>
      (s.gatherRows p width row emit chunk mem s.oldNGlobal.toNat 0 head.2).bind fun file =>
        Prog.lift (if s.rank = 0 then solbEnd version head.1 file else .ok file)

/-- `ref_node_metric_get`. -/
def RefNode.metricGet (s : RefNode D) (node : Nat) (i : Nat) : D := s.real node (i + 3)

/-- `ref_gather_scalar_solb`: the file, which rank 0 has. -/
def gatherScalarSolb [RefDblData D] (p : Nat) (byteLimit : Int) (twod : Bool) (meshbVersion : Int)
    (syncMem : Nat → Int) (mem : Nat → D) (ldim : Nat) (scalar : Nat → D) (s : RefNode D) :
    RankProg D (List UInt8) :=
  (s.synchronizeGlobals p syncMem).bind fun s => (s.synchronizeGlobals p syncMem).bind fun s =>
    gatherSolb p byteLimit (solbVersion meshbVersion s.oldNGlobal) (if twod then 2 else 3)
      (List.replicate ldim 1) (ldim * 8) ldim (scalarRow ldim ldim scalar) (emitRow ldim) mem s

/-! ## Readers -/

/-- The variables of the header. -/
structure SolbHead where
  version : Int
  dim : Int
  nnode : Int
  ldim : Int
  nextPosition : Int
  pos : Nat

/-- The components of one solution type. -/
def readType (size : Int → Option Int) : Reader Status Int := do
  let type ← Reader.int .failure 4
  Reader.lift (match size type with
    | some n => .ok n
    | none => .error .failure)

/-- The dimension. -/
def readDim : Reader Status Int := do
  let dim ← Reader.int .failure 4
  Reader.require .failure (2 ≤ dim ∧ dim ≤ 3)
  pure dim

/-- The number of nodes and the number of components. -/
def readCounts (version : Int) (size : Int → Option Int) : Reader Status (Int × Int) := do
  let nnode ← partMeshbLong version
  let ntype ← Reader.int .failure 4
  let ldims ← Reader.many (readType size) ntype.toNat
  pure (nnode, ldims.sum)

/-- A jump to a keyword that has to be there. -/
def jumpAvailable (file : List UInt8) (version : Int) (keyPos : Int → Int) (keyword : Int) :
    Except Status (Int × Nat) := do
  match ← importMeshbJump file version keyPos keyword with
  | some place => .ok place
  | none => .error .failure

/-- The header of a `.solb` file. -/
def readSolbHead (size : Int → Int → Option Int) (file : List UInt8) : Except Status SolbHead := do
  let (version, keyPos) ← importMeshbHeader file
  if ¬ (2 ≤ version ∧ version ≤ 4) then .error .failure
  else do
    let (_, pos) ← jumpAvailable file version keyPos 3
    let (dim, _) ← readDim file pos
    let (nextPosition, pos) ← jumpAvailable file version keyPos 62
    let ((nnode, ldim), pos) ← readCounts version (size dim) file pos
    .ok ⟨version, dim, nnode, ldim, nextPosition, pos⟩

/-- The types of `ref_part_scalar_solb`. -/
def scalarTypeSize (dim type : Int) : Option Int :=
  if type = 1 then some 1 else if type = 2 then some dim else none

/-- In 2D the row of a global is also for the global of the other plane. -/
def assignPlanes {σ : Type} (dim nnode : Int) (assign : σ → Int → (Nat → D) → Except Status σ)
    (state : σ) (global : Int) (row : Nat → D) : Except Status σ := do
  let state ← assign state global row
  if dim = 2 then assign state (nnode + global) row else .ok state

/-- `ref_part_scalar_solb` behind the broadcasts. -/
def partScalarRows [RefDblData D] (p : Nat) (minusOne : D) (file : List UInt8) (scalar : Nat → D)
    (nextPosition : Int) (pos : Nat) (s : RefNode D) (dim nnode ldim : Int) :
    RankProg D (Int × (Nat → D)) :=
  if (nnode ≠ s.oldNGlobal ∧ nnode.tdiv 2 ≠ s.oldNGlobal) ∧ nnode ≤ s.oldNGlobal then .fail .failure
  else
    (Prog.lift (refMalloc (ldim * s.max))).bind fun _ =>
      let chunk := scatterChunk p nnode
      (Prog.lift (refMalloc (ldim * chunk))).bind fun _ =>
        (scatterRows p s.rank ldim.toNat chunk nnode (fun rest => min chunk (toRefInt rest))
          (readDbls ldim.toNat)
          (assignPlanes dim nnode (assignScalar s ldim.toNat fun node i => i + ldim.toNat * node))
          file nnode.toNat 0 pos (fun _ => minusOne) scalar).bind fun sec =>
            if s.rank = 0 ∧ nextPosition ≠ sec.1 then .fail .failure else .ret (ldim, sec.2)

/-- `ref_part_scalar_solb`: `ldim` and the scalar array, whose memory nothing has
set. -/
def partScalarSolb [RefDblData D] (p : Nat) (minusOne : D) (file : List UInt8) (mem : SolbHead)
    (scalar : Nat → D) (s : RefNode D) : RankProg D (Int × (Nat → D)) :=
  (Prog.lift (if s.rank = 0 then readSolbHead scalarTypeSize file else .ok mem)).bind fun head =>
    (bcastInt p head.version).bind fun _ =>
      (bcastInt p head.dim).bind fun dim =>
        (bcastLong p head.nnode).bind fun nnode =>
          (bcastInt p head.ldim).bind fun ldim =>
            partScalarRows p minusOne file scalar head.nextPosition head.pos s dim nnode ldim

/-! ## The file -/

section Format

variable {version dim nGlobal : Int} {types : List Int} {rows : List UInt8}

end Format

/-! ## Writing -/

section Write

variable [RefDblData D] {p N width rowBytes : Nat} {s : Nat → RefNode D} {byteLimit version : Int}
  {types : List Int} {row : Nat → Nat → Except Status (Nat → D)} {value : Int → Nat → D}
  {emit : (Nat → D) → List UInt8}

end Write

/-! ## Reading the header -/

section Head

variable {version dim : Int} {N : Nat} {types : List Int} {rows : List UInt8}
  {size : Int → Int → Option Int} {comps : Int → Int}

end Head

/-! ## Rows -/

section Planes

variable {σ : Type} {assign : σ → Int → (Nat → D) → Except Status σ} {width N : Nat} {dim : Int}
  {val : Nat → Nat → D}

end Planes

section Metric

variable [RefDblData D] {N : Nat} {s : RefNode D}

end Metric

/-! ## Reading -/

section Read

variable [RefDblData D] {p N : Nat} {t : Nat → RefNode D} {version : Int} {value : Int → Nat → D}
  {twod : Bool}

end Read

/-! ## The round trips -/

section RoundTrip

variable [RefDblData D]

/-- Numbered nodes, without new and without released globals. -/
structure Settled (p : Nat) (s : Nat → RefNode D) (N : Nat) : Prop extends NodesNumbered p s N where
  new : ∀ r, r < p → (s r).newNGlobal = N
  released : ∀ r, r < p → (s r).nUnused = 0

/-- The same for a field with `ldim` components. -/
def ScalarRoundTrip (p p' : Nat) (byteLimit : Int) (twod : Bool) (meshbVersion : Int) (minusOne : D)
    (syncMem : Nat → Nat → Int) (mem : Nat → Nat → D) (memPart : Nat → SolbHead) (ldim : Nat)
    (scalar memScalar : Nat → Nat → D) (before s t : Nat → RefNode D) : Prop :=
  Yields p (fun r => gatherScalarSolb p byteLimit twod meshbVersion (syncMem r) (mem r) ldim
      (scalar r) (before r))
    fun out => Yields p' (fun r => partScalarSolb p' minusOne (out 0) (memPart r) (memScalar r) (t r))
      fun res => ∀ r, r < p' → (res r).1 = ldim ∧
        ∀ node, (t r).Live node → ∀ q, q < p → ∀ node', (s q).Live node' → (s q).Owned node' →
          (s q).global node' = (t r).global node →
            ∀ i, i < ldim → (res r).2 (i + ldim * node) = scalar q (i + ldim * node')

variable {p p' N : Nat} {byteLimit meshbVersion : Int} {before s t : Nat → RefNode D}

end RoundTrip

/-! ## Two nodes, many nodes and many components -/

theorem denseStore_settled [RefDblData D] {p n : Nat} (hn : n ≤ refIntMax) {part : Nat → Nat}
    (hpart : ∀ k, k < n → part k < p) (real : Nat → Nat → D) :
    Settled p (denseStore n part real) n where
  toNodesNumbered := denseStore_numbered hn hpart real
  new := fun _ _ => rfl
  released := fun _ _ => rfl

/-- Two ranks that hold both nodes and own one each, with metrics that differ. -/
def metricNodes (r : Nat) : RefNode (BitVec 64) :=
  denseStore 2 id (fun node i => BitVec.ofNat 64 (100 * node + i)) r

theorem metricNodes_settled : Settled 2 metricNodes 2 :=
  denseStore_settled (by decide) (fun _ hk => hk) _

theorem gatherSolb_ensures [RefDblData D] {p : Nat} {byteLimit version dim : Int} {types : List Int}
    {rowBytes width : Nat} {row : Nat → Except Status (Nat → D)} {emit : (Nat → D) → List UInt8}
    {mem : Nat → D} {u : RefNode D} :
    (gatherSolb p byteLimit version dim types rowBytes width row emit mem u).Ensures fun _ =>
      ∃ chunk, gatherChunk p byteLimit u.oldNGlobal width = .ok chunk ∧
        (0 < u.oldNGlobal → 0 < chunk) := by
  unfold gatherSolb
  refine (Prog.ensures_true _).bind fun head _ => ?_
  refine Prog.Ensures.bind (Prog.ensures_lift fun chunk hchunk => hchunk) ?_
  intro chunk hchunk
  refine (gatherRows_ensures _ _ _).bind fun file hfile => ?_
  exact (Prog.ensures_true _).imp fun _ _ => ⟨chunk, hchunk, hfile.1⟩

/-- A field that comes back has been written in chunks of at least one row. -/
theorem ScalarRoundTrip.chunk [RefDblData D] {p p' N ldim : Nat} {byteLimit meshbVersion : Int}
    {twod : Bool} {minusOne : D} {syncMem : Nat → Nat → Int} {mem scalar memScalar : Nat → Nat → D}
    {memPart : Nat → SolbHead} {s t : Nat → RefNode D}
    (h : ScalarRoundTrip p p' byteLimit twod meshbVersion minusOne syncMem mem memPart ldim scalar
      memScalar s s t) (hp : 0 < p) (hs : Settled p s N) :
    ∃ chunk, gatherChunk p byteLimit N ldim = .ok chunk ∧ (0 < N → 0 < chunk) := by
  obtain ⟨⟨out, hrun⟩, -⟩ := h
  have hsync := synchronizeGlobals_nothing hs.inv hs.count hs.new hs.released syncMem
  have hfile := (Runs.bind_iff hp hsync).mp ((Runs.bind_iff hp hsync).mp hrun)
  obtain ⟨chunk, hchunk, hpos⟩ := hfile.ensures hp gatherSolb_ensures
  rw [hs.count 0 hp] at hchunk hpos
  exact ⟨chunk, hchunk, fun hN => hpos (by omega)⟩

end RefineMesh
