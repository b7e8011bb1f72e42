import Mathlib.Tactic
import RefineMesh.Binary
import RefineMesh.Mpi
import RefineMesh.NodeGhost

/-!
# Node data in files

The writers of `ref_gather.c` and the readers of `ref_part.c` move node data in
chunks of consecutive globals.  A writer fills one row for each global of the
chunk on the rank that owns the node, sums the rows over the ranks and writes
them on rank 0.  A reader reads the rows of a chunk on rank 0, broadcasts them,
and every rank keeps the rows of the nodes it holds.  Both loops are written
once here, with the row of a node and what is done with a row as parameters.

A loop that makes no progress does not end, so it has no result.
-/

namespace RefineMesh

open Binary Segments Spmd

/-- What sums and files use of `REF_DBL`.  Adding zero gives the number back;
the eight bytes of a double say what it is. -/
class RefDblData (D : Type) extends RefDbl D where
  add : D → D → D
  add_zero : ∀ x, add x zero = x
  zero_add : ∀ x, add zero x = x
  bytes : D → List UInt8
  ofBytes : List UInt8 → D
  length_bytes : ∀ x, (bytes x).length = 8
  ofBytes_bytes : ∀ x, ofBytes (bytes x) = x

/-- The conversion of a `long` to a `REF_INT`. -/
@[irreducible] def toRefInt (x : Int) : Int := x.bmod (2 ^ 32)

theorem toRefInt_bounds (x : Int) : -2147483648 ≤ toRefInt x ∧ toRefInt x ≤ 2147483647 := by
  have hlo := Int.le_bmod (x := x) (m := 2 ^ 32) (by norm_num)
  have hhi := Int.bmod_lt (x := x) (m := 2 ^ 32) (by norm_num)
  unfold toRefInt
  omega

theorem toRefInt_of_fits {x : Int} (hlo : -2147483648 ≤ x) (hhi : x ≤ 2147483647) :
    toRefInt x = x := by
  unfold toRefInt
  apply Int.bmod_eq_of_le
  · norm_num
    omega
  · norm_num
    omega

/-- `ref_malloc` of `n` entries. -/
def refMalloc (n : Int) : Except Status Unit :=
  if (refIntMax : Int) < n then .error .undefined
  else if n < 0 then .error .failure
  else .ok ()

/-- `ref_mpi_reduce_chunk_limit`. -/
def reduceChunkLimit (byteLimit : Int) (chunkBytes : Nat) : Except Status Int :=
  if 0 < byteLimit then
    if refIntMax < chunkBytes then .error .undefined else .ok (byteLimit / chunkBytes)
  else .ok refIntMax

theorem refMalloc_eq_ok {n : Int} : refMalloc n = .ok () ↔ 0 ≤ n ∧ n ≤ refIntMax := by
  unfold refMalloc
  split
  · simp
    omega
  · split
    · simp
      omega
    · simp
      omega

/-- A `REF_INT` is read back. -/
theorem reads_refInt {x : Int} (hlo : -2147483648 ≤ x) (hhi : x ≤ 2147483647) :
    Reads (Reader.int Status.failure 4) (intBytes 4 x) x := by
  apply reads_int_of_fits
  · norm_num
    omega
  · norm_num
    omega

/-- A double read from a file. -/
def readDbl {D : Type} [RefDblData D] : Reader Status D := do
  let bytes ← Reader.take .failure 8
  pure (RefDblData.ofBytes bytes)

theorem reads_readDbl {D : Type} [RefDblData D] (x : D) :
    Reads readDbl (RefDblData.bytes x) x := by
  have htake := reads_take Status.failure (RefDblData.bytes x)
  rw [RefDblData.length_bytes] at htake
  apply htake.bind_last
  rw [RefDblData.ofBytes_bytes]
  exact reads_pure x

variable {D : Type}

/-! ## Writers -/

/-- The size of the chunks of a writer of rows of `width` entries and a flag,
with the check of their allocation. -/
def gatherChunk (p : Nat) (byteLimit nGlobal : Int) (width : Nat) : Except Status Int := do
  let limit ← reduceChunkLimit byteLimit ((width + 1) * 8)
  let chunk := min (toRefInt (nGlobal / p + 1)) limit
  refMalloc ((width + 1 : Nat) * chunk)
  .ok chunk

/-- The bytes of a row. -/
def emitRow [RefDblData D] (width : Nat) (row : Nat → D) : List UInt8 :=
  (List.range width).flatMap fun im => RefDblData.bytes (row im)

/-- The first `width` of the `ldim` entries of a node; the index of an entry is a
`REF_INT`. -/
def scalarRow (ldim width : Nat) (scalar : Nat → D) (node : Nat) : Except Status (Nat → D) :=
  if refIntMax < ldim * node + (width - 1) then .error .undefined
  else .ok fun im => scalar (im + ldim * node)

namespace RefNode

/-- The row of a global in a chunk: the values and a one on the rank that owns
the node, zeros elsewhere. -/
def localRow [RefDblData D] (s : RefNode D) (width : Nat) (row : Nat → Except Status (Nat → D))
    (global : Int) : Except Status (Nat → D) :=
  match s.nodeLocal global with
  | .ok node =>
      if s.Owned node then
        (row node).map fun values im => if im < width then values im else RefDbl.one
      else .ok fun _ => RefDbl.zero
  | .error .notFound => .ok fun _ => RefDbl.zero
  | .error status => .error status

/-- `local_xyzm` of the chunk of `n` globals from `first` on. -/
def localRows [RefDblData D] (s : RefNode D) (width : Nat) (row : Nat → Except Status (Nat → D))
    (first : Int) (n : Nat) : Except Status (Nat → D) :=
  (List.range n).foldlM (fun localXyzm (i : Nat) => do
    let values ← s.localRow width row (first + i)
    .ok (storeRecord (width + 1) values i localXyzm)) fun _ => RefDbl.zero

/-- The loop of a writer: the bytes of the file after it, on rank 0. -/
def gatherRows [RefDblData D] (p : Nat) (s : RefNode D) (width : Nat)
    (row : Nat → Except Status (Nat → D)) (emit : (Nat → D) → List UInt8) (chunk : Int)
    (mem : Nat → D) : Nat → Int → List UInt8 → RankProg D (List UInt8)
  | 0, written, file => if written < s.oldNGlobal then .fail .undefined else .ret file
  | fuel+1, written, file =>
      if written < s.oldNGlobal then
        let n := (min chunk (s.oldNGlobal - written)).toNat
        (Prog.lift (s.localRows width row written n)).bind fun localXyzm =>
          (mpiSum p .dbl (RefDblData.add (D := D)) ((width + 1) * n) localXyzm mem).bind fun xyzm =>
            gatherRows p s width row emit chunk mem fuel (written + n)
              (if s.rank = 0 then
                file ++ (List.range n).flatMap fun i => emit fun im => xyzm (im + (width + 1) * i)
              else file)
      else .ret file

end RefNode

/-! ## Readers -/

/-- The size of the chunks of a reader of `total` rows. -/
def scatterChunk (p : Nat) (total : Int) : Int :=
  toRefInt (min (toRefInt (max 100000 (total.tdiv p))) total)

/-- A row of `n` doubles. -/
def readDbls [RefDblData D] (n : Nat) : Reader Status (Nat → D) := do
  let values ← Reader.many readDbl n
  pure fun i => values.getD i RefDbl.zero

/-- A row stored at the places of a node. -/
def storeRow (width : Nat) (place : Nat → Nat) (row scalar : Nat → D) : Nat → D :=
  (List.range width).foldl (fun scalar i => Function.update scalar (place i) (row i)) scalar

/-- What a rank does with the row of a global: store it when it holds the node. -/
def assignScalar (s : RefNode D) (width : Nat) (place : Nat → Nat → Nat) (scalar : Nat → D)
    (global : Int) (row : Nat → D) : Except Status (Nat → D) :=
  match s.nodeLocal global with
  | .ok node => .ok (storeRow width (place node) row scalar)
  | .error .notFound => .ok scalar
  | .error status => .error status

/-- The rows of one chunk, read on rank 0 into `data`. -/
def readSection (rank width : Nat) (readRow : Reader Status (Nat → D)) (file : List UInt8)
    (size pos : Nat) (data : Nat → D) : Except Status ((Nat → D) × Nat) := do
  if rank = 0 then
    let (rows, pos) ← Reader.many readRow size file pos
    .ok ((List.range size).foldl
      (fun data node => storeRecord width (fun i => (rows.getD node data) i) node data) data, pos)
  else .ok (data, pos)

/-- The loop of a reader of `total` rows: the position of rank 0 and the state
of the rank after it.  `sectionSize` is the size of a chunk, from the number of
rows still to read; a negative size has no result. -/
def scatterRows {σ : Type} (p rank width : Nat) (chunk total : Int) (sectionSize : Int → Int)
    (readRow : Reader Status (Nat → D)) (assign : σ → Int → (Nat → D) → Except Status σ)
    (file : List UInt8) : Nat → Int → Nat → (Nat → D) → σ → RankProg D (Nat × σ)
  | 0, read, pos, _, state => if read < total then .fail .undefined else .ret (pos, state)
  | fuel+1, read, pos, data, state =>
      if read < total then
        let size := sectionSize (total - read)
        if size < 0 then .fail .undefined
        else
          (Prog.lift (readSection rank width readRow file size.toNat pos data)).bind fun sec =>
            (bcast p .dbl (width * chunk.toNat) sec.1).bind fun data =>
              (Prog.lift ((List.range size.toNat).foldlM
                (fun state (node : Nat) => assign state (read + node) fun i => data (i + width * node))
                state)).bind fun state =>
                scatterRows p rank width chunk total sectionSize readRow assign file fuel
                  (read + size) sec.2 data state
      else .ret (pos, state)

end RefineMesh
