import Mathlib.Tactic
import RefineMesh.NodeRowsRuns
import RefineMesh.Restart

/-!
# Snap files

`ref_part_scalar_snap` reads the fields of a `.snap` file, each with its own
header and one entry for each global.  Rank 0 reads the number of entries into
the eight bytes of `nnode` and broadcasts the first four of them.
-/

namespace RefineMesh

open Binary Segments Spmd

variable {D : Type}

/-- The conversion of an unsigned word of eight bytes to a `long`. -/
@[irreducible] def toRefLong (x : Int) : Int := x.bmod (2 ^ 64)

/-- The `long` whose first four bytes have been overwritten with a `REF_INT`. -/
def setLowInt (x low : Int) : Int := x - x % 2 ^ 32 + low % 2 ^ 32

/-- The version and the number of fields. -/
def readSnapHeader : Reader Status (Int × Int) := do
  let versionNumber ← Reader.nat .failure 8
  Reader.require .failure (2 ≤ versionNumber ∧ versionNumber ≤ 3)
  let numberOfFields ← Reader.nat .failure 8
  pure (versionNumber, toRefInt numberOfFields)

/-- A string with its length in front; the length is cut to a `REF_INT`. -/
def readSnapString : Reader Status Unit := do
  let length ← Reader.nat .failure 8
  let _ ← Reader.take .failure (toRefInt length).toNat
  pure ()

/-- The header of a field up to its length. -/
def readSnapLength (version : Int) : Reader Status Nat := do
  if version = 2 then readSnapString else pure ()
  Reader.nat .failure 8

/-- The header of a field after its length: the number of entries. -/
def readSnapCount (version : Int) : Reader Status Int := do
  let nnode ← Reader.nat .failure 8
  if version = 2 then
    let association ← Reader.int .failure 4
    Reader.require .failure (association = -1)
  else
    let entryLength ← Reader.nat .failure 8
    Reader.require .failure (entryLength = 1)
    let count ← Reader.nat .failure 8
    let _ ← Reader.many (readSnapString >>= fun _ => readSnapString) count
  pure (toRefLong nnode)

/-- What rank 0 knows of a field before it reads the entries. -/
structure SnapHead where
  nnode : Int
  nextPosition : Int
  pos : Nat

/-- The header of a field and the check of its number of entries. -/
def readSnapHead (s : RefNode D) (version : Int) (file : List UInt8) (pos : Nat) :
    Except Status SnapHead := do
  let (length, pos) ← readSnapLength version file pos
  let nextPosition := toRefLong length + pos
  let (nnode, pos) ← readSnapCount version file pos
  if nnode ≠ s.oldNGlobal ∧ nnode.tdiv 2 ≠ s.oldNGlobal then .error .failure
  else .ok ⟨nnode, nextPosition, pos⟩

/-- The variables of a rank between two fields. -/
structure SnapState (D : Type) where
  nnode : Int
  pos : Nat
  scalar : Nat → D

/-- The entries of a field; `low` is the `nnode` that has been broadcast. -/
def snapEntries [RefDblData D] (p : Nat) (s : RefNode D) (ldim : Nat) (minusOne : D)
    (file : List UInt8) (field : Nat) (scalar : Nat → D) (head : SnapHead) (low : Int) :
    RankProg D (SnapState D) :=
  let nnode := setLowInt head.nnode low
  let chunk := scatterChunk p nnode
  (Prog.lift (refMalloc chunk)).bind fun _ =>
    (scatterRows p s.rank 1 chunk nnode (fun rest => toRefInt (min chunk rest)) (readDbls 1)
      (assignScalar s 1 fun node _ => field + ldim * node) file nnode.toNat 0 head.pos
      (fun _ => minusOne) scalar).bind fun sec =>
        if s.rank = 0 ∧ nnode = s.oldNGlobal ∧ head.nextPosition ≠ sec.1 then .fail .failure
        else .ret ⟨nnode, sec.1, sec.2⟩

/-- One field. -/
def snapField [RefDblData D] (p : Nat) (s : RefNode D) (version : Int) (ldim : Nat) (minusOne : D)
    (file : List UInt8) (field : Nat) (state : SnapState D) : RankProg D (SnapState D) :=
  (Prog.lift (if s.rank = 0 then readSnapHead s version file state.pos
    else .ok ⟨state.nnode, -1, state.pos⟩)).bind fun head =>
    (bcastInt p (toRefInt head.nnode)).bind
      (snapEntries p s ldim minusOne file field state.scalar head)

/-- The loop over the fields. -/
def snapFields [RefDblData D] (p : Nat) (s : RefNode D) (version : Int) (ldim : Nat) (minusOne : D)
    (file : List UInt8) : Nat → Nat → SnapState D → RankProg D (SnapState D)
  | 0, _, state => .ret state
  | todo+1, field, state =>
      (snapField p s version ldim minusOne file field state).bind
        (snapFields p s version ldim minusOne file todo (field + 1))

/-- `ref_part_scalar_snap` after the header. -/
def partSnapFields [RefDblData D] (p : Nat) (minusOne : D) (file : List UInt8) (scalar : Nat → D)
    (pos : Nat) (s : RefNode D) (version ldim : Int) : RankProg D (Int × (Nat → D)) :=
  (Prog.lift (refMalloc (ldim * s.max))).bind fun _ =>
    (snapFields p s version ldim.toNat minusOne file ldim.toNat 0 ⟨-1, pos, scalar⟩).bind
      fun state => .ret (ldim, state.scalar)

/-- The memory of `ref_part_scalar_snap` that nothing has set. -/
structure SnapMemory (D : Type) where
  version : Int
  ldim : Int
  scalar : Nat → D

/-- `ref_part_scalar_snap`: `ldim` and the scalar array. -/
def partScalarSnap [RefDblData D] (p : Nat) (minusOne : D) (file : List UInt8) (mem : SnapMemory D)
    (s : RefNode D) : RankProg D (Int × (Nat → D)) :=
  (Prog.lift (if s.rank = 0 then readSnapHeader file 0 else .ok ((mem.version, mem.ldim), 0))).bind
    fun header => (bcastInt p header.1.1).bind fun version => (bcastInt p header.1.2).bind fun ldim =>
      partSnapFields p minusOne file mem.scalar header.2 s version ldim

/-! ## The format -/

/-- A string of the format. -/
def snapString (chars : List UInt8) : List UInt8 := natBytes 8 chars.length ++ chars

/-- A field of a file: its name (version 2), its pairs of a key and a value
(version 3) and the entry of each global. -/
structure SnapField (D : Type) where
  name : List UInt8
  pairs : List (List UInt8 × List UInt8)
  entry : Nat → D

namespace SnapField

/-- The bytes of the entries. -/
def entryBytes [RefDblData D] (f : SnapField D) (n : Nat) : List UInt8 :=
  (List.range' 0 n).flatMap fun g => emitRow 1 fun _ => f.entry g

/-- The bytes between the length of a field and its entries. -/
def countBytes (f : SnapField D) (version n : Nat) : List UInt8 :=
  natBytes 8 n ++ (if version = 2 then intBytes 4 (-1)
    else natBytes 8 1 ++ (natBytes 8 f.pairs.length ++
      f.pairs.flatMap fun pair => snapString pair.1 ++ snapString pair.2))

/-- The number of bytes after the length of a field. -/
def length (f : SnapField D) (version n : Nat) : Nat := (f.countBytes version n).length + 8 * n

/-- The bytes of a field up to its length. -/
def lengthBytes (f : SnapField D) (version n : Nat) : List UInt8 :=
  (if version = 2 then snapString f.name else []) ++ natBytes 8 (f.length version n)

/-- The bytes of a field. -/
def bytes [RefDblData D] (f : SnapField D) (version n : Nat) : List UInt8 :=
  f.lengthBytes version n ++ (f.countBytes version n ++ f.entryBytes n)

/-- The strings have lengths that are `REF_INT`, the counts and positions fit
their words. -/
structure Fits (f : SnapField D) (version n : Nat) : Prop where
  name : f.name.length ≤ refIntMax
  pairs : ∀ pair ∈ f.pairs, pair.1.length ≤ refIntMax ∧ pair.2.length ≤ refIntMax
  count : f.pairs.length < 2 ^ 64
  length : f.length version n < 2 ^ 63

end SnapField

/-- The bytes of a file with entries for `n` globals. -/
def snapFile [RefDblData D] (version n : Nat) (fields : List (SnapField D)) : List UInt8 :=
  natBytes 8 version ++ (natBytes 8 fields.length ++ fields.flatMap fun f => f.bytes version n)

/-! ## Reading the format back -/

theorem toRefLong_of_fits {n : Nat} (hn : n < 2 ^ 63) : toRefLong n = n := by
  unfold toRefLong
  apply Int.bmod_eq_of_le
  · norm_num
  · norm_num
    omega

theorem toRefInt_toNat {n : Nat} (hn : n ≤ refIntMax) : (toRefInt n).toNat = n := by
  unfold refIntMax at hn
  rw [toRefInt_of_fits (by omega) (by omega), Int.toNat_natCast]

theorem reads_snapHeader {version n : Nat} (hversion : version = 2 ∨ version = 3)
    (hn : n ≤ refIntMax) :
    Reads readSnapHeader (natBytes 8 version ++ natBytes 8 n) ((version : Int), (n : Int)) := by
  unfold refIntMax at hn
  apply (reads_nat _ (by omega)).bind
  apply (reads_require _ (by omega)).bind_first
  apply (reads_nat _ (by omega)).bind_last
  rw [toRefInt_of_fits (by omega) (by omega)]
  exact reads_pure _

theorem reads_snapString {chars : List UInt8} (h : chars.length ≤ refIntMax) :
    Reads readSnapString (snapString chars) () := by
  unfold snapString
  apply (reads_nat _ (by unfold refIntMax at h; omega)).bind
  rw [toRefInt_toNat h]
  apply (reads_take _ chars).bind_last
  exact reads_pure ()

section Format

variable [RefDblData D] {version N : Nat} {f : SnapField D}

omit [RefDblData D] in
theorem SnapField.Fits.count_lt (h : f.Fits version N) : N < 2 ^ 63 := by
  have := h.length
  unfold SnapField.length at this
  omega

omit [RefDblData D] in
theorem reads_snapLength (h : f.Fits version N) :
    Reads (readSnapLength version) (f.lengthBytes version N) (f.length version N) := by
  have hlength : f.length version N < 256 ^ 8 := by
    have := h.length
    omega
  unfold readSnapLength SnapField.lengthBytes
  by_cases hv : version = 2
  · simp only [hv, Nat.cast_ofNat, if_true] at hlength ⊢
    exact (reads_snapString h.name).bind (reads_nat _ hlength)
  · have hv' : ¬ (version : Int) = 2 := by omega
    simp only [if_neg hv, if_neg hv']
    exact reads_nat _ hlength

omit [RefDblData D] in
theorem reads_snapCount (h : f.Fits version N) :
    Reads (readSnapCount version) (f.countBytes version N) N := by
  have hN := h.count_lt
  unfold readSnapCount SnapField.countBytes
  apply (reads_nat _ (by omega)).bind
  by_cases hv : version = 2
  · simp only [hv, Nat.cast_ofNat, if_true]
    apply (reads_refInt (by norm_num) (by norm_num)).bind_last
    apply (reads_require _ rfl).bind_first
    rw [toRefLong_of_fits hN]
    exact reads_pure _
  · have hv' : ¬ (version : Int) = 2 := by omega
    simp only [if_neg hv, if_neg hv']
    apply (reads_nat _ (by norm_num)).bind
    apply (reads_require _ rfl).bind_first
    apply (reads_nat _ (by have := h.count; omega)).bind
    have hpairs : Reads (Reader.many (readSnapString >>= fun _ => readSnapString) f.pairs.length)
        (f.pairs.flatMap fun pair => snapString pair.1 ++ snapString pair.2)
        (f.pairs.map fun _ => ()) := by
      apply reads_many
      intro pair hpair
      exact (reads_snapString (h.pairs pair hpair).1).bind (reads_snapString (h.pairs pair hpair).2)
    apply hpairs.bind_last
    rw [toRefLong_of_fits hN]
    exact reads_pure _

theorem length_entryBytes (f : SnapField D) (n : Nat) : (f.entryBytes n).length = 8 * n := by
  simp [SnapField.entryBytes, length_emitRow, Nat.mul_comm]

theorem length_snapField (f : SnapField D) (version n : Nat) :
    (f.bytes version n).length = (f.lengthBytes version n).length + f.length version n := by
  rw [SnapField.bytes, List.length_append, List.length_append, length_entryBytes]
  rfl

/-- What rank 0 finds at the head of a field. -/
theorem readSnapHead_eq {s : RefNode D} {file : List UInt8} {pos : Nat} (h : f.Fits version N)
    (hcount : s.oldNGlobal = N) (hat : At file pos (f.bytes version N)) :
    readSnapHead s version file pos = .ok ⟨N, (pos + (f.bytes version N).length : Nat),
      pos + (f.lengthBytes version N).length + (f.countBytes version N).length⟩ := by
  unfold readSnapHead
  rw [reads_snapLength h file pos hat.left]
  simp only [bind, Except.bind]
  rw [reads_snapCount h file _ hat.right.left]
  simp only
  rw [if_neg (by omega), toRefLong_of_fits h.length, length_snapField]
  push_cast
  congr 2
  ring

end Format

/-! ## One field -/

theorem setLowInt_self {n : Nat} : setLowInt n (toRefInt n) = n := by
  have hlow : toRefInt n % 2 ^ 32 = (n : Int) % 2 ^ 32 := by
    unfold toRefInt
    exact Int.bmod_emod
  rw [setLowInt, hlow]
  omega

/-- A rank other than 0 keeps the upper half of `nnode`. -/
theorem setLowInt_neg {x : Int} (hx : x < 0) (low : Int) : setLowInt x low < 0 := by
  unfold setLowInt
  omega

section Field

variable [RefDblData D] {p version N : Nat} {t : Nat → RefNode D}

/-- What rank `r` has at the head of a field. -/
def headAt (f : SnapField D) (version N r : Nat) (state : SnapState D) : SnapHead :=
  if r = 0 then ⟨N, (state.pos + (f.bytes version N).length : Nat),
    state.pos + (f.lengthBytes version N).length + (f.countBytes version N).length⟩
  else ⟨state.nnode, -1, state.pos⟩

/-- Behind the head of a field all ranks have the low half of the count of rank 0. -/
theorem snapField_runs_iff (ht : NodesNumbered p t N) (hp : 0 < p) {f : SnapField D}
    (hfits : f.Fits version N) (ldim field : Nat) (minusOne : D) {file : Nat → List UInt8}
    {state : Nat → SnapState D} (hat : At (file 0) (state 0).pos (f.bytes version N)) {α : Type}
    (rest : Nat → SnapState D → RankProg D α) (out : Nat → α) :
    Runs p (fun r => (snapField p (t r) version ldim minusOne (file r) field (state r)).bind
        (rest r)) out ↔
      Runs p (fun r => (snapEntries p (t r) ldim minusOne (file r) field (state r).scalar
        (headAt f version N r (state r)) (toRefInt N)).bind (rest r)) out := by
  have hcall : ∀ r, r < p →
      (snapField p (t r) version ldim minusOne (file r) field (state r)).bind (rest r) =
        (bcastInt p (toRefInt (headAt f version N r (state r)).nnode)).bind fun low =>
          (snapEntries p (t r) ldim minusOne (file r) field (state r).scalar
            (headAt f version N r (state r)) low).bind (rest r) := by
    intro r hr
    unfold snapField headAt
    rw [ht.rank r hr]
    by_cases hr0 : r = 0
    · subst hr0
      rw [if_pos rfl, if_pos rfl, readSnapHead_eq hfits (ht.count 0 hr) hat, Prog.lift_ok,
        Prog.ret_bind, Prog.bind_assoc]
    · rw [if_neg hr0, if_neg hr0, Prog.lift_ok, Prog.ret_bind, Prog.bind_assoc]
  have hcongr : Runs p (fun r => (snapField p (t r) version ldim minusOne (file r) field
      (state r)).bind (rest r)) out ↔ _ :=
    ⟨fun h => h.congr fun r hr => (hcall r hr).symm, fun h => h.congr hcall⟩
  rw [hcongr, Runs.bind_iff hp (bcastInt_run hp _)]
  rfl

/-- The entries of the first fields are in place. -/
def SnapPlaced (u : RefNode D) (N ldim : Nat) (fields : List (SnapField D)) (scalar : Nat → D) :
    Prop :=
  ∀ node (g : Nat), u.Live node → u.global node = g → g < N → ∀ i (hi : i < fields.length),
    scalar (i + ldim * node) = fields[i].entry g

omit [RefDblData D] in
/-- A single rank holds all globals, so they fit a `REF_INT`. -/
theorem count_le_of_serial (ht : NodesNumbered 1 t N) : N ≤ refIntMax := by
  have hinv := ht.inv 0 Nat.one_pos
  have hnode : ∀ g, g ∈ Finset.range N → ∃ node, (t 0).Live node ∧ (t 0).global node = g := by
    intro g hg
    obtain ⟨q, hq, node, hlive, hglobal, -⟩ := ht.owned g (Finset.mem_range.mp hg)
    obtain rfl : q = 0 := by omega
    exact ⟨node, hlive, hglobal⟩
  choose! node hlive hglobal using hnode
  have hcard : (Finset.range N).card ≤ (Finset.range (t 0).max).card := by
    apply Finset.card_le_card_of_injOn node
    · intro g hg
      exact Finset.mem_coe.mpr (Finset.mem_range.mpr (hlive g hg).1)
    · intro g hg g' hg' h
      have hsame := (hglobal g hg).symm.trans ((congrArg _ h).trans (hglobal g' hg'))
      exact Int.ofNat.inj hsame
  rw [Finset.card_range, Finset.card_range] at hcard
  exact hcard.trans hinv.fits

/-- The entries of a field on a single rank. -/
theorem snapEntries_serial (ht : NodesNumbered 1 t N) {f : SnapField D} {ldim field : Nat}
    (hfield : field < ldim) (minusOne : D) (file : Nat → List UInt8) (state : Nat → SnapState D)
    (hat : At (file 0) (state 0).pos (f.bytes version N)) :
    ∃ fin : Nat → D,
      Runs 1 (fun r => snapEntries 1 (t r) ldim minusOne (file r) field (state r).scalar
          (headAt f version N r (state r)) (toRefInt N))
        (fun _ => ⟨N, (state 0).pos + (f.bytes version N).length, fin⟩) ∧
      (∀ node (g : Nat), (t 0).Live node → (t 0).global node = g → g < N →
        fin (field + ldim * node) = f.entry g) ∧
      ∀ node i, i < ldim → i ≠ field →
        fin (i + ldim * node) = (state 0).scalar (i + ldim * node) := by
  have hN := count_le_of_serial ht
  have hinj : ∀ node node' i i' : Nat, i < 1 → i' < 1 →
      field + ldim * node = field + ldim * node' → node = node' ∧ i = i' := by
    intro node node' i i' hi hi' h
    exact ⟨(record_place_inj hfield hfield h).1, by omega⟩
  obtain ⟨fin, hfin, hplaced, hother⟩ := assignScalar_all (ht.inv 0 Nat.one_pos)
    (fun node _ => field + ldim * node)
    (fun g i => ((List.range 1).map fun _ => f.entry g).getD i RefDbl.zero) hinj N
    (state 0).scalar
  have hchunk := scatterChunk_of_fits (p := 1) hN
  have hsize : ∀ rest : Int, 0 < rest → rest ≤ N →
      toRefInt (min (scatterChunk 1 N) rest) = min (scatterChunk 1 N) rest := by
    intro rest h0 hle
    unfold refIntMax at hN
    rw [toRefInt_of_fits (by omega) (by omega)]
  have hentries : At (file 0) ((state 0).pos + (f.lengthBytes version N).length +
      (f.countBytes version N).length) (f.entryBytes N) := hat.right.right
  have hscatter := scatterRows_run (D := D) Nat.one_pos
    (fun r _ => assignScalar_looksAt (t r) 1 fun node _ => field + ldim * node)
    (fun g _ => reads_readDbls 1 fun _ => f.entry g) (by omega)
    (fun rest => toRefInt (min (scatterChunk 1 N) rest)) hsize file N 0
    (fun r => (headAt f version N r (state r)).pos) (fun _ _ => minusOne)
    (fun r => (state r).scalar) (fun _ => fin) (by omega) (Nat.zero_le N) hentries (by
      intro r hr
      obtain rfl : r = 0 := by omega
      exact hfin)
  refine ⟨fin, ?_, ?_, ?_⟩
  · have hend : (state 0).pos + (f.lengthBytes version N).length +
        (f.countBytes version N).length + (f.entryBytes N).length =
          (state 0).pos + (f.bytes version N).length := by
      simp only [SnapField.bytes, List.length_append]
      ring
    let close : Nat → Nat × (Nat → D) → RankProg D (SnapState D) := fun r sec =>
      if r = 0 ∧ (N : Int) = (t r).oldNGlobal ∧
        (headAt f version N r (state r)).nextPosition ≠ sec.1 then .fail .failure
      else .ret ⟨N, sec.1, sec.2⟩
    refine Runs.congr (hscatter.bind (f := close) (.ret ?_)) ?_
    · intro r hr
      obtain rfl : r = 0 := by omega
      have hpos : (headAt f version N 0 (state 0)).pos + (f.entryBytes N).length =
          (state 0).pos + (f.bytes version N).length := hend
      have hrange : ((List.range' 0 (N - 0)).flatMap fun g => emitRow 1 fun _ => f.entry g) =
          f.entryBytes N := rfl
      simp only [if_true, hrange]
      rw [hpos]
      exact if_neg fun h => h.2.2 rfl
    · intro r hr
      obtain rfl : r = 0 := by omega
      unfold snapEntries
      simp only [headAt, if_true, setLowInt_self, Int.toNat_natCast]
      rw [refMalloc_eq_ok.mpr (by omega), Prog.lift_ok, Prog.ret_bind, ht.rank 0 hr]
      rfl
  · intro node g hlive hg hlt
    exact hplaced node g hlive hg hlt 0 Nat.one_pos
  · intro node i hi hne
    apply hother
    intro node' _ _ _ heq
    exact hne (record_place_inj hfield hi heq).2.symm

omit [RefDblData D] in
/-- The chunk of a rank whose low half is 0. -/
theorem scatterChunk_neg (p : Nat) {x : Int} (hx : x < 0) :
    scatterChunk p (setLowInt x 0) = 0 := by
  have hneg := setLowInt_neg hx 0
  have hdiv : (setLowInt x 0).tdiv p ≤ 0 := by
    have hpos := Int.tdiv_nonneg (show 0 ≤ -setLowInt x 0 by omega) (Int.natCast_nonneg p)
    rw [Int.neg_tdiv] at hpos
    omega
  have hlow : toRefInt (setLowInt x 0) = 0 := by
    have hmod : setLowInt x 0 % 2 ^ 32 = 0 := by
      unfold setLowInt
      omega
    unfold toRefInt
    exact Int.bmod_eq_zero_of_dvd (Int.dvd_of_emod_eq_zero hmod)
  have hchunk : toRefInt 100000 = 100000 := toRefInt_of_fits (by norm_num) (by norm_num)
  unfold scatterChunk
  rw [max_eq_left (by omega), hchunk, min_eq_right (by omega), hlow]

/-- A field without entries. -/
theorem snapEntries_empty (ht : NodesNumbered p t 0) {f : SnapField D} {ldim field : Nat}
    (minusOne : D) (file : List UInt8) {r : Nat} (hr : r < p) (state : SnapState D)
    (hneg : 0 < r → state.nnode < 0) :
    snapEntries p (t r) ldim minusOne file field state.scalar (headAt f version 0 r state)
        (toRefInt (0 : Nat)) =
      .ret ⟨if r = 0 then 0 else setLowInt state.nnode 0,
        if r = 0 then state.pos + (f.bytes version 0).length else state.pos, state.scalar⟩ := by
  have hmalloc : refMalloc 0 = .ok () := refMalloc_eq_ok.mpr ⟨le_rfl, by unfold refIntMax; omega⟩
  by_cases hr0 : r = 0
  · subst hr0
    have hpos : (f.lengthBytes version 0).length + (f.countBytes version 0).length =
        (f.bytes version 0).length := by
      simp only [SnapField.bytes, List.length_append, length_entryBytes]
      rfl
    have hchunk : scatterChunk p (0 : Nat) = 0 := by
      rw [scatterChunk_of_fits (Nat.zero_le _)]
      simp
    unfold snapEntries
    simp only [headAt, if_true, setLowInt_self]
    rw [hchunk, hmalloc, Nat.add_assoc, hpos, Prog.lift_ok, Prog.ret_bind]
    simp only [Nat.cast_zero, Int.toNat_zero, scatterRows, lt_irrefl, if_false, Prog.ret_bind]
    exact if_neg fun h => h.2.2 rfl
  · have hlow : toRefInt (0 : Nat) = 0 := toRefInt_of_fits (by norm_num) (by norm_num)
    have hnneg := setLowInt_neg (hneg (by omega)) 0
    unfold snapEntries
    simp only [headAt, if_neg hr0, hlow]
    rw [scatterChunk_neg p (hneg (by omega)), hmalloc, Prog.lift_ok, Prog.ret_bind,
      Int.toNat_of_nonpos hnneg.le, scatterRows, if_neg (by omega), Prog.ret_bind,
      ht.rank r hr]
    exact if_neg fun h => hr0 h.1

/-- **One field**, on a single rank or without nodes. -/
theorem snapField_run (ht : NodesNumbered p t N) (hp : 0 < p) (hcase : p = 1 ∨ N = 0)
    {f : SnapField D} (hfits : f.Fits version N) {ldim field : Nat} (hfield : field < ldim)
    (minusOne : D) (file : Nat → List UInt8) (state : Nat → SnapState D)
    (hat : At (file 0) (state 0).pos (f.bytes version N))
    (hneg : ∀ r, r < p → 0 < r → (state r).nnode < 0) :
    ∃ fin : Nat → SnapState D,
      Runs p (fun r => snapField p (t r) version ldim minusOne (file r) field (state r)) fin ∧
      (fin 0).pos = (state 0).pos + (f.bytes version N).length ∧
      (∀ r, r < p → 0 < r → (fin r).nnode < 0) ∧
      ∀ r, r < p →
        (∀ node (g : Nat), (t r).Live node → (t r).global node = g → g < N →
          (fin r).scalar (field + ldim * node) = f.entry g) ∧
        ∀ node i, i < ldim → i ≠ field →
          (fin r).scalar (i + ldim * node) = (state r).scalar (i + ldim * node) := by
  have hruns : ∀ fin : Nat → SnapState D,
      Runs p (fun r => snapEntries p (t r) ldim minusOne (file r) field (state r).scalar
        (headAt f version N r (state r)) (toRefInt N)) fin →
      Runs p (fun r => snapField p (t r) version ldim minusOne (file r) field (state r)) fin := by
    intro fin h
    have hiff := snapField_runs_iff ht hp hfits ldim field minusOne hat (fun _ => .ret) fin
    simp only [Prog.bind_ret] at hiff
    exact hiff.mpr h
  rcases hcase with rfl | rfl
  · obtain ⟨fin, hrun, hplaced, hother⟩ := snapEntries_serial ht hfield minusOne file state hat
    refine ⟨_, hruns _ hrun, rfl, fun r hr h0 => by omega, fun r hr => ?_⟩
    obtain rfl : r = 0 := by omega
    exact ⟨hplaced, hother⟩
  · refine ⟨_, hruns _ (.ret fun r hr =>
      snapEntries_empty ht minusOne (file r) hr (state r) (hneg r hr)), rfl, ?_, ?_⟩
    · intro r hr h0
      simp only [if_neg (show r ≠ 0 by omega)]
      exact setLowInt_neg (hneg r hr h0) 0
    · exact fun r hr => ⟨fun _ _ _ _ h => absurd h (Nat.not_lt_zero _), fun _ _ _ _ => rfl⟩

/-- **The loop over the fields**, on a single rank or without nodes. -/
theorem snapFields_run (ht : NodesNumbered p t N) (hp : 0 < p) (minusOne : D)
    (file : Nat → List UInt8) :
    ∀ (rest done : List (SnapField D)) (state : Nat → SnapState D),
      (rest ≠ [] → p = 1 ∨ N = 0) →
      (∀ f ∈ rest, f.Fits version N) →
      At (file 0) (state 0).pos (rest.flatMap fun f => f.bytes version N) →
      (∀ r, r < p → 0 < r → (state r).nnode < 0) →
      (∀ r, r < p → SnapPlaced (t r) N (done ++ rest).length done (state r).scalar) →
      ∃ fin : Nat → SnapState D,
        Runs p (fun r => snapFields p (t r) version (done ++ rest).length minusOne (file r)
          rest.length done.length (state r)) fin ∧
        ∀ r, r < p → SnapPlaced (t r) N (done ++ rest).length (done ++ rest) (fin r).scalar := by
  intro rest
  induction rest with
  | nil =>
      intro done state _ _ _ _ hplaced
      refine ⟨state, .ret fun _ _ => rfl, ?_⟩
      simpa using hplaced
  | cons f rest ih =>
      intro done state hcase hfits hat hneg hplaced
      have hcase := hcase (List.cons_ne_nil f rest)
      rw [List.flatMap_cons] at hat
      have hlength : done.length < (done ++ f :: rest).length := by simp
      obtain ⟨mid, hmid, hpos, hneg', hkeep⟩ := snapField_run ht hp hcase
        (hfits f List.mem_cons_self) hlength minusOne file state hat.left hneg
      have happend : done ++ f :: rest = (done ++ [f]) ++ rest := by simp
      obtain ⟨fin, hfin, hall⟩ := ih (done ++ [f]) mid
        (fun _ => hcase) (fun f' hf' => hfits f' (List.mem_cons_of_mem _ hf')) (hpos ▸ hat.right)
        hneg' (by
          intro r hr node g hlive hg hlt i hi
          rw [← happend]
          rw [List.length_append, List.length_singleton] at hi
          by_cases hlast : i = done.length
          · subst hlast
            rw [(hkeep r hr).1 node g hlive hg hlt]
            simp
          · rw [(hkeep r hr).2 node i (by omega) hlast, hplaced r hr node g hlive hg hlt i (by omega),
              List.getElem_append_left])
      rw [← happend] at hfin hall
      refine ⟨fin, Runs.congr (hmid.bind (f := fun r => snapFields p (t r) version
        (done ++ f :: rest).length minusOne (file r) rest.length (done.length + 1))
        (hfin.congr fun r _ => ?_)) fun _ _ => rfl, hall⟩
      have hnext : (done ++ [f]).length = done.length + 1 := by simp
      rw [hnext]

/-! ## More than one rank -/

/-- Rank 0 goes on to broadcast entries. -/
theorem snapEntries_root (ht : NodesNumbered p t N) (hp : 2 ≤ p) (hN : 0 < N) (f : SnapField D)
    (version ldim field : Nat) (minusOne : D) (file : List UInt8) (state : SnapState D) :
    (∃ e, snapEntries p (t 0) ldim minusOne file field state.scalar (headAt f version N 0 state)
      (toRefInt N) = .fail e) ∨
    (snapEntries p (t 0) ldim minusOne file field state.scalar
      (headAt f version N 0 state) (toRefInt N)).Broadcasts .dbl := by
  obtain ⟨fuel, rfl⟩ : ∃ fuel, N = fuel + 1 := ⟨N - 1, by omega⟩
  unfold snapEntries
  simp only [headAt, if_true, setLowInt_self, Int.toNat_natCast]
  cases hmalloc : refMalloc (scatterChunk p (fuel + 1 : Nat)) with
  | error e => exact .inl ⟨e, rfl⟩
  | ok _ =>
      rw [Prog.lift_ok, Prog.ret_bind, scatterRows, if_pos (by omega)]
      simp only
      split
      · exact .inl ⟨_, rfl⟩
      · cases hsec : readSection (t 0).rank 1 (readDbls 1) file
            (toRefInt (min (scatterChunk p (fuel + 1 : Nat)) ((fuel + 1 : Nat) - 0))).toNat
            (state.pos + (f.lengthBytes version (fuel + 1)).length +
              (f.countBytes version (fuel + 1)).length) fun _ => minusOne with
        | error e => exact .inl ⟨e, rfl⟩
        | ok sec =>
            exact .inr (((bcast_broadcasts hp .dbl _ sec.1).bind _).bind _)

/-- A rank other than 0 does not wait for entries. -/
theorem snapEntries_other (ht : NodesNumbered p t N) (f : SnapField D)
    (version ldim field : Nat) {r : Nat} (hr : r < p) (hr0 : r ≠ 0) (minusOne : D)
    (file : List UInt8) {state : SnapState D}
    (hneg : state.nnode < 0) (low : Int) :
    (∃ e, snapEntries p (t r) ldim minusOne file field state.scalar (headAt f version N r state)
      low = .fail e) ∨
    ∃ state', snapEntries p (t r) ldim minusOne file field state.scalar
      (headAt f version N r state) low = .ret state' := by
  have hnneg := setLowInt_neg hneg low
  unfold snapEntries
  simp only [headAt, if_neg hr0]
  cases refMalloc (scatterChunk p (setLowInt state.nnode low)) with
  | error e => exact .inl ⟨e, rfl⟩
  | ok _ =>
      refine .inr ⟨⟨setLowInt state.nnode low, state.pos, state.scalar⟩, ?_⟩
      rw [Prog.lift_ok, Prog.ret_bind, Int.toNat_of_nonpos hnneg.le, scatterRows,
        if_neg (by omega), Prog.ret_bind, if_neg fun h => hr0 ((ht.rank r hr).symm.trans h.1)]

/-- The next thing such a rank does is not a broadcast of entries. -/
theorem snapFields_no_entries {u : RefNode D} (hp : 2 ≤ p) (hrank : u.rank ≠ 0) {ldim : Nat}
    {minusOne : D} {file : List UInt8} (todo field : Nat) (state : SnapState D) {α : Type}
    (g : SnapState D → α) :
    ¬ ((snapFields p u version ldim minusOne file todo field state).bind
      fun state => .ret (g state)).Broadcasts .dbl := by
  cases todo with
  | zero => exact id
  | succ todo =>
      intro h
      unfold snapFields snapField at h
      rw [if_neg hrank, Prog.lift_ok, Prog.ret_bind] at h
      have hint := ((((bcast_broadcasts (D := D) hp .int 1 fun _ => toRefInt state.nnode).bind
        fun data => .ret (data 0)).bind (snapEntries p u ldim minusOne file field state.scalar
          ⟨state.nnode, -1, state.pos⟩)).bind (snapFields p u version ldim minusOne file todo
            (field + 1))).bind fun state => .ret (g state)
      exact absurd (hint.unique h) nofun

/-- **On two ranks or more a field with entries has no run**: rank 0 broadcasts
the entries and the other ranks are done with the field. -/
theorem not_runs_snapField (ht : NodesNumbered p t N) (hp : 2 ≤ p) (hN : 0 < N) {f : SnapField D}
    (hfits : f.Fits version N) {ldim field : Nat} {minusOne : D} (file : Nat → List UInt8)
    (state : Nat → SnapState D) (hat : At (file 0) (state 0).pos (f.bytes version N))
    (hneg : (state 1).nnode < 0) {α : Type} {rest : Nat → SnapState D → RankProg D α}
    (hrest : ∀ state, ¬ (rest 1 state).Broadcasts .dbl) {out : Nat → α} :
    ¬ Runs p (fun r => (snapField p (t r) version ldim minusOne (file r) field (state r)).bind
      (rest r)) out := by
  intro h
  have hruns := (snapField_runs_iff ht (by omega) hfits ldim field minusOne hat rest out).mp h
  rcases snapEntries_root ht hp hN f version ldim field minusOne (file 0) (state 0) with
    ⟨e, hfail⟩ | hcall
  · exact not_runs_of_fail (r := 0) (e := e) (by omega) (by rw [hfail]; rfl) hruns
  · have hother := hruns.broadcasts (by omega) (hcall.bind (rest 0)) 1 (by omega)
    rcases snapEntries_other ht f version ldim field (r := 1) (by omega) (by omega) minusOne (file 1)
      hneg (toRefInt N) with ⟨e, hfail⟩ | ⟨state', hret⟩
    · exact not_runs_of_fail (r := 1) (e := e) (by omega) (by rw [hfail]; rfl) hruns
    · rw [hret, Prog.ret_bind] at hother
      exact hrest _ hother

end Field

/-! ## Reading a file -/

section Read

variable [RefDblData D] {p version N : Nat} {t : Nat → RefNode D} {fields : List (SnapField D)}

/-- All ranks read the file and every node they hold has the entries of its
global in all fields. -/
def SnapRead (p version N : Nat) (minusOne : D) (fields : List (SnapField D))
    (mem : Nat → SnapMemory D) (t : Nat → RefNode D) : Prop :=
  Yields p (fun r => partScalarSnap p minusOne (snapFile version N fields) (mem r) (t r))
    fun res => ∀ r, r < p → (res r).1 = fields.length ∧
      ∀ node (g : Nat), (t r).Live node → (t r).global node = g →
        ∀ f (hf : f < fields.length), (res r).2 (f + fields.length * node) = fields[f].entry g

/-- The header is the same on all ranks after the broadcasts. -/
theorem partScalarSnap_runs_iff (ht : NodesNumbered p t N) (hp : 0 < p)
    (hversion : version = 2 ∨ version = 3) (hcount : fields.length ≤ refIntMax) {minusOne : D}
    {mem : Nat → SnapMemory D} {res : Nat → Int × (Nat → D)} :
    Runs p (fun r => partScalarSnap p minusOne (snapFile version N fields) (mem r) (t r)) res ↔
      Runs p (fun r => partSnapFields p minusOne (snapFile version N fields) (mem r).scalar
        (if r = 0 then 16 else 0) (t r) version fields.length) res := by
  have hread : readSnapHeader (snapFile version N fields) 0 =
      .ok (((version : Int), (fields.length : Int)), 16) := by
    have hat : At (snapFile version N fields) 0
        (natBytes 8 version ++ natBytes 8 fields.length) := by
      have hwhole := at_whole (snapFile version N fields)
      nth_rewrite 2 [snapFile] at hwhole
      rw [← List.append_assoc] at hwhole
      exact hwhole.left
    rw [reads_snapHeader hversion hcount _ _ hat]
    simp
  let header : Nat → Int × Int := fun r =>
    if r = 0 then (version, fields.length) else ((mem r).version, (mem r).ldim)
  have hcall : ∀ r, r < p →
      partScalarSnap p minusOne (snapFile version N fields) (mem r) (t r) =
        (bcastInt p (header r).1).bind fun version' => (bcastInt p (header r).2).bind fun ldim =>
          partSnapFields p minusOne (snapFile version N fields) (mem r).scalar
            (if r = 0 then 16 else 0) (t r) version' ldim := by
    intro r hr
    unfold partScalarSnap
    rw [ht.rank r hr]
    by_cases hr0 : r = 0
    · subst hr0
      simp only [if_true, hread, header]
      rfl
    · simp only [if_neg hr0, header]
      rfl
  have hcongr : Runs p (fun r => partScalarSnap p minusOne (snapFile version N fields) (mem r) (t r))
      res ↔ _ :=
    ⟨fun h => h.congr fun r hr => (hcall r hr).symm, fun h => h.congr hcall⟩
  rw [hcongr, Runs.bind_iff hp (bcastInt_run hp _), Runs.bind_iff hp (bcastInt_run hp _)]
  rfl

/-- Behind the allocation of the scalar array come the fields. -/
theorem partSnapFields_eq {u : RefNode D} (harray : fields.length * u.max ≤ refIntMax)
    (minusOne : D) (file : List UInt8) (scalar : Nat → D) (pos : Nat) :
    partSnapFields p minusOne file scalar pos u version fields.length =
      (snapFields p u version fields.length minusOne file fields.length 0 ⟨-1, pos, scalar⟩).bind
        fun state => .ret ((fields.length : Int), state.scalar) := by
  unfold partSnapFields
  rw [refMalloc_eq_ok.mpr ⟨by positivity, by exact_mod_cast harray⟩, Int.toNat_natCast,
    Prog.lift_ok, Prog.ret_bind]

theorem partSnapFields_ensures {u : RefNode D} {minusOne : D} {file : List UInt8}
    {scalar : Nat → D} {pos : Nat} :
    (partSnapFields p minusOne file scalar pos u version fields.length).Ensures fun _ =>
      fields.length * u.max ≤ refIntMax := by
  have hmalloc : (Prog.lift (refMalloc (fields.length * u.max)) : RankProg D Unit).Ensures fun _ =>
      fields.length * u.max ≤ refIntMax :=
    Prog.ensures_lift fun _ h => by exact_mod_cast (refMalloc_eq_ok.mp h).2
  exact hmalloc.bind fun _ h => (Prog.ensures_true _).imp fun _ _ => h

theorem at_snapFields (version N : Nat) (fields : List (SnapField D)) :
    At (snapFile version N fields) 16 (fields.flatMap fun f => f.bytes version N) := by
  have hwhole := at_whole (snapFile version N fields)
  nth_rewrite 2 [snapFile] at hwhole
  have hright := hwhole.right.right
  rw [length_natBytes, length_natBytes] at hright
  exact hright

/-- A file is read on a single rank, without fields and without nodes. -/
theorem snap_reads (ht : NodesNumbered p t N) (hp : 0 < p) (hversion : version = 2 ∨ version = 3)
    (hfits : ∀ f ∈ fields, f.Fits version N) (hcount : fields.length ≤ refIntMax)
    (hcase : p = 1 ∨ fields = [] ∨ N = 0)
    (harray : ∀ r, r < p → fields.length * (t r).max ≤ refIntMax) (minusOne : D)
    (mem : Nat → SnapMemory D) : SnapRead p version N minusOne fields mem t := by
  obtain ⟨fin, hrun, hplaced⟩ := snapFields_run ht hp minusOne
    (fun _ => snapFile version N fields) fields []
    (fun r => ⟨-1, if r = 0 then 16 else 0, (mem r).scalar⟩)
    (fun hne => hcase.imp id fun h => h.resolve_left hne) hfits (at_snapFields version N fields)
    (fun _ _ _ => by norm_num) fun _ _ _ _ _ _ _ _ hi => absurd hi (Nat.not_lt_zero _)
  simp only [List.nil_append] at hrun hplaced
  have hwhole : Runs p (fun r => partScalarSnap p minusOne (snapFile version N fields) (mem r) (t r))
      fun r => ((fields.length : Int), (fin r).scalar) := by
    refine (partScalarSnap_runs_iff ht hp hversion hcount).mpr (Runs.congr (hrun.bind
      (f := fun _ state => .ret ((fields.length : Int), state.scalar)) (.ret fun _ _ => rfl)) ?_)
    intro r hr
    exact partSnapFields_eq (harray r hr) minusOne _ _ _
  refine hwhole.yields fun res hres r hr => ?_
  rw [hres r hr]
  refine ⟨rfl, fun node g hlive hg f hf => ?_⟩
  have hlt : g < N := by
    have := ht.bound r hr _ ⟨node, hlive, rfl⟩
    omega
  exact hplaced r hr node g hlive hg hlt f hf

/-- What a file that has been read was. -/
theorem SnapRead.serial (ht : NodesNumbered p t N) (hp : 0 < p)
    (hversion : version = 2 ∨ version = 3) (hfits : ∀ f ∈ fields, f.Fits version N)
    (hcount : fields.length ≤ refIntMax) {minusOne : D} {mem : Nat → SnapMemory D}
    (h : SnapRead p version N minusOne fields mem t) :
    (p = 1 ∨ fields = [] ∨ N = 0) ∧ ∀ r, r < p → fields.length * (t r).max ≤ refIntMax := by
  obtain ⟨⟨res, hres⟩, -⟩ := h
  have hsteps := (partScalarSnap_runs_iff ht hp hversion hcount).mp hres
  have harray := fun r (hr : r < p) => hsteps.ensures hr partSnapFields_ensures
  refine ⟨?_, harray⟩
  by_contra hcase
  push Not at hcase
  obtain ⟨hp1, hne, hN0⟩ := hcase
  obtain ⟨f, rest, rfl⟩ := List.exists_cons_of_ne_nil hne
  have hloop := hsteps.congr fun r hr =>
    (partSnapFields_eq (harray r hr) minusOne _ (mem r).scalar (if r = 0 then 16 else 0)).symm
  have hat : At (snapFile version N (f :: rest)) 16 (f.bytes version N) := by
    have hall := at_snapFields version N (f :: rest)
    rw [List.flatMap_cons] at hall
    exact hall.left
  have hfields := hloop.congr fun r _ => (Prog.bind_assoc
    (snapField p (t r) version (f :: rest).length minusOne (snapFile version N (f :: rest)) 0
      ⟨-1, if r = 0 then 16 else 0, (mem r).scalar⟩)
    (snapFields p (t r) version (f :: rest).length minusOne (snapFile version N (f :: rest))
      rest.length 1)
    fun state => .ret (((f :: rest).length : Int), state.scalar)).symm
  refine not_runs_snapField ht (by omega) (by omega) (hfits f List.mem_cons_self)
    (fun _ => snapFile version N (f :: rest))
    (fun r => ⟨-1, if r = 0 then 16 else 0, (mem r).scalar⟩) hat (by norm_num) ?_ hfields
  intro state
  exact snapFields_no_entries (by omega) (by rw [ht.rank 1 (by omega)]; omega) _ _ _ _

/-- **A `.snap` file is read on a single rank only**, unless it has no fields or
no entries. -/
theorem snap_read_iff (ht : NodesNumbered p t N) (hp : 0 < p) (hversion : version = 2 ∨ version = 3)
    (hfits : ∀ f ∈ fields, f.Fits version N) (hcount : fields.length ≤ refIntMax) (minusOne : D)
    (mem : Nat → SnapMemory D) :
    SnapRead p version N minusOne fields mem t ↔
      (p = 1 ∨ fields = [] ∨ N = 0) ∧ ∀ r, r < p → fields.length * (t r).max ≤ refIntMax := by
  constructor
  · exact fun h => h.serial ht hp hversion hfits hcount
  · exact fun h => snap_reads ht hp hversion hfits hcount h.1 h.2 minusOne mem

end Read

/-! ## Two nodes -/

/-- A field with the entries 0 and 1. -/
def twoEntries : SnapField (BitVec 64) := ⟨[], [], fun g => BitVec.ofNat 64 g⟩

theorem twoEntries_fits : ∀ f ∈ [twoEntries], f.Fits 2 2 := by
  intro f hf
  rw [List.mem_singleton.mp hf]
  exact ⟨by decide, fun _ h => absurd h List.not_mem_nil, by decide, by decide⟩

/-- Both nodes on a single rank. -/
theorem snap_read_iff_serial :
    SnapRead 1 2 2 0 [twoEntries] (fun _ => ⟨0, 0, fun _ => 0⟩)
      (denseStore 2 (fun _ => 0) fun _ _ => 0) :=
  (snap_read_iff (denseStore_numbered (by decide) (fun _ _ => Nat.one_pos) _) Nat.one_pos
    (.inl rfl) twoEntries_fits (by decide) 0 _).mpr
      ⟨.inl rfl, fun _ _ => show 1 * 2 ≤ refIntMax by decide⟩

/-- Both nodes on each of two ranks. -/
theorem snap_hangs_on_two_ranks :
    ¬ SnapRead 2 2 2 0 [twoEntries] (fun _ => ⟨0, 0, fun _ => 0⟩) twoNodes := by
  intro h
  have hserial := (h.serial twoNodes_numbered (by decide) (.inl rfl) twoEntries_fits (by decide)).1
  simp at hserial

end RefineMesh
