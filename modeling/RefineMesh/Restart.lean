import Mathlib.Tactic
import RefineMesh.NodeRowsRuns
import RefineMesh.NodeSyncRuns

/-!
# Restart files

`ref_gather_scalar_rst` writes a `.rst` file and `ref_part_scalar_rst` reads it.
`nvar` is the `variables` of the source.  The file is a header and the fields of two time steps, each with half of the
components of a node.
-/

namespace RefineMesh

open Binary Segments Spmd

variable {D : Type}

/-- The bytes of `COFFERST`. -/
def rstMagic : List UInt8 := [67, 79, 70, 70, 69, 82, 83, 84]

/-- The header written by `ref_gather_scalar_rst`. -/
def rstHeader (dim nvar steps dof : Int) : List UInt8 :=
  intBytes 4 8 ++ (rstMagic ++ (intBytes 4 2 ++ (intBytes 4 dim ++ (intBytes 4 nvar ++
    (intBytes 4 steps ++ (intBytes 4 dof ++ intBytes 4 0))))))

/-- The loop over the time steps of `ref_gather_scalar_rst`.  Its body does not
mention the step. -/
def gatherSteps [RefDblData D] (p : Nat) (s : RefNode D) (ldim nvar : Nat) (scalar : Nat → D)
    (chunk : Int) (mem : Nat → D) : Nat → List UInt8 → RankProg D (List UInt8)
  | 0, file => .ret file
  | todo+1, file =>
      (s.gatherRows p nvar (scalarRow ldim nvar scalar) (emitRow nvar) chunk mem
        s.oldNGlobal.toNat 0 file).bind
        (gatherSteps p s ldim nvar scalar chunk mem todo)

/-- `ref_gather_scalar_rst` after the synchronization. -/
def gatherRstFile [RefDblData D] (p : Nat) (byteLimit : Int) (twod : Bool) (mem : Nat → D)
    (ldim : Nat) (scalar : Nat → D) (s : RefNode D) : RankProg D (List UInt8) :=
  let steps := 2
  let nvar := ldim / steps
  if ldim ≠ nvar * steps then .fail .failure
  else
    let dof := toRefInt s.oldNGlobal
    let file := if s.rank = 0 then rstHeader (if twod then 2 else 3) nvar steps dof else []
    (Prog.lift (gatherChunk p byteLimit s.oldNGlobal nvar)).bind fun chunk =>
      gatherSteps p s ldim nvar scalar chunk mem steps file

/-- `ref_gather_scalar_rst`: the file, which rank 0 has. -/
def gatherScalarRst [RefDblData D] (p : Nat) (byteLimit : Int) (twod : Bool) (syncMem : Nat → Int)
    (mem : Nat → D) (ldim : Nat) (scalar : Nat → D) (s : RefNode D) : RankProg D (List UInt8) :=
  (s.synchronizeGlobals p syncMem).bind (gatherRstFile p byteLimit twod mem ldim scalar)

/-- The header that `ref_part_scalar_rst` reads. -/
structure RstHeader where
  dim : Int
  nvar : Int
  steps : Int
  dof : Int

/-- The reading of the header. -/
def readRstHeader : Reader Status RstHeader := do
  let length ← Reader.int .failure 4
  Reader.require .failure (length = 8)
  let _ ← Reader.take .failure 8
  let version ← Reader.int .failure 4
  Reader.require .failure (version = 2)
  let dim ← Reader.int .failure 4
  Reader.require .failure (2 ≤ dim ∧ dim ≤ 3)
  let nvar ← Reader.int .failure 4
  let steps ← Reader.int .failure 4
  let dof ← Reader.int .failure 4
  let doubles ← Reader.int .failure 4
  Reader.require .failure (doubles = 0)
  pure ⟨dim, nvar, steps, dof⟩

/-- The memory of `ref_part_scalar_rst` that nothing has set. -/
structure RstMemory (D : Type) where
  header : RstHeader
  scalar : Nat → D

/-- The loop over the time steps of `ref_part_scalar_rst`; `data` starts as
`-1.0` in every entry. -/
def partSteps [RefDblData D] (p : Nat) (s : RefNode D) (ldim nvar : Nat) (chunk dof : Int)
    (file : List UInt8) (data : Nat → D) : Nat → Nat → Nat → (Nat → D) → RankProg D (Nat → D)
  | 0, _, _, scalar => .ret scalar
  | todo+1, step, pos, scalar =>
      (scatterRows p s.rank nvar chunk dof (fun rest => min chunk (toRefInt rest))
        (readDbls nvar)
        (assignScalar s nvar fun node i => i + step * nvar + ldim * node) file
        dof.toNat 0 pos data scalar).bind fun sec =>
          partSteps p s ldim nvar chunk dof file data todo (step + 1) sec.1 sec.2

/-- `ref_part_scalar_rst` with the header of rank 0. -/
def partRstSteps [RefDblData D] (p : Nat) (minusOne : D) (file : List UInt8) (scalar : Nat → D)
    (pos : Nat) (s : RefNode D) (nvar steps dof : Int) : RankProg D (Int × (Nat → D)) :=
  if dof < s.oldNGlobal then .fail .failure
  else
    let ldim := nvar * steps
    if ldim ≠ toRefInt ldim then .fail .undefined
    else
      (Prog.lift (refMalloc (ldim * s.max))).bind fun _ =>
        let chunk := scatterChunk p dof
        (Prog.lift (refMalloc (nvar * chunk))).bind fun _ =>
          (partSteps p s ldim.toNat nvar.toNat chunk dof file (fun _ => minusOne) steps.toNat 0
            pos scalar).bind fun scalar => .ret (ldim, scalar)

/-- `ref_part_scalar_rst`: `ldim` and the scalar array. -/
def partScalarRst [RefDblData D] (p : Nat) (minusOne : D) (file : List UInt8) (mem : RstMemory D)
    (s : RefNode D) : RankProg D (Int × (Nat → D)) :=
  (Prog.lift (if s.rank = 0 then readRstHeader file 0 else .ok (mem.header, 0))).bind fun header =>
    (bcastInt p header.1.dim).bind fun _ =>
      (bcastInt p header.1.nvar).bind fun nvar =>
        (bcastInt p header.1.steps).bind fun steps =>
          (bcastInt p header.1.dof).bind fun dof =>
            partRstSteps p minusOne file mem.scalar header.2 s nvar steps dof

/-! ## The header -/

theorem reads_rstHeader {dim nvar steps dof : Int} (hdim : 2 ≤ dim ∧ dim ≤ 3)
    (hnvar : 0 ≤ nvar ∧ nvar ≤ 2147483647) (hsteps : 0 ≤ steps ∧ steps ≤ 2147483647)
    (hdof : -2147483648 ≤ dof ∧ dof ≤ 2147483647) :
    Reads readRstHeader (rstHeader dim nvar steps dof) ⟨dim, nvar, steps, dof⟩ := by
  unfold readRstHeader rstHeader
  apply (reads_refInt (by norm_num) (by norm_num)).bind
  apply (reads_require _ rfl).bind_first
  apply (reads_take _ rstMagic).bind
  apply (reads_refInt (by norm_num) (by norm_num)).bind
  apply (reads_require _ rfl).bind_first
  apply (reads_refInt (by omega) (by omega)).bind
  apply (reads_require _ hdim).bind_first
  apply (reads_refInt (by omega) (by omega)).bind
  apply (reads_refInt (by omega) (by omega)).bind
  apply (reads_refInt hdof.1 hdof.2).bind
  apply (reads_refInt (by norm_num) (by norm_num)).bind_last
  apply (reads_require _ rfl).bind_first
  exact reads_pure _

/-! ## Writing -/

section Write

variable [RefDblData D] {p N nvar : Nat} {s : Nat → RefNode D} {scalar : Nat → Nat → D}
  {byteLimit : Int}

/-- The components of the field at a global, as its owner has them. -/
noncomputable def fieldAt (p : Nat) (s : Nat → RefNode D) (ldim : Nat) (scalar : Nat → Nat → D) :
    Int → Nat → D :=
  ownerEntry p s fun q node c => scalar q (c + ldim * node)

theorem fieldAt_eq (h : Partitioned p s) (scalar : Nat → Nat → D) (ldim : Nat) {q node : Nat} (hq : q < p) (hlive : (s q).Live node)
    (hown : (s q).Owned node) (c : Nat) :
    fieldAt p s ldim scalar ((s q).global node) c = scalar q (c + ldim * node) := by
  rw [fieldAt, ownerEntry_eq h hq hlive hown]

theorem scalarRow_rowsAre (h : Partitioned p s) (scalar : Nat → Nat → D) {ldim : Nat}
    (hindex : ∀ q, q < p → ∀ node, (s q).Live node → (s q).Owned node →
      ldim * node + (nvar - 1) ≤ refIntMax) :
    RowsAre p s nvar (fun r => scalarRow ldim nvar (scalar r)) (fieldAt p s ldim scalar) := by
  intro r hr node hlive hown
  refine ⟨fun im => scalar r (im + ldim * node), ?_, fun im _ => ?_⟩
  · have := hindex r hr node hlive hown
    change scalarRow ldim nvar (scalar r) node = _
    rw [scalarRow, if_neg (by omega)]
  · exact (fieldAt_eq h scalar ldim hr hlive hown im).symm

/-- The bytes of one time step. -/
def stepBytes (N nvar : Nat) (value : Int → Nat → D) : List UInt8 :=
  (List.range' 0 N).flatMap fun g : Nat => emitRow nvar (value g)

theorem gatherSteps_run (h : NodesNumbered p s N) (hp : 0 < p) (scalar : Nat → Nat → D) {ldim : Nat}
    (hindex : ∀ q, q < p → ∀ node, (s q).Live node → (s q).Owned node →
      ldim * node + (nvar - 1) ≤ refIntMax) {chunk : Int} (hchunk : 0 < N → 0 < chunk)
    (mem : Nat → Nat → D) :
    ∀ (todo : Nat) (file : Nat → List UInt8),
      Runs p (fun r => gatherSteps p (s r) ldim nvar (scalar r) chunk (mem r) todo (file r))
        fun r => if r = 0 then
          file r ++ (List.replicate todo (stepBytes N nvar (fieldAt p s ldim scalar))).flatten
        else file r := by
  intro todo
  induction todo with
  | zero =>
      intro file
      refine .ret fun r _ => ?_
      simp [gatherSteps]
  | succ todo ih =>
      intro file
      have hstep := gatherRows_run h hp (scalarRow_rowsAre h.toPartitioned scalar hindex)
        (fun _ _ hv => emitRow_congr hv) mem N 0 file hchunk (by omega) (Nat.zero_le N)
      refine Runs.congr (hstep.bind ((ih _).congr_out ?_)) ?_
      · intro r _
        split
        · rw [List.replicate_succ, List.flatten_cons, ← List.append_assoc]
          rfl
        · rfl
      · intro r hr
        rw [gatherSteps, h.count r hr]
        rfl

/-- The file of `ref_gather_scalar_rst`: both time steps hold the first half of
the components. -/
noncomputable def rstFile (p : Nat) (s : Nat → RefNode D) (twod : Bool) (N nvar : Nat)
    (scalar : Nat → Nat → D) : List UInt8 :=
  rstHeader (if twod then 2 else 3) nvar 2 (toRefInt N) ++
    (List.replicate 2 (stepBytes N nvar (fieldAt p s (nvar * 2) scalar))).flatten

theorem gatherRstFile_run (h : NodesNumbered p s N) (hp : 0 < p) (scalar : Nat → Nat → D) {chunk : Int}
    (hchunk : gatherChunk p byteLimit N nvar = .ok chunk) (hpos : 0 < N → 0 < chunk)
    (hindex : ∀ q, q < p → ∀ node, (s q).Live node → (s q).Owned node →
      nvar * 2 * node + (nvar - 1) ≤ refIntMax) (twod : Bool) (mem : Nat → Nat → D) :
    Runs p (fun r => gatherRstFile p byteLimit twod (mem r) (nvar * 2) (scalar r) (s r))
      fun r => if r = 0 then rstFile p s twod N nvar scalar else [] := by
  have hsteps := gatherSteps_run h hp scalar hindex hpos mem 2 fun r =>
    if r = 0 then rstHeader (if twod then 2 else 3) nvar 2 (toRefInt N) else []
  refine Runs.congr (hsteps.congr_out ?_) ?_
  · intro r _
    split <;> rfl
  · intro r hr
    rw [gatherRstFile, Nat.mul_div_cancel _ (by norm_num), if_neg (not_not.mpr rfl), h.count r hr,
      h.rank r hr, hchunk]
    rfl

/-- What one rank checks while it writes. -/
theorem gatherRstFile_ensures {u : RefNode D} {field mem : Nat → D} {twod : Bool} :
    (gatherRstFile p byteLimit twod mem (nvar * 2) field u).Ensures fun _ =>
      ∃ chunk, gatherChunk p byteLimit u.oldNGlobal nvar = .ok chunk ∧
        (0 < u.oldNGlobal → 0 < chunk) ∧
        ∀ g, 0 ≤ g → g < u.oldNGlobal →
          ∃ v, u.localRow nvar (scalarRow (nvar * 2) nvar field) g = .ok v := by
  rw [gatherRstFile, Nat.mul_div_cancel _ (by norm_num), if_neg (not_not.mpr rfl)]
  refine Prog.Ensures.bind (Prog.ensures_lift fun chunk hchunk => hchunk) ?_
  intro chunk hchunk
  refine (gatherRows_ensures _ _ _).bind fun file hfile => ?_
  exact (Prog.ensures_true _).imp fun _ _ => ⟨chunk, hchunk, hfile⟩

end Write

/-! ## Reading -/

theorem scatterChunk_of_fits {p N : Nat} (hN : N ≤ refIntMax) :
    scatterChunk p N = min (max 100000 ((N : Int).tdiv p)) N := by
  have hdiv : 0 ≤ (N : Int).tdiv p ∧ (N : Int).tdiv p ≤ N := by
    rw [← Int.ofNat_tdiv]
    exact ⟨Int.natCast_nonneg _, by exact_mod_cast Nat.div_le_self N p⟩
  unfold refIntMax at hN
  unfold scatterChunk
  rw [toRefInt_of_fits (x := max 100000 ((N : Int).tdiv p)) (by omega) (by omega),
    toRefInt_of_fits (by omega) (by omega)]

section Read

variable [RefDblData D] {p N nvar : Nat} {t : Nat → RefNode D} {value : Int → Nat → D}

/-- The components of the steps below `step` are in place. -/
def Placed (t : RefNode D) (N ldim nvar step : Nat) (value : Int → Nat → D) (scalar : Nat → D) :
    Prop :=
  ∀ node (g : Nat), t.Live node → t.global node = g → g < N → ∀ st, st < step → ∀ i, i < nvar →
    scalar (i + st * nvar + ldim * node) = value g i

theorem step_place_inj {nvar steps st st' i i' node node' : Nat} (hst : st < steps)
    (hst' : st' < steps) (hi : i < nvar) (hi' : i' < nvar)
    (h : i + st * nvar + nvar * steps * node = i' + st' * nvar + nvar * steps * node') :
    node = node' ∧ st = st' ∧ i = i' := by
  have hlt : ∀ j k, j < nvar → k < steps → j + k * nvar < nvar * steps := by
    intro j k hj hk
    calc j + k * nvar < nvar * (k + 1) := by rw [Nat.mul_succ, Nat.mul_comm k]; omega
      _ ≤ nvar * steps := Nat.mul_le_mul_left _ hk
  obtain ⟨rfl, hrow⟩ := record_place_inj (hlt i st hi hst) (hlt i' st' hi' hst') h
  rw [Nat.mul_comm st, Nat.mul_comm st'] at hrow
  obtain ⟨rfl, rfl⟩ := record_place_inj hi hi' hrow
  exact ⟨rfl, rfl, rfl⟩

theorem partSteps_run (ht : NodesNumbered p t N) (hp : 0 < p) (hN : N ≤ refIntMax) {steps : Nat}
    (file : Nat → List UInt8) (data : Nat → D) :
    ∀ (todo step : Nat) (pos : Nat → Nat) (scalar : Nat → Nat → D), step + todo = steps →
      At (file 0) (pos 0) (List.replicate todo (stepBytes N nvar value)).flatten →
      (∀ r, r < p → Placed (t r) N (nvar * steps) nvar step value (scalar r)) →
      ∃ fin, Runs p (fun r => partSteps p (t r) (nvar * steps) nvar (scatterChunk p N) N (file r) data
          todo step (pos r) (scalar r)) fin ∧
        ∀ r, r < p → Placed (t r) N (nvar * steps) nvar steps value (fin r) := by
  intro todo
  induction todo with
  | zero =>
      intro step pos scalar hsteps _ hplaced
      obtain rfl : step = steps := by omega
      exact ⟨scalar, .ret fun r _ => rfl, hplaced⟩
  | succ todo ih =>
      intro step pos scalar hsteps hat hplaced
      rw [List.replicate_succ, List.flatten_cons] at hat
      have hall := fun r (hr : r < p) => assignScalar_all (ht.inv r hr)
        (fun node i => i + step * nvar + nvar * steps * node)
        (fun g i => ((List.range nvar).map (value g)).getD i RefDbl.zero)
        (fun node node' i i' hi hi' h => by
          obtain ⟨hnode, -, hi⟩ := step_place_inj (by omega) (by omega) hi hi' h
          exact ⟨hnode, hi⟩) N (scalar r)
      have : Nonempty D := ⟨RefDbl.zero⟩
      choose! mid hmid hrows hother using hall
      have hchunk := scatterChunk_of_fits (p := p) hN
      have hpos : 0 < N → 0 < scatterChunk p N := by
        intro h
        rw [hchunk]
        omega
      have hsize : ∀ rest : Int, 0 < rest → rest ≤ N →
          min (scatterChunk p N) (toRefInt rest) = min (scatterChunk p N) rest := by
        intro rest h0 hle
        unfold refIntMax at hN
        rw [toRefInt_of_fits (by omega) (by omega)]
      have hscatter := scatterRows_run hp (fun r _ => assignScalar_looksAt (t r) nvar
          fun node i => i + step * nvar + nvar * steps * node)
        (fun g _ => reads_readDbls nvar (value g)) hpos
        (fun rest => min (scatterChunk p N) (toRefInt rest)) hsize file N 0 pos (fun _ => data) scalar mid
        (by omega) (Nat.zero_le N) hat.left hmid
      obtain ⟨fin, hrun, hfin⟩ := ih (step + 1) (fun r => if r = 0 then
          pos 0 + ((List.range' 0 (N - 0)).flatMap fun g : Nat => emitRow nvar (value g)).length
          else pos r) mid (by omega) (by simpa [stepBytes] using hat.right) (by
        intro r hr node g hlive hg hlt st hst i hi
        by_cases hcur : st = step
        · subst hcur
          rw [hrows r hr node g hlive hg hlt i hi, getD_map_range _ _ hi]
        · rw [hother r hr _ fun node' i' hlive' hi' heq => hcur
            (step_place_inj (by omega) (by omega) hi' hi heq).2.1.symm]
          exact hplaced r hr node g hlive hg hlt st (by omega) i hi)
      refine ⟨fin, Runs.congr (hscatter.bind (f := fun r sec => partSteps p (t r) (nvar * steps) nvar
        (scatterChunk p N) N (file r) data todo (step + 1) sec.1 sec.2) hrun) ?_, hfin⟩
      intro r hr
      rw [partSteps, ht.rank r hr]
      rfl

/-- The header is the same on all ranks after the broadcasts. -/
theorem partScalarRst_runs_iff (ht : NodesNumbered p t N) (hp : 0 < p) (file : Nat → List UInt8)
    {dim dof : Int} {rest : List UInt8} (hdim : 2 ≤ dim ∧ dim ≤ 3) (hnvar : nvar ≤ refIntMax)
    (hdof : -2147483648 ≤ dof ∧ dof ≤ 2147483647)
    (hfile : file 0 = rstHeader dim nvar 2 dof ++ rest) {minusOne : D} {mem : Nat → RstMemory D}
    {res : Nat → Int × (Nat → D)} :
    Runs p (fun r => partScalarRst p minusOne (file r) (mem r) (t r)) res ↔
      Runs p (fun r => partRstSteps p minusOne (file r) (mem r).scalar
        (if r = 0 then (rstHeader dim nvar 2 dof).length else 0) (t r) nvar 2 dof) res := by
  have hread : readRstHeader (file 0) 0 =
      .ok (⟨dim, nvar, 2, dof⟩, (rstHeader dim nvar 2 dof).length) := by
    unfold refIntMax at hnvar
    have hat : At (file 0) 0 (rstHeader dim nvar 2 dof) := by
      have hwhole := at_whole (file 0)
      nth_rewrite 2 [hfile] at hwhole
      exact hwhole.left
    rw [reads_rstHeader hdim (by omega) (by norm_num) hdof _ _ hat, Nat.zero_add]
  let header : Nat → RstHeader := fun r => if r = 0 then ⟨dim, nvar, 2, dof⟩ else (mem r).header
  have hcall : ∀ r, r < p → partScalarRst p minusOne (file r) (mem r) (t r) =
      (bcastInt p (header r).dim).bind fun _ => (bcastInt p (header r).nvar).bind fun nvar =>
        (bcastInt p (header r).steps).bind fun steps => (bcastInt p (header r).dof).bind fun dof' =>
          partRstSteps p minusOne (file r) (mem r).scalar
            (if r = 0 then (rstHeader dim nvar 2 dof).length else 0) (t r) nvar steps dof' := by
    intro r hr
    unfold partScalarRst
    rw [ht.rank r hr]
    by_cases hr0 : r = 0
    · subst hr0
      simp only [if_true, hread, header]
      rfl
    · simp only [if_neg hr0, header]
      rfl
  have hcongr : Runs p (fun r => partScalarRst p minusOne (file r) (mem r) (t r)) res ↔ _ :=
    ⟨fun h => h.congr fun r hr => (hcall r hr).symm, fun h => h.congr hcall⟩
  rw [hcongr, Runs.bind_iff hp (bcastInt_run hp _), Runs.bind_iff hp (bcastInt_run hp _),
    Runs.bind_iff hp (bcastInt_run hp _), Runs.bind_iff hp (bcastInt_run hp _)]
  rfl

theorem partRstSteps_run (ht : NodesNumbered p t N) (hp : 0 < p) (hN : N ≤ refIntMax)
    (hldim : nvar * 2 ≤ refIntMax) (harrays : ∀ r, r < p → nvar * 2 * (t r).max ≤ refIntMax)
    (hbuffer : nvar * scatterChunk p N ≤ refIntMax) (file : Nat → List UInt8) (pos : Nat → Nat)
    (hat : At (file 0) (pos 0) (List.replicate 2 (stepBytes N nvar value)).flatten) (minusOne : D)
    (scalar : Nat → Nat → D) :
    ∃ fin : Nat → Nat → D, Runs p (fun r => partRstSteps p minusOne (file r) (scalar r) (pos r) (t r) nvar 2 N)
        (fun r => ((nvar * 2 : Nat), fin r)) ∧
      ∀ r, r < p → Placed (t r) N (nvar * 2) nvar 2 value (fin r) := by
  obtain ⟨fin, hrun, hfin⟩ := partSteps_run ht hp hN file (fun _ => minusOne) 2 0 pos
    scalar rfl hat fun _ _ _ _ _ _ _ st hst => absurd hst (Nat.not_lt_zero st)
  refine ⟨fin, Runs.congr (hrun.bind (f := fun r scalar => .ret (((nvar * 2 : Nat) : Int), scalar))
    (.ret fun _ _ => rfl)) ?_, hfin⟩
  intro r hr
  have hchunk : 0 ≤ scatterChunk p N := by
    rw [scatterChunk_of_fits hN]
    omega
  have hmax := harrays r hr
  unfold refIntMax at hldim
  unfold partRstSteps
  rw [ht.count r hr, if_neg (lt_irrefl _)]
  simp only
  rw [toRefInt_of_fits (by omega) (by omega), if_neg (not_not.mpr rfl),
    refMalloc_eq_ok.mpr ⟨by positivity, by exact_mod_cast hmax⟩,
    refMalloc_eq_ok.mpr ⟨by positivity, hbuffer⟩]
  have htoNat : ((nvar : Int) * 2).toNat = nvar * 2 := by omega
  rw [htoNat]
  push_cast
  rfl

/-- What one rank checks while it reads. -/
theorem partRstSteps_ensures {u : RefNode D} {minusOne : D} {file : List UInt8} {scalar : Nat → D}
    {pos : Nat} {dof : Int} :
    (partRstSteps p minusOne file scalar pos u nvar 2 dof).Ensures fun _ =>
      u.oldNGlobal ≤ dof ∧ ((nvar : Int) * 2) * u.max ≤ refIntMax ∧
        nvar * scatterChunk p dof ≤ refIntMax := by
  unfold partRstSteps
  by_cases hdof : dof < u.oldNGlobal
  · rw [if_pos hdof]
    exact True.intro
  · rw [if_neg hdof]
    simp only
    by_cases hfits : (nvar : Int) * 2 ≠ toRefInt (nvar * 2)
    · rw [if_pos hfits]
      exact True.intro
    · rw [if_neg hfits]
      have hmalloc : ∀ n, (Prog.lift (refMalloc n) : RankProg D Unit).Ensures fun _ =>
          n ≤ refIntMax := fun n => Prog.ensures_lift fun _ h => (refMalloc_eq_ok.mp h).2
      refine (hmalloc _).bind fun _ harrays => ?_
      refine (hmalloc _).bind fun _ hbuffer => ?_
      exact (Prog.ensures_true _).imp fun _ _ => ⟨by omega, harrays, hbuffer⟩

end Read

/-! ## The round trip -/

section RoundTrip

variable [RefDblData D]

/-- The sizes that fit the `REF_INT` of their variables. -/
structure RstFits (p p' N nvar : Nat) (byteLimit : Int) (s t : Nat → RefNode D) : Prop where
  nodes : N ≤ refIntMax
  chunk : ∃ chunk, gatherChunk p byteLimit N nvar = .ok chunk ∧ (0 < N → 0 < chunk)
  index : ∀ q, q < p → ∀ node, (s q).Live node → (s q).Owned node →
    nvar * 2 * node + (nvar - 1) ≤ refIntMax
  arrays : ∀ r, r < p' → nvar * 2 * (t r).max ≤ refIntMax
  buffer : nvar * scatterChunk p' N ≤ refIntMax

/-- The call of `ref_gather_scalar_rst` on `p` ranks succeeds, and so does
`ref_part_scalar_rst` on `p'` ranks with the file, and gives every node that a
rank holds the components of its owner. -/
def RstRoundTrip (p p' : Nat) (byteLimit : Int) (twod : Bool) (minusOne : D)
    (syncMem : Nat → Nat → Int) (mem : Nat → Nat → D) (memPart : Nat → RstMemory D) (ldim : Nat)
    (scalar : Nat → Nat → D) (before s t : Nat → RefNode D) : Prop :=
  Yields p (fun r => gatherScalarRst p byteLimit twod (syncMem r) (mem r) ldim (scalar r) (before r))
    fun out => Yields p' (fun r => partScalarRst p' minusOne (out 0) (memPart r) (t r)) fun res =>
      ∀ r, r < p' → (res r).1 = ldim ∧ ∀ node, (t r).Live node → ∀ q, q < p → ∀ node',
        (s q).Live node' → (s q).Owned node' → (s q).global node' = (t r).global node →
          ∀ c, c < ldim → (res r).2 (c + ldim * node) = scalar q (c + ldim * node')

variable {p p' N nvar : Nat} {byteLimit : Int} {s t : Nat → RefNode D} {scalar : Nat → Nat → D}

omit [RefDblData D] in
/-- Every component that is read is one of the first half. -/
theorem Placed.component {u : RefNode D} {value : Int → Nat → D} {field : Nat → D}
    (h : Placed u N (nvar * 2) nvar 2 value field) {node g : Nat} (hlive : u.Live node)
    (hg : u.global node = g) (hlt : g < N) {i : Nat} (hi : i < nvar) :
    field (i + nvar * 2 * node) = value g i ∧ field (i + nvar + nvar * 2 * node) = value g i := by
  have hfirst := h node g hlive hg hlt 0 (by norm_num) i hi
  have hsecond := h node g hlive hg hlt 1 (by norm_num) i hi
  rw [Nat.zero_mul, Nat.add_zero] at hfirst
  rw [Nat.one_mul] at hsecond
  exact ⟨hfirst, hsecond⟩

/-- The reading of a file that `ref_gather_scalar_rst` has written. -/
theorem rst_read (scalar : Nat → Nat → D) (ht : NodesNumbered p' t N) (hp' : 0 < p') (hfits : RstFits p p' N nvar byteLimit s t)
    (hldim : nvar * 2 ≤ refIntMax) (twod : Bool) (minusOne : D) (memPart : Nat → RstMemory D) :
    ∃ fin : Nat → Nat → D,
      Runs p' (fun r => partScalarRst p' minusOne (rstFile p s twod N nvar scalar) (memPart r) (t r))
        (fun r => ((nvar * 2 : Nat), fin r)) ∧
      ∀ r, r < p' → Placed (t r) N (nvar * 2) nvar 2 (fieldAt p s (nvar * 2) scalar) (fin r) := by
  have hN : toRefInt N = N := by
    have := hfits.nodes
    unfold refIntMax at this
    exact toRefInt_of_fits (by omega) (by omega)
  have hat : At (rstFile p s twod N nvar scalar) (rstHeader (if twod then 2 else 3) nvar 2 N).length
      (List.replicate 2 (stepBytes N nvar (fieldAt p s (nvar * 2) scalar))).flatten := by
    have hwhole := at_whole (rstFile p s twod N nvar scalar)
    nth_rewrite 2 [rstFile] at hwhole
    have hright := hwhole.right
    rwa [hN, Nat.zero_add] at hright
  obtain ⟨fin, hrun, hfin⟩ := partRstSteps_run ht hp' hfits.nodes hldim hfits.arrays hfits.buffer
    (fun _ => rstFile p s twod N nvar scalar)
    (fun r => if r = 0 then (rstHeader (if twod then 2 else 3) nvar 2 N).length else 0)
    hat minusOne fun r => (memPart r).scalar
  have hdim : (2 : Int) ≤ (if twod then 2 else 3) ∧ (if twod then 2 else 3 : Int) ≤ 3 := by
    split <;> norm_num
  refine ⟨fin, (partScalarRst_runs_iff ht hp' _ hdim (by omega) (by
    rw [← hN]
    exact toRefInt_bounds _) (by rw [rstFile, hN])).mpr hrun, hfin⟩

/-- What a successful round trip has checked. -/
theorem RstFits.of_round_trip (hp : 0 < p) (hp' : 0 < p') (hs : NodesNumbered p s N)
    (ht : NodesNumbered p' t N) (hldim : nvar * 2 ≤ refIntMax) {twod : Bool} {minusOne : D}
    {mem : Nat → Nat → D} {memPart : Nat → RstMemory D} {out : Nat → List UInt8}
    (hwrite : Runs p (fun r => gatherRstFile p byteLimit twod (mem r) (nvar * 2) (scalar r) (s r)) out)
    {res : Nat → Int × (Nat → D)}
    (hread : Runs p' (fun r => partScalarRst p' minusOne (out 0) (memPart r) (t r)) res) :
    RstFits p p' N nvar byteLimit s t ∧ out 0 = rstFile p s twod N nvar scalar := by
  have hchecks := fun r (hr : r < p) => hwrite.ensures hr gatherRstFile_ensures
  obtain ⟨chunk, hchunk, hpos, -⟩ := hchecks 0 hp
  rw [hs.count 0 hp] at hchunk hpos
  have hindex : ∀ q, q < p → ∀ node, (s q).Live node → (s q).Owned node →
      nvar * 2 * node + (nvar - 1) ≤ refIntMax := by
    intro q hq node hlive hown
    obtain ⟨-, -, -, hrows⟩ := hchecks q hq
    obtain ⟨v, hv⟩ := hrows _ hlive.2 (by rw [hs.count q hq]; exact hs.bound q hq _ ⟨node, hlive, rfl⟩)
    have hlocal := ((hs.inv q hq).nodeLocal_eq_ok_iff _ node).mpr ⟨hlive, rfl⟩
    simp only [RefNode.localRow, hlocal, if_pos hown, scalarRow] at hv
    by_contra hbig
    rw [if_pos (by omega)] at hv
    cases hv
  have hpos' : 0 < N → 0 < chunk := fun h => hpos (by exact_mod_cast h)
  have hfile := hwrite.unique (gatherRstFile_run hs hp scalar hchunk hpos' hindex twod mem) 0 hp
  rw [if_pos rfl] at hfile
  have hdim : (2 : Int) ≤ (if twod then 2 else 3) ∧ (if twod then 2 else 3 : Int) ≤ 3 := by
    split <;> norm_num
  have hsteps := (partScalarRst_runs_iff ht hp' (fun _ => out 0) hdim (by omega)
    (toRefInt_bounds N) hfile).mp hread
  have hchecks' := fun r (hr : r < p') => hsteps.ensures hr partRstSteps_ensures
  have hN : N ≤ refIntMax := by
    have hcount := (hchecks' 0 hp').1
    rw [ht.count 0 hp'] at hcount
    have := (toRefInt_bounds N).2
    unfold refIntMax
    omega
  refine ⟨⟨hN, ⟨chunk, hchunk, hpos'⟩, hindex, fun r hr => ?_, ?_⟩, hfile⟩
  · exact_mod_cast (hchecks' r hr).2.1
  · have hbuffer := (hchecks' 0 hp').2.2
    unfold refIntMax at hN
    rwa [toRefInt_of_fits (by omega) (by omega)] at hbuffer

variable {before : Nat → RefNode D}

/-- After a round trip the second half of the components repeats the first. -/
theorem RstRoundTrip.repeats (hp : 0 < p) (hp' : 0 < p') {syncMem : Nat → Nat → Int}
    (hsync : Runs p (fun r => (before r).synchronizeGlobals p (syncMem r)) s)
    (hs : NodesNumbered p s N) (ht : NodesNumbered p' t N) (hldim : nvar * 2 ≤ refIntMax)
    {twod : Bool} {minusOne : D} {mem : Nat → Nat → D} {memPart : Nat → RstMemory D}
    (h : RstRoundTrip p p' byteLimit twod minusOne syncMem mem memPart (nvar * 2) scalar before s t) :
    RstFits p p' N nvar byteLimit s t ∧
      ∀ q, q < p → ∀ node, (s q).Live node → (s q).Owned node → ∀ i, i < nvar →
        scalar q (i + nvar + nvar * 2 * node) = scalar q (i + nvar * 2 * node) := by
  obtain ⟨⟨out, hrun⟩, hall⟩ := h
  obtain ⟨⟨res, hres⟩, hgood⟩ := hall out hrun
  have hwrite := (Runs.bind_iff hp hsync).mp hrun
  obtain ⟨hfits, hfile⟩ := RstFits.of_round_trip hp hp' hs ht hldim hwrite hres
  refine ⟨hfits, fun q hq node hlive hown i hi => ?_⟩
  obtain ⟨fin, hread, hfin⟩ := rst_read scalar ht hp' hfits hldim twod minusOne memPart
  rw [← hfile] at hread
  -- some rank of the reader holds the node
  obtain ⟨g, hg⟩ := Int.eq_ofNat_of_zero_le hlive.2
  have hlt : g < N := by
    have := hs.bound q hq _ ⟨node, hlive, rfl⟩
    omega
  obtain ⟨r, hr, node', hlive', hg', -⟩ := ht.owned g hlt
  obtain ⟨hfirst, hsecond⟩ := (hfin r hr).component hlive' hg' hlt hi
  have hkept : ∀ c, c < nvar * 2 →
      fin r (c + nvar * 2 * node') = scalar q (c + nvar * 2 * node) :=
    (hgood _ hread r hr).2 node' hlive' q hq node hlive hown (by rw [hg', hg])
  rw [← hkept (i + nvar) (by omega), hsecond, ← hfirst, hkept i (by omega)]

/-- A field whose second half repeats the first comes back. -/
theorem rst_returns (hp : 0 < p) (hp' : 0 < p') {syncMem : Nat → Nat → Int}
    (hsync : Runs p (fun r => (before r).synchronizeGlobals p (syncMem r)) s)
    (hs : NodesNumbered p s N) (ht : NodesNumbered p' t N) (hldim : nvar * 2 ≤ refIntMax)
    (twod : Bool) (minusOne : D) (mem : Nat → Nat → D) (memPart : Nat → RstMemory D)
    (hfits : RstFits p p' N nvar byteLimit s t)
    (hrepeat : ∀ q, q < p → ∀ node, (s q).Live node → (s q).Owned node → ∀ i, i < nvar →
      scalar q (i + nvar + nvar * 2 * node) = scalar q (i + nvar * 2 * node)) :
    RstRoundTrip p p' byteLimit twod minusOne syncMem mem memPart (nvar * 2) scalar before s t := by
  obtain ⟨chunk, hchunk, hpos⟩ := hfits.chunk
  have hwrite := gatherRstFile_run hs hp scalar hchunk hpos hfits.index twod mem
  refine (hsync.bind hwrite).yields fun out hout => ?_
  rw [hout 0 hp, if_pos rfl]
  obtain ⟨fin, hread, hfin⟩ := rst_read scalar ht hp' hfits hldim twod minusOne memPart
  refine hread.yields fun res hres r hr => ?_
  rw [hres r hr]
  refine ⟨rfl, fun node hlive q hq node' hlive' hown' hsame c hc => ?_⟩
  change fin r (c + nvar * 2 * node) = _
  obtain ⟨g, hg⟩ := Int.eq_ofNat_of_zero_le hlive.2
  have hlt : g < N := by
    have := ht.bound r hr _ ⟨node, hlive, rfl⟩
    omega
  have hfield := fieldAt_eq hs.toPartitioned scalar (nvar * 2) hq hlive' hown'
  rw [hsame, hg] at hfield
  by_cases hhalf : c < nvar
  · rw [((hfin r hr).component hlive hg hlt hhalf).1]
    exact hfield c
  · obtain ⟨i, rfl⟩ : ∃ i, c = i + nvar := ⟨c - nvar, by omega⟩
    have hi : i < nvar := by omega
    rw [((hfin r hr).component hlive hg hlt hi).2, hrepeat q hq node' hlive' hown' i hi]
    exact hfield i

/-- **Restart files come back exactly when the second time step repeats the
first.** -/
theorem rst_round_trip (hp : 0 < p) (hp' : 0 < p') (syncMem : Nat → Nat → Int)
    (hsync : Runs p (fun r => (before r).synchronizeGlobals p (syncMem r)) s)
    (hs : NodesNumbered p s N) (ht : NodesNumbered p' t N) (hldim : nvar * 2 ≤ refIntMax)
    (twod : Bool) (minusOne : D) (mem : Nat → Nat → D) (memPart : Nat → RstMemory D) :
    RstRoundTrip p p' byteLimit twod minusOne syncMem mem memPart (nvar * 2) scalar before s t ↔
      RstFits p p' N nvar byteLimit s t ∧
        ∀ q, q < p → ∀ node, (s q).Live node → (s q).Owned node → ∀ i, i < nvar →
          scalar q (i + nvar + nvar * 2 * node) = scalar q (i + nvar * 2 * node) := by
  constructor
  · exact fun h => h.repeats hp hp' hsync hs ht hldim
  · exact fun h => rst_returns hp hp' hsync hs ht hldim twod minusOne mem memPart h.1 h.2

end RoundTrip

/-! ## Two ranks with one node each -/

/-- Two ranks that hold both nodes and own one each. -/
def twoNodes (r : Nat) : RefNode (BitVec 64) := denseStore 2 id (fun _ _ => 0) r

theorem twoNodes_numbered : NodesNumbered 2 twoNodes 2 :=
  denseStore_numbered (by decide) (fun _ hk => hk) _

theorem twoNodes_synchronized :
    Runs 2 (fun r => (twoNodes r).synchronizeGlobals 2 fun _ => 0) twoNodes :=
  synchronizeGlobals_nothing twoNodes_numbered.inv (fun _ _ => rfl) (fun _ _ => rfl)
    (fun _ _ => rfl) fun _ _ => 0

theorem twoNodes_fits : RstFits 2 2 2 1 1000000 twoNodes twoNodes where
  nodes := by decide
  chunk := ⟨2, by
    rw [gatherChunk, toRefInt_of_fits (by norm_num) (by norm_num)]
    decide, fun _ => by norm_num⟩
  index := by
    intro q _ node hlive _
    have := denseStore_live.mp hlive
    unfold refIntMax
    omega
  arrays := fun _ _ => show 1 * 2 * 2 ≤ refIntMax by decide
  buffer := by
    have := scatterChunk_of_fits (p := 2) (show 2 ≤ refIntMax by decide)
    unfold refIntMax
    omega

/-- A field that is the same in both time steps comes back on both ranks. -/
theorem rst_round_trip_two_ranks :
    RstRoundTrip 2 2 1000000 false 0 (fun _ _ => 0) (fun _ _ => 0)
      (fun _ => ⟨⟨0, 0, 0, 0⟩, fun _ => 0⟩) (1 * 2) (fun _ i => BitVec.ofNat 64 (i / 2)) twoNodes
      twoNodes twoNodes :=
  (rst_round_trip (by decide) (by decide) (fun _ _ => 0) twoNodes_synchronized
    twoNodes_numbered twoNodes_numbered (by decide) false 0 (fun _ _ => 0)
    fun _ => ⟨⟨0, 0, 0, 0⟩, fun _ => 0⟩).mpr ⟨twoNodes_fits, by
      intro q _ node hlive _ i hi
      have hnode := denseStore_live.mp hlive
      congr 1
      omega⟩

/-- The components 0 and 1 of each node: the second time step is lost. -/
theorem rst_loses_second_step :
    ¬ RstRoundTrip 2 2 1000000 false 0 (fun _ _ => 0) (fun _ _ => 0)
      (fun _ => ⟨⟨0, 0, 0, 0⟩, fun _ => 0⟩) (1 * 2) (fun _ i => BitVec.ofNat 64 i) twoNodes twoNodes
      twoNodes := by
  intro h
  have hrepeat := (h.repeats (by decide) (by decide) twoNodes_synchronized twoNodes_numbered
    twoNodes_numbered (by decide)).2 0 (by decide) 0 (denseStore_live.mpr (by decide)) rfl 0
    (by decide)
  exact absurd hrepeat (by decide)

end RefineMesh
