import Mathlib.Tactic
import RefineMesh.Binary
import RefineMesh.NodeRows

/-!
# Keyword records

A `.meshb` or `.solb` file is a chain of records.  Each has a keyword and the
position of the next one; a position of 0 ends the chain.  The reader first
walks the chain for the place of each keyword and then jumps to the records it
wants.
-/

namespace RefineMesh

open Binary

/-! ## Positions and counts -/

/-- `ref_export_meshb_next_position`. -/
def meshbNextPosition (version nextPosition : Int) : Except Status (List UInt8) :=
  if 3 ≤ version then .ok (intBytes 8 nextPosition)
  else if nextPosition < -2147483647 ∨ 2147483647 < nextPosition then .error .invalid
  else .ok (intBytes 4 nextPosition)

/-- `ref_gather_meshb_glob`. -/
def gatherMeshbGlob (version value : Int) : List UInt8 :=
  if version < 4 then intBytes 4 value else intBytes 8 value

/-- `meshb_pos`. -/
def meshbPos (version : Int) : Reader Status Int :=
  if 3 ≤ version then Reader.int .failure 8 else Reader.int .failure 4

/-- `ref_part_meshb_long`. -/
def partMeshbLong (version : Int) : Reader Status Int :=
  if version < 4 then Reader.int .failure 4 else Reader.int .failure 8

/-! ## The chain -/

/-- The keyword at a record and the position of the next one. -/
def readKeyword (version : Int) : Reader Status (Int × Int) := do
  let keywordCode ← Reader.int .failure 4
  let nextPosition ← meshbPos version
  pure (keywordCode, nextPosition)

/-- `REF_IMPORT_MESHB_LAST_KEYWORD`. -/
def meshbLastKeyword : Int := 156

/-- The loop of `ref_import_meshb_header`.  The next position depends on the
position alone, so a chain longer than the file does not end. -/
def scanKeywords (version : Int) (file : List UInt8) :
    Nat → Int → (Int → Int) → Except Status (Int → Int)
  | 0, _, _ => .error .undefined
  | fuel+1, nextPosition, keyPos =>
      if nextPosition ≤ file.length ∧ 0 ≠ nextPosition then
        let position := nextPosition
        if position < 0 then .error .failure
        else do
          let ((keywordCode, nextPosition), _) ← readKeyword version file position.toNat
          scanKeywords version file fuel nextPosition
            (if 0 ≤ keywordCode ∧ keywordCode < meshbLastKeyword then
              Function.update keyPos keywordCode position else keyPos)
      else .ok keyPos

/-- The code and the version in front of the records. -/
def readMeshbVersion : Reader Status Int := do
  let code ← Reader.int .failure 4
  Reader.require .failure (code = 1)
  let version ← Reader.int .failure 4
  Reader.require .failure (1 ≤ version ∧ version ≤ 4)
  pure version

/-- `ref_import_meshb_header`: the version and the place of each keyword. -/
def importMeshbHeader (file : List UInt8) : Except Status (Int × (Int → Int)) := do
  let (version, position) ← readMeshbVersion file 0
  let keyPos ← scanKeywords version file (file.length + 1) position fun _ => refEmpty
  .ok (version, keyPos)

/-- `ref_import_meshb_jump`: the next position and the place behind it, if the
keyword is there. -/
def importMeshbJump (file : List UInt8) (version : Int) (keyPos : Int → Int) (keyword : Int) :
    Except Status (Option (Int × Nat)) :=
  let position := keyPos keyword
  if position = refEmpty then .ok none
  else if position < 0 then .error .failure
  else do
    let ((keywordCode, nextPosition), pos) ← readKeyword version file position.toNat
    if keyword ≠ keywordCode then .error .failure else .ok (some (nextPosition, pos))

/-! ## The format -/

/-- The size of a position. -/
def fpSize (version : Int) : Nat := if 2 < version then 8 else 4

/-- The size of a count. -/
def intSize (version : Int) : Nat := if 3 < version then 8 else 4

/-- The bytes of a position. -/
def posBytes (version x : Int) : List UInt8 := intBytes (fpSize version) x

/-- A keyword with what follows its position. -/
structure MeshbRecord where
  keyword : Int
  body : List UInt8

namespace MeshbRecord

/-- The number of bytes of a record. -/
def size (version : Int) (record : MeshbRecord) : Nat := 4 + fpSize version + record.body.length

/-- The bytes of a record at `pos`. -/
def bytes (version : Int) (pos : Nat) (record : MeshbRecord) : List UInt8 :=
  intBytes 4 record.keyword ++ (posBytes version (pos + record.size version : Nat) ++ record.body)

end MeshbRecord

variable {version : Int}

@[simp] theorem length_posBytes (version x : Int) : (posBytes version x).length = fpSize version :=
  length_intBytes _ _

theorem MeshbRecord.length_bytes (record : MeshbRecord) (pos : Nat) :
    (record.bytes version pos).length = record.size version := by
  simp only [bytes, size, List.length_append, length_intBytes, length_posBytes]
  ring

/-- The loop and the header with any number of keywords. -/
def importMeshbHeaderLoop (fuel : Nat) (file : List UInt8) :
    Except Status (Int × (Int → Int)) := do
  let (version, position) ← readMeshbVersion file 0
  let keyPos ← scanKeywords version file fuel position fun _ => refEmpty
  .ok (version, keyPos)

theorem importMeshbHeader_eq_loop (file : List UInt8) :
    importMeshbHeader file = importMeshbHeaderLoop (file.length + 1) file := rfl

/-- The header of the file returns, with success or an error. -/
def HeaderReturns (file : List UInt8) : Prop :=
  ∃ fuel, importMeshbHeaderLoop fuel file ≠ .error .undefined

/-- The next position that is stored at a position of the file. -/
def storedNext (version : Int) (file : List UInt8) (position : Int) : Option Int :=
  if 0 < position ∧ position ≤ file.length then
    match readKeyword version file position.toNat with
    | .ok ((_, nextPosition), _) => some nextPosition
    | .error _ => none
  else none

/-- The position after some records. -/
def chainPosition (version : Int) (file : List UInt8) : Nat → Int → Option Int
  | 0, position => some position
  | n+1, position => (storedNext version file position).bind (chainPosition version file n)

/-- A record points at a position. -/
def PointsTo (version : Int) (file : List UInt8) (position nextPosition : Int) : Prop :=
  storedNext version file position = some nextPosition

/-- The records in front of a position lead to one that leads back to itself. -/
def ChainComesBack (version : Int) (file : List UInt8) (position : Int) : Prop :=
  ∃ q, Relation.ReflTransGen (PointsTo version file) position q ∧
    Relation.TransGen (PointsTo version file) q q

/-- A reader whose only error is `e`. -/
def FailsWith {α : Type} (m : Reader Status α) (e : Status) : Prop :=
  ∀ file pos e', m file pos = .error e' → e' = e

theorem FailsWith.bind {α β : Type} {m : Reader Status α} {f : α → Reader Status β} {e : Status}
    (hm : FailsWith m e) (hf : ∀ a, FailsWith (f a) e) : FailsWith (m >>= f) e := by
  intro file pos e' h
  simp only [Bind.bind] at h
  cases hread : m file pos with
  | error e'' =>
      rw [hread] at h
      cases h
      exact hm file pos e' hread
  | ok result =>
      obtain ⟨a, pos'⟩ := result
      rw [hread] at h
      exact hf a file pos' e' h

theorem failsWith_pure {α : Type} (a : α) (e : Status) : FailsWith (pure a) e := by
  intro file pos e' h
  cases h

theorem failsWith_int (e : Status) (w : Nat) : FailsWith (Reader.int e w) e := by
  unfold Reader.int
  apply FailsWith.bind _ fun bytes => failsWith_pure _ e
  intro file pos e' h
  unfold Reader.take at h
  split at h
  · cases h
  · cases h
    rfl

theorem failsWith_require (e : Status) (P : Prop) [Decidable P] :
    FailsWith (Reader.require e P) e := by
  intro file pos e' h
  unfold Reader.require Reader.lift at h
  by_cases hP : P
  · simp [hP] at h
  · simpa [hP] using h.symm

theorem failsWith_readKeyword (version : Int) : FailsWith (readKeyword version) .failure := by
  apply (failsWith_int .failure 4).bind
  intro keywordCode
  refine FailsWith.bind ?_ fun _ => failsWith_pure _ _
  unfold meshbPos
  split
  · exact failsWith_int _ _
  · exact failsWith_int _ _

theorem failsWith_readMeshbVersion : FailsWith readMeshbVersion .failure :=
  (failsWith_int _ _).bind fun _ => (failsWith_require _ _).bind fun _ =>
    (failsWith_int _ _).bind fun _ => (failsWith_require _ _).bind fun _ =>
      failsWith_pure _ _

/-- The loop runs on as long as the chain does. -/
theorem scanKeywords_undefined_iff (file : List UInt8) (fuel : Nat) (position : Int)
    (keyPos : Int → Int) :
    scanKeywords version file fuel position keyPos = .error .undefined ↔
      (chainPosition version file fuel position).isSome := by
  induction fuel generalizing position keyPos with
  | zero => simp [scanKeywords, chainPosition]
  | succ fuel ih =>
      rw [scanKeywords, chainPosition, storedNext]
      by_cases hin : position ≤ file.length ∧ 0 ≠ position
      · rw [if_pos hin]
        by_cases hneg : position < 0
        · simp only [hneg, if_true]
          rw [if_neg (by omega)]
          simp
        · simp only [hneg, if_false]
          rw [if_pos (by omega)]
          cases hread : readKeyword version file position.toNat with
          | error e =>
              have he := failsWith_readKeyword _ _ _ _ hread
              simp [bind, Except.bind, he]
          | ok result =>
              obtain ⟨⟨keywordCode, nextPosition⟩, pos⟩ := result
              simp only [bind, Except.bind, Option.bind_some]
              exact ih _ _
      · rw [if_neg hin, if_neg (by omega)]
        simp

/-- A chain that comes back never ends. -/
theorem ChainComesBack.chainPosition {file : List UInt8} {position : Int}
    (h : ChainComesBack version file position) (n : Nat) :
    (chainPosition version file n position).isSome := by
  induction n generalizing position with
  | zero => rfl
  | succ n ih =>
      obtain ⟨q, hto, hback⟩ := h
      -- the next record also leads to the position that comes back
      have hnext : ∃ r, PointsTo version file position r ∧
          Relation.ReflTransGen (PointsTo version file) r q := by
        rcases Relation.ReflTransGen.cases_head hto with heq | hhead
        · rw [heq]
          exact Relation.TransGen.head'_iff.mp hback
        · exact hhead
      obtain ⟨r, hstep, hrest⟩ := hnext
      rw [RefineMesh.chainPosition, show storedNext version file position = some r from hstep]
      exact ih ⟨q, hrest, hback⟩

theorem chainPosition_add (file : List UInt8) (m n : Nat) (position : Int) :
    chainPosition version file (m + n) position =
      (chainPosition version file m position).bind (chainPosition version file n) := by
  induction m generalizing position with
  | zero => rw [Nat.zero_add]; rfl
  | succ m ih =>
      rw [Nat.add_right_comm, chainPosition, chainPosition, Option.bind_assoc]
      exact Option.bind_congr fun r _ => ih r

theorem chainPosition_leads {file : List UInt8} {n : Nat} {position r : Int}
    (h : chainPosition version file n position = some r) :
    Relation.ReflTransGen (PointsTo version file) position r := by
  induction n generalizing position with
  | zero =>
      cases h
      exact .refl
  | succ n ih =>
      rw [chainPosition, Option.bind_eq_some_iff] at h
      obtain ⟨s, hs, hr⟩ := h
      exact .head hs (ih hr)

/-- **A chain longer than the file comes back.** -/
theorem chainComesBack_of_long {file : List UInt8} {position : Int}
    (h : (chainPosition version file (file.length + 1) position).isSome) :
    ChainComesBack version file position := by
  have hplace (i : Nat) (hi : i ≤ file.length) :
      ∃ r, chainPosition version file i position = some r ∧
        (chainPosition version file (file.length + 1 - i) r).isSome := by
    have hsplit := @chainPosition_add version file i (file.length + 1 - i) position
    rw [show i + (file.length + 1 - i) = file.length + 1 by omega] at hsplit
    rw [hsplit] at h
    cases hr : chainPosition version file i position with
    | none =>
        rw [hr] at h
        cases h
    | some r =>
        rw [hr] at h
        exact ⟨r, rfl, h⟩
  have hinside (i : Nat) (hi : i ≤ file.length) {r : Int}
      (hr : chainPosition version file i position = some r) :
      r ∈ Finset.Icc 1 (file.length : Int) := by
    obtain ⟨s, hs, hlong⟩ := hplace i hi
    obtain rfl : s = r := Option.some.inj (hs.symm.trans hr)
    rw [show file.length + 1 - i = (file.length - i) + 1 by omega, chainPosition] at hlong
    by_contra hout
    have hnone : storedNext version file s = none := by
      rw [storedNext, if_neg]
      rw [Finset.mem_Icc] at hout
      omega
    rw [hnone] at hlong
    cases hlong
  -- more records than positions
  have hcard : (Finset.Icc 1 (file.length : Int)).card < (Finset.range (file.length + 1)).card := by
    rw [Int.card_Icc, Finset.card_range]
    omega
  have hmaps : ∀ i ∈ Finset.range (file.length + 1),
      (chainPosition version file i position).getD 0 ∈ Finset.Icc 1 (file.length : Int) := by
    intro i hi
    have hi' : i ≤ file.length := by
      rw [Finset.mem_range] at hi
      omega
    obtain ⟨r, hr, -⟩ := hplace i hi'
    rw [hr]
    exact hinside i hi' hr
  obtain ⟨i, hi, j, hj, hne, heq⟩ := Finset.exists_ne_map_eq_of_card_lt_of_maps_to hcard hmaps
  rw [Finset.mem_range] at hi hj
  wlog hlt : i < j generalizing i j
  · exact this j hj i hi hne.symm heq.symm (by omega)
  obtain ⟨r, hr, -⟩ := hplace i (by omega)
  obtain ⟨s, hs, -⟩ := hplace j (by omega)
  rw [hr, hs] at heq
  obtain rfl : r = s := heq
  have hloop : chainPosition version file (j - i) r = some r := by
    have hsplit := @chainPosition_add version file i (j - i) position
    rw [show i + (j - i) = j by omega, hr, hs] at hsplit
    exact hsplit.symm
  refine ⟨r, chainPosition_leads hr, ?_⟩
  rw [show j - i = (j - i - 1) + 1 by omega, chainPosition, Option.bind_eq_some_iff] at hloop
  obtain ⟨t, ht, hrest⟩ := hloop
  exact Relation.TransGen.head' ht (chainPosition_leads hrest)

/-- The records behind the version lead to one that leads back to itself. -/
def FileComesBack (file : List UInt8) : Prop :=
  ∃ version position, readMeshbVersion file 0 = .ok (version, position) ∧
    ChainComesBack version file position

theorem importMeshbHeaderLoop_undefined_iff (fuel : Nat) (file : List UInt8) :
    importMeshbHeaderLoop fuel file = .error .undefined ↔
      ∃ version position, readMeshbVersion file 0 = .ok (version, position) ∧
        (chainPosition version file fuel position).isSome := by
  unfold importMeshbHeaderLoop
  cases hread : readMeshbVersion file 0 with
  | error e =>
      have he := failsWith_readMeshbVersion _ _ _ hread
      simp [bind, Except.bind, he]
  | ok result =>
      obtain ⟨version, position⟩ := result
      have hscan := @scanKeywords_undefined_iff version file fuel position fun _ => refEmpty
      simp only [bind, Except.bind]
      cases hkeys : scanKeywords version file fuel position fun _ => refEmpty with
      | error e =>
          rw [hkeys] at hscan
          simp only [Except.error.injEq, Except.ok.injEq, Prod.mk.injEq] at hscan ⊢
          rw [hscan]
          constructor
          · intro h
            exact ⟨version, position, ⟨rfl, rfl⟩, h⟩
          · intro h
            obtain ⟨_, _, ⟨rfl, rfl⟩, h⟩ := h
            exact h
      | ok keyPos =>
          rw [hkeys] at hscan
          constructor
          · intro h
            cases h
          · intro h
            obtain ⟨version', position', heq, h⟩ := h
            cases heq
            cases hscan.mpr h

/-- The loop either ends within as many keywords as the file has bytes or never. -/
theorem headerReturns_iff_importMeshbHeader (file : List UInt8) :
    HeaderReturns file ↔ importMeshbHeader file ≠ .error .undefined := by
  constructor
  · intro h hloop
    obtain ⟨fuel, hfuel⟩ := h
    rw [importMeshbHeader_eq_loop, importMeshbHeaderLoop_undefined_iff] at hloop
    obtain ⟨version, position, hread, hlong⟩ := hloop
    exact hfuel ((importMeshbHeaderLoop_undefined_iff fuel file).mpr
      ⟨version, position, hread, (chainComesBack_of_long hlong).chainPosition fuel⟩)
  · intro h
    exact ⟨file.length + 1, h⟩

/-- **When the header returns.**  The loop ends exactly if the stored positions
behind the version never come back to a record. -/
theorem headerReturns_iff (file : List UInt8) : HeaderReturns file ↔ ¬ FileComesBack file := by
  rw [headerReturns_iff_importMeshbHeader, importMeshbHeader_eq_loop, ne_eq,
    importMeshbHeaderLoop_undefined_iff, not_iff_not]
  constructor
  · intro h
    obtain ⟨version, position, hread, hlong⟩ := h
    exact ⟨version, position, hread, chainComesBack_of_long hlong⟩
  · intro h
    obtain ⟨version, position, hread, hback⟩ := h
    exact ⟨version, position, hread, hback.chainPosition _⟩

/-- Version 2, and at byte 8 a keyword with 8 for the next position. -/
def selfPointingFile : List UInt8 := [1, 0, 0, 0, 2, 0, 0, 0, 54, 0, 0, 0, 8, 0, 0, 0]

/-- The header of a file whose record points at itself does not return. -/
theorem selfPointingFile_loops : ¬ HeaderReturns selfPointingFile := by
  have hself : PointsTo 2 selfPointingFile 8 8 := by
    unfold PointsTo
    decide +kernel
  have hread : readMeshbVersion selfPointingFile 0 = .ok (2, 8) := by decide +kernel
  exact fun h => (headerReturns_iff selfPointingFile).mp h ⟨2, 8, hread, 8, .refl, .single hself⟩

end RefineMesh
