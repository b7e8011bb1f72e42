import Mathlib.Tactic
import RefineMesh.ArrayLoops
import RefineMesh.Status

/-!
# The interpolation follows a renumbering

`ref_interp_pack` gathers the donor cell, part and barycentric coordinates of
each node from its old slot.  The arrays of the interpolation have `max` entries
(`bary` four times as many), and every access to them is checked here.
-/

namespace RefineMesh

variable {D β : Type}

/-- What `ref_interp_pack` reads and writes of `REF_INTERP_STRUCT`; `agents` is
`ref_agents_n`. -/
structure RefInterp (D : Type) where
  max : Nat
  agents : Nat
  agentHired : Nat → Bool
  cell : Nat → Int
  part : Nat → Int
  bary : Nat → D
  baryFits : 4 * max ≤ refIntMax

/-- `array[node] = copy[n2o[node]]` for the first `n` nodes, over arrays of
length `len`. -/
def gatherNodes (len n : Nat) (copy : Nat → β) (n2o : Nat → Nat) (array : Nat → β) :
    Except Status (Nat → β) :=
  (List.range n).foldlM (fun array node => do
    writeAt len array node (← readAt len copy (n2o node))) array

/-- `array[node] = REF_EMPTY` from `n` to `max`. -/
def emptyFrom (n max : Nat) (array : Nat → Int) : Nat → Int :=
  fun node => if n ≤ node ∧ node < max then refEmpty else array node

namespace RefInterp

/-- `ref_interp_resize`; `mem` is what the new entries of `bary` hold. -/
def resize (t : RefInterp D) (max : Nat) (mem : Nat → D) : Except Status (RefInterp D) :=
  if h : 4 * max ≤ refIntMax then
    .ok { t with
      max := max
      agentHired := fun node => if t.max ≤ node ∧ node < max then false else t.agentHired node
      cell := emptyFrom t.max max t.cell
      part := emptyFrom t.max max t.part
      bary := fun k => if k < 4 * t.max then t.bary k else mem k
      baryFits := h }
  else .error .undefined

/-- The step of `ref_interp_pack` that should make room for `n` nodes. -/
def matchNodeMax (t : RefInterp D) (n : Nat) (mem : Nat → D) : Except Status (RefInterp D) :=
  if t.max < n then t.resize t.max mem else .ok t

/-- The loop over `bary`. -/
def gatherBary (max n : Nat) (copy : Nat → D) (n2o : Nat → Nat) (bary : Nat → D) :
    Except Status (Nat → D) :=
  (List.range n).foldlM (fun bary node =>
    (List.range 4).foldlM (fun bary i => do
      writeAt (4 * max) bary (i + 4 * node) (← readAt (4 * max) copy (i + 4 * n2o node))) bary)
    bary

/-- `ref_interp_pack`, with the number of valid nodes of the to-grid. -/
def pack (t : RefInterp D) (n : Nat) (n2o : Nat → Nat) (mem : Nat → D) :
    Except Status (RefInterp D) := do
  let max := t.max
  let t ← t.matchNodeMax n mem
  if t.agents ≠ 0 then .error .failure
  else if (List.range max).any fun node => t.agentHired node then .error .failure
  else do
    let cell ← gatherNodes max n t.cell n2o t.cell
    let part ← gatherNodes max n t.part n2o t.part
    let bary ← gatherBary max n t.bary n2o t.bary
    .ok { t with cell := emptyFrom n max cell, part := emptyFrom n max part, bary := bary }

/-- No agent is active, and no node has one hired. -/
def Idle (t : RefInterp D) : Prop :=
  t.agents = 0 ∧ ∀ node, node < t.max → t.agentHired node = false

/-- The entries of node `i` of `t'` are those of the old slot `n2o i` of `t`. -/
structure Follows (t : RefInterp D) (n : Nat) (n2o : Nat → Nat) (t' : RefInterp D) : Prop where
  room : n ≤ t'.max
  kept : ∀ i, i < n → n2o i < t.max → t'.cell i = t.cell (n2o i) ∧ t'.part i = t.part (n2o i) ∧
    ∀ k, k < 4 → t'.bary (k + 4 * i) = t.bary (k + 4 * n2o i)
  fresh : ∀ i, i < n → t.max ≤ n2o i → t'.cell i = refEmpty ∧ t'.part i = refEmpty
  empty : ∀ i, n ≤ i → i < t'.max → t'.cell i = refEmpty ∧ t'.part i = refEmpty

/-! ## The gathering loops -/

/-- A gathering loop succeeds exactly when all its places are in the arrays. -/
theorem gatherNodes_eq_ok {len n : Nat} {copy array array' : Nat → β} {n2o : Nat → Nat} :
    gatherNodes len n copy n2o array = .ok array' ↔
      (∀ i, i < n → n2o i < len ∧ i < len) ∧
        array' = fun i => if i < n then copy (n2o i) else array i := by
  induction n generalizing array' with
  | zero => simp [gatherNodes, pure, Except.pure, eq_comm]
  | succ n ih =>
      have hlast : gatherNodes len (n + 1) copy n2o array =
          (gatherNodes len n copy n2o array >>= fun array => do
            writeAt len array n (← readAt len copy (n2o n))) := by
        rw [gatherNodes, List.range_succ, List.foldlM_append]
        simp [gatherNodes]
      rw [hlast, bind_eq_ok]
      constructor
      · intro h
        obtain ⟨before, hrun, hstep⟩ := h
        obtain ⟨hplaces, rfl⟩ := ih.mp hrun
        obtain ⟨x, hread, hwrite⟩ := bind_eq_ok.mp hstep
        simp only [readAt, writeAt] at hread hwrite
        split at hread
        · split at hwrite
          · rename_i hold hnew
            obtain rfl := Except.ok.inj hread
            obtain rfl := Except.ok.inj hwrite
            constructor
            · intro i hi
              rcases Nat.lt_succ_iff_lt_or_eq.mp hi with hlt | rfl
              · exact hplaces i hlt
              · exact ⟨hold, hnew⟩
            · funext i
              rw [Function.update_apply]
              grind
          · cases hwrite
        · cases hread
      · intro h
        obtain ⟨hplaces, rfl⟩ := h
        refine ⟨_, ih.mpr ⟨fun i hi => hplaces i (by omega), rfl⟩, ?_⟩
        obtain ⟨hold, hnew⟩ := hplaces n (Nat.lt_succ_self n)
        rw [readAt_ok copy hold]
        simp only [bind, Except.bind]
        rw [writeAt_ok _ _ hnew]
        congr 1
        funext i
        rw [Function.update_apply]
        grind

/-- The loop over `bary` is one gathering loop over four entries for a node. -/
theorem gatherBary_eq (max n : Nat) (copy : Nat → D) (n2o : Nat → Nat) (bary : Nat → D) :
    gatherBary max n copy n2o bary =
      gatherNodes (4 * max) (4 * n) copy (fun k => k % 4 + 4 * n2o (k / 4)) bary := by
  induction n with
  | zero => rfl
  | succ n ih =>
      have hrange : List.range (4 * (n + 1)) =
          List.range (4 * n) ++ [4 * n, 4 * n + 1, 4 * n + 2, 4 * n + 3] := by
        rw [show 4 * (n + 1) = 4 * n + 4 by omega, List.range_add]
        rfl
      have hplace : ∀ i, i < 4 → (4 * n + i) % 4 + 4 * n2o ((4 * n + i) / 4) =
          i + 4 * n2o n ∧ i + 4 * n = 4 * n + i := by
        intro i hi
        rw [show (4 * n + i) / 4 = n by omega]
        omega
      have hlast : gatherBary max (n + 1) copy n2o bary =
          (gatherBary max n copy n2o bary >>= fun bary => (List.range 4).foldlM (fun bary i => do
            writeAt (4 * max) bary (i + 4 * n) (← readAt (4 * max) copy (i + 4 * n2o n))) bary) := by
        simp only [gatherBary]
        rw [List.range_succ (n := n), List.foldlM_append]
        simp
      rw [hlast, ih]
      simp only [gatherNodes]
      rw [hrange, List.foldlM_append]
      congr 1
      funext array
      have hfour : List.range 4 = [0, 1, 2, 3] := rfl
      have h0 := hplace 0 (by decide)
      rw [Nat.add_zero] at h0
      simp only [hfour, List.foldlM_cons, List.foldlM_nil, h0, hplace 1 (by decide),
        hplace 2 (by decide), hplace 3 (by decide)]

/-! ## Packing -/

section Pack

variable {t t' : RefInterp D} {n : Nat} {n2o : Nat → Nat} {mem : Nat → D}

/-- A call that succeeds has found all its places in the arrays. -/
theorem places_of_pack (hrun : t.pack n n2o mem = .ok t') :
    ∀ i, i < n → n2o i < t.max ∧ i < t.max := by
  simp only [pack] at hrun
  obtain ⟨resized, -, hrun⟩ := bind_eq_ok.mp hrun
  split at hrun
  · cases hrun
  · split at hrun
    · cases hrun
    · obtain ⟨cell, hcell, -⟩ := bind_eq_ok.mp hrun
      exact (gatherNodes_eq_ok.mp hcell).1

/-- With room for the nodes and all old slots in the arrays the call succeeds. -/
theorem pack_ok (hidle : t.Idle) (hroom : n ≤ t.max) (hslots : ∀ i, i < n → n2o i < t.max) :
    t.pack n n2o mem = .ok { t with
      cell := emptyFrom n t.max fun i => if i < n then t.cell (n2o i) else t.cell i
      part := emptyFrom n t.max fun i => if i < n then t.part (n2o i) else t.part i
      bary := fun k => if k < 4 * n then t.bary (k % 4 + 4 * n2o (k / 4)) else t.bary k } := by
  have hplaces : ∀ i, i < n → n2o i < t.max ∧ i < t.max :=
    fun i hi => ⟨hslots i hi, hi.trans_le hroom⟩
  have hbary : ∀ k, k < 4 * n → k % 4 + 4 * n2o (k / 4) < 4 * t.max ∧ k < 4 * t.max := by
    intro k hk
    have hslot := hslots (k / 4) (by omega)
    omega
  have hhired : ¬ ((List.range t.max).any fun node => t.agentHired node) = true := by
    rw [List.any_eq_true]
    intro h
    obtain ⟨node, hnode, hired⟩ := h
    rw [hidle.2 node (List.mem_range.mp hnode)] at hired
    cases hired
  have hcell : gatherNodes t.max n t.cell n2o t.cell =
      .ok fun i => if i < n then t.cell (n2o i) else t.cell i :=
    gatherNodes_eq_ok.mpr ⟨hplaces, rfl⟩
  have hpart : gatherNodes t.max n t.part n2o t.part =
      .ok fun i => if i < n then t.part (n2o i) else t.part i :=
    gatherNodes_eq_ok.mpr ⟨hplaces, rfl⟩
  have hbary' : gatherBary t.max n t.bary n2o t.bary =
      .ok fun k => if k < 4 * n then t.bary (k % 4 + 4 * n2o (k / 4)) else t.bary k := by
    rw [gatherBary_eq]
    exact gatherNodes_eq_ok.mpr ⟨hbary, rfl⟩
  have hmatch : t.matchNodeMax n mem = .ok t := if_neg (not_lt.mpr hroom)
  simp only [pack, hmatch, bind, Except.bind]
  rw [if_neg (not_not.mpr hidle.1), if_neg hhired, hcell]
  simp only
  rw [hpart]
  simp only
  rw [hbary']

/-- **`ref_interp_pack` follows the renumbering** exactly when the arrays have
room for the nodes and all old slots are in them: its growth does not grow. -/
theorem pack_follows_iff (hidle : t.Idle) (mem : Nat → D) :
    (∃ t', t.pack n n2o mem = .ok t' ∧ t.Follows n n2o t') ↔
      n ≤ t.max ∧ ∀ i, i < n → n2o i < t.max := by
  constructor
  · intro h
    obtain ⟨t', hrun, -⟩ := h
    have hplaces := places_of_pack hrun
    refine ⟨?_, fun i hi => (hplaces i hi).1⟩
    by_contra hroom
    exact absurd (hplaces t.max (not_le.mp hroom)).2 (lt_irrefl _)
  · intro h
    obtain ⟨hroom, hslots⟩ := h
    refine ⟨_, pack_ok hidle hroom hslots, hroom, ?_, ?_, ?_⟩
    · intro i hi hslot
      have hin : ¬ (n ≤ i ∧ i < t.max) := by omega
      refine ⟨?_, ?_, ?_⟩
      · simp only [emptyFrom, if_neg hin, if_pos hi]
      · simp only [emptyFrom, if_neg hin, if_pos hi]
      · intro k hk
        have hplace : (k + 4 * i) % 4 + 4 * n2o ((k + 4 * i) / 4) = k + 4 * n2o i := by
          rw [show (k + 4 * i) / 4 = i by omega]
          omega
        simp only [hplace, if_pos (show k + 4 * i < 4 * n by omega)]
    · intro i hi hslot
      exact absurd (hslots i hi) (not_lt.mpr hslot)
    · intro i hi hlt
      have hin : n ≤ i ∧ i < t.max := ⟨hi, hlt⟩
      simp only [emptyFrom, if_pos hin, and_self]

/-- An interpolation with two entries. -/
def twoEntries : RefInterp Int where
  max := 2
  agents := 0
  agentHired := fun _ => false
  cell := fun i => [5, 6].getD i 0
  part := fun _ => 0
  bary := fun k => k
  baryFits := by decide

theorem twoEntries_idle : twoEntries.Idle := ⟨rfl, fun _ _ => rfl⟩

theorem pack_follows_iff_two : ∃ t', twoEntries.pack 2 (fun i => 1 - i) (fun _ => 0) = .ok t' ∧
    twoEntries.Follows 2 (fun i => 1 - i) t' :=
  (pack_follows_iff twoEntries_idle fun _ => 0).mpr ⟨le_rfl, by decide⟩

/-- Three nodes do not fit: the arrays keep their two entries. -/
theorem pack_three_of_two : twoEntries.Idle ∧ Function.Injective (fun i : Nat => i) ∧
    ¬ ∃ t', twoEntries.pack 3 (fun i => i) (fun _ => 0) = .ok t' ∧
      twoEntries.Follows 3 (fun i => i) t' := by
  refine ⟨twoEntries_idle, fun _ _ h => h, ?_⟩
  intro h
  obtain ⟨t', hrun, -⟩ := h
  have hfails : twoEntries.pack 3 (fun i => i) (fun _ => 0) = .error .undefined := rfl
  rw [hfails] at hrun
  cases hrun

end Pack

end RefInterp

end RefineMesh
