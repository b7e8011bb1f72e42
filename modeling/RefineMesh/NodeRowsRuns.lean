import Mathlib.Tactic
import RefineMesh.NodeRows

/-!
# What the loops over node data leave

`gatherRows_run`: the file gets the row of every global, in order, each from the
owner of the node.  `scatterRows_run`: every rank has met every row of the file,
in order.
-/

namespace RefineMesh

open Binary Segments Spmd

variable {D : Type}

/-- Rank `q` owns the node of global `g`. -/
def Owner (p : Nat) (s : Nat → RefNode D) (g : Int) (q : Nat) : Prop :=
  q < p ∧ ∃ node, (s q).Live node ∧ (s q).global node = g ∧ (s q).part node = q

/-- Stores whose globals are the numbers below `N`, each with one owner. -/
structure NodesNumbered (p : Nat) (s : Nat → RefNode D) (N : Nat) : Prop extends Partitioned p s where
  count : ∀ r, r < p → (s r).oldNGlobal = N
  bound : ∀ r, r < p → ∀ g, (s r).Holds g → g < N
  owned : ∀ g : Nat, g < N → ∃ q, Owner p s g q

theorem Owner.unique {p N : Nat} {s : Nat → RefNode D} {g : Int} {q q' : Nat}
    (hq : Owner p s g q) (h : NodesNumbered p s N) (hq' : Owner p s g q') : q = q' := by
  obtain ⟨hqp, node, hlive, hg, hpart⟩ := hq
  obtain ⟨hqp', node', hlive', hg', hpart'⟩ := hq'
  rw [← hpart, ← hpart']
  exact h.parts q q' hqp hqp' node node' hlive hlive' (hg.trans hg'.symm)

theorem getD_map_range {width : Nat} (v : Nat → D) (d : D) {i : Nat} (hi : i < width) :
    ((List.range width).map v).getD i d = v i := by
  simp [List.getD_eq_getElem?_getD, hi]

section Gather

variable [RefDblData D] {p N width : Nat} {s : Nat → RefNode D}
  {row : Nat → Nat → Except Status (Nat → D)} {value : Int → Nat → D}

/-- The rows of the owned nodes, as the ranks have them, are `value`. -/
def RowsAre (p : Nat) (s : Nat → RefNode D) (width : Nat)
    (row : Nat → Nat → Except Status (Nat → D)) (value : Int → Nat → D) : Prop :=
  ∀ r, r < p → ∀ node, (s r).Live node → (s r).Owned node →
    ∃ v, row r node = .ok v ∧ ∀ im, im < width → v im = value ((s r).global node) im

theorem emitRow_congr {v v' : Nat → D} (h : ∀ im, im < width → v im = v' im) :
    emitRow width v = emitRow width v' := by
  apply List.flatMap_congr
  intro im him
  rw [h im (List.mem_range.mp him)]

theorem length_emitRow (width : Nat) (v : Nat → D) : (emitRow width v).length = 8 * width := by
  simp [emitRow, RefDblData.length_bytes, Nat.mul_comm]

theorem reads_readDbls (width : Nat) (v : Nat → D) :
    Reads (readDbls width) (emitRow width v)
      fun i => ((List.range width).map v).getD i RefDbl.zero := by
  have hmany := reads_many (m := readDbl) (List.range width) fun im _ => reads_readDbl (v im)
  rw [List.length_range] at hmany
  exact hmany.bind_last (reads_pure _)

open Classical in
/-- The entries of the node of a global on the rank that owns it. -/
noncomputable def ownerEntry (p : Nat) (s : Nat → RefNode D) (entry : Nat → Nat → Nat → D) (g : Int)
    (c : Nat) : D :=
  if h : ∃ q node, q < p ∧ (s q).Live node ∧ (s q).Owned node ∧ (s q).global node = g then
    entry h.choose h.choose_spec.choose c
  else RefDbl.zero

theorem ownerEntry_eq (h : Partitioned p s) {entry : Nat → Nat → Nat → D} {q node : Nat} (hq : q < p)
    (hlive : (s q).Live node) (hown : (s q).Owned node) :
    ownerEntry p s entry ((s q).global node) = entry q node := by
  have hex : ∃ q' node', q' < p ∧ (s q').Live node' ∧ (s q').Owned node' ∧
      (s q').global node' = (s q).global node := ⟨q, node, hq, hlive, hown, rfl⟩
  funext c
  rw [ownerEntry, dif_pos hex]
  obtain ⟨hq', hlive', hown', hg⟩ := hex.choose_spec.choose_spec
  have hparts := h.parts _ q hq' hq _ node hlive' hlive hg
  have hrank : hex.choose = q := by
    rw [← h.rank _ hq', hown', hparts, ← hown, h.rank q hq]
  generalize hex.choose_spec.choose = node' at *
  generalize hex.choose = q' at *
  subst hrank
  rw [(h.inv _ hq).distinct node' node hlive' hlive hg]

/-- A row with its flag. -/
def flagged (width : Nat) (v : Nat → D) (im : Nat) : D :=
  if im < width then v im else RefDbl.one

theorem NodesNumbered.localRow_eq (h : NodesNumbered p s N) (hrow : RowsAre p s width row value) {r q : Nat}
    (hr : r < p) {g : Int} (hq : Owner p s g q) :
    ∃ v, (s r).localRow width (row r) g = .ok v ∧
      ∀ im, v im = if r = q then flagged width (value g) im else RefDbl.zero := by
  obtain ⟨hqp, node, hlive, rfl, hpart⟩ := hq
  by_cases hrq : r = q
  · subst hrq
    have hlocal := ((h.inv r hr).nodeLocal_eq_ok_iff _ node).mpr ⟨hlive, rfl⟩
    have hown : (s r).Owned node := (h.rank r hr).trans hpart.symm
    obtain ⟨v, hv, hval⟩ := hrow r hr node hlive hown
    refine ⟨flagged width v, ?_, fun im => ?_⟩
    · simp only [RefNode.localRow, hlocal, if_pos hown, hv]
      rfl
    · rw [if_pos rfl]
      unfold flagged
      split
      · rename_i him
        exact hval im him
      · rfl
  · refine ⟨fun _ => RefDbl.zero, ?_, fun im => by rw [if_neg hrq]⟩
    rcases (h.inv r hr).nodeLocal_spec ((s q).global node) with
      ⟨node', hlocal, hlive', hg⟩ | ⟨hlocal, -⟩
    · have hparts := h.parts r q hr hqp node' node hlive' hlive hg
      have hown : ¬ (s r).Owned node' := by
        intro hown
        exact hrq (by rw [← h.rank r hr, hown, hparts, hpart])
      simp only [RefNode.localRow, hlocal, if_neg hown]
    · simp only [RefNode.localRow, hlocal]

/-- The chunk of rank `r`: rows of zeros but for the nodes it owns. -/
theorem NodesNumbered.localRows_eq (h : NodesNumbered p s N) (hrow : RowsAre p s width row value)
    {r : Nat} (hr : r < p) {first n : Nat} (hn : first + n ≤ N) :
    ∃ buf, (s r).localRows width (row r) first n = .ok buf ∧
      ∀ i, i < n → ∀ im, im < width + 1 → ∀ q, Owner p s (first + i : Nat) q →
        buf (im + (width + 1) * i) =
          if r = q then flagged width (value (first + i : Nat)) im else RefDbl.zero := by
  let P : List Nat → List Nat → (Nat → D) → Prop := fun done rest buf =>
    done ++ rest = List.range n ∧ ∀ i ∈ done, ∀ im, im < width + 1 →
      ∀ q, Owner p s (first + i : Nat) q → buf (im + (width + 1) * i) =
        if r = q then flagged width (value (first + i : Nat)) im else RefDbl.zero
  have hend : ∃ buf, (s r).localRows width (row r) first n = .ok buf ∧
      P (List.range n) [] buf := by
    apply ArrayLoop.foldlM_exists P
    · intro done i rest buf hP
      obtain ⟨hsplit, hdone⟩ := hP
      obtain ⟨rfl, hi⟩ := ArrayLoop.range_split hsplit
      obtain ⟨q, hq⟩ := h.owned (first + done.length) (by omega)
      obtain ⟨v, hv, hval⟩ := h.localRow_eq hrow hr hq
      push_cast at hv
      refine ⟨_, by rw [hv]; rfl, by simpa using hsplit, ?_⟩
      intro i hmem im him q' hq'
      rw [storeRecord_apply _ _ him]
      split
      · rename_i hlast
        subst hlast
        rw [hval, Owner.unique hq h hq']
      · rename_i hne
        have hold : i ∈ done := by
          rcases List.mem_append.mp hmem with hold | hlast
          · exact hold
          · exact absurd (List.mem_singleton.mp hlast) hne
        exact hdone i hold im him q' hq'
    · exact ⟨rfl, fun i hi => absurd hi List.not_mem_nil⟩
  obtain ⟨buf, hbuf, -, hval⟩ := hend
  exact ⟨buf, hbuf, fun i hi => hval i (List.mem_range.mpr hi)⟩

/-- The sums of a chunk on rank 0 are the rows of its globals. -/
theorem NodesNumbered.reduced_eq (h : NodesNumbered p s N) (hp : 0 < p) {first n : Nat}
    (hn : first + n ≤ N) {buf mem : Nat → Nat → D}
    (hbuf : ∀ r, r < p → ∀ i, i < n → ∀ im, im < width + 1 → ∀ q, Owner p s (first + i : Nat) q →
      buf r (im + (width + 1) * i) =
        if r = q then flagged width (value (first + i : Nat)) im else RefDbl.zero)
    {i im : Nat} (hi : i < n) (him : im < width) :
    reduced p RefDblData.add ((width + 1) * n) buf mem 0 (im + (width + 1) * i) =
      value (first + i : Nat) im := by
  have hplace : im + (width + 1) * i < (width + 1) * n := by
    calc im + (width + 1) * i < (width + 1) * (i + 1) := by rw [Nat.mul_succ]; omega
      _ ≤ (width + 1) * n := Nat.mul_le_mul_left _ hi
  obtain ⟨q, hq⟩ := h.owned (first + i) (by omega)
  have hqp : q ≤ p - 1 := by have := hq.1; omega
  have hsum := combined_single RefDblData.add (RefDbl.zero : D) RefDblData.add_zero
    RefDblData.zero_add (x := fun r => buf r (im + (width + 1) * i)) hqp
    fun q' hq' hne => by
      rw [hbuf q' (by omega) i hi im (by omega) q hq, if_neg hne]
  rw [reduced, if_pos ⟨rfl, hplace⟩, hsum, hbuf q hq.1 i hi im (by omega) q hq, if_pos rfl,
    flagged, if_pos him]

/-- **The loop of a writer**: rank 0 writes the row of each global from
`written` on. -/
theorem gatherRows_run (h : NodesNumbered p s N) (hp : 0 < p)
    (hrow : RowsAre p s width row value) {emit : (Nat → D) → List UInt8}
    (hemit : ∀ v v', (∀ im, im < width → v im = v' im) → emit v = emit v') {chunk : Int}
    (mem : Nat → Nat → D) :
    ∀ (fuel written : Nat) (file : Nat → List UInt8), (written < N → 0 < chunk) →
      N - written ≤ fuel → written ≤ N →
      Runs p (fun r => (s r).gatherRows p width (row r) emit chunk (mem r) fuel written (file r))
        fun r => if r = 0 then
          file r ++ (List.range' written (N - written)).flatMap fun g : Nat => emit (value g)
        else file r := by
  intro fuel
  induction fuel with
  | zero =>
      intro written file _ hfuel hle
      obtain rfl : written = N := by omega
      refine .ret fun r hr => ?_
      rw [RefNode.gatherRows, h.count r hr, if_neg (lt_irrefl _)]
      simp
  | succ fuel ih =>
      intro written file hchunk hfuel hle
      have : Nonempty D := ⟨RefDbl.zero⟩
      by_cases hlt : written < N
      · obtain ⟨n, hn⟩ : ∃ n : Nat, (n : Int) = min chunk (N - written) :=
          ⟨(min chunk (N - written)).toNat, Int.toNat_of_nonneg (by have := hchunk hlt; omega)⟩
        have hbounds : 0 < n ∧ written + n ≤ N := by have := hchunk hlt; omega
        have hrows := fun r (hr : r < p) => h.localRows_eq hrow hr hbounds.2
        choose! buf hbuf hval using hrows
        have hcall : ∀ r, r < p →
            (s r).gatherRows p width (row r) emit chunk (mem r) (fuel + 1) written (file r) =
              (mpiSum p .dbl (RefDblData.add (D := D)) ((width + 1) * n) (buf r) (mem r)).bind
                fun xyzm => (s r).gatherRows p width (row r) emit chunk (mem r) fuel
                  (written + n : Nat)
                  (if r = 0 then file r ++ (List.range n).flatMap fun i =>
                    emit fun im => xyzm (im + (width + 1) * i) else file r) := by
          intro r hr
          rw [RefNode.gatherRows, h.count r hr, if_pos (by exact_mod_cast hlt), ← hn,
            Int.toNat_natCast]
          simp only
          rw [hbuf r hr, h.rank r hr]
          push_cast
          rfl
        refine Runs.congr ?_ hcall
        apply Runs.bind (mpiSum_run hp .dbl (RefDblData.add (D := D)) _ buf mem)
        have hrest := ih (written + n) (fun r => if r = 0 then
          file r ++ (List.range n).flatMap fun i => emit fun im =>
            reduced p RefDblData.add ((width + 1) * n) buf mem r (im + (width + 1) * i)
          else file r) (fun h => hchunk (by omega)) (by omega) hbounds.2
        apply hrest.congr_out
        intro r hr
        by_cases hr0 : r = 0
        · subst hr0
          simp only [if_true]
          rw [List.append_assoc]
          congr 1
          have hsplit : N - written = n + (N - (written + n)) := by omega
          rw [hsplit, ← List.range'_append_1, List.flatMap_append, List.range'_eq_map_range,
            List.flatMap_map]
          congr 1
          apply List.flatMap_congr
          intro i hi
          apply hemit
          intro im him
          exact (h.reduced_eq hp hbounds.2 hval (List.mem_range.mp hi) him).symm
        · simp only [if_neg hr0]
      · obtain rfl : written = N := by omega
        refine .ret fun r hr => ?_
        rw [RefNode.gatherRows, h.count r hr, if_neg (lt_irrefl _)]
        simp

/-- What a rank checks on the way: the loop makes progress and every row of the
chunks is there. -/
theorem gatherRows_ensures {t : RefNode D} {rows : Nat → Except Status (Nat → D)}
    {emit : (Nat → D) → List UInt8} {chunk : Int} {mem : Nat → D} :
    ∀ (fuel : Nat) (written : Int) (file : List UInt8),
      (t.gatherRows p width rows emit chunk mem fuel written file).Ensures fun _ =>
        (written < t.oldNGlobal → 0 < chunk) ∧
          ∀ g, written ≤ g → g < t.oldNGlobal → ∃ v, t.localRow width rows g = .ok v := by
  intro fuel
  induction fuel with
  | zero =>
      intro written file
      rw [RefNode.gatherRows]
      split
      · trivial
      · exact ⟨fun h => by omega, fun g hg hlt => by omega⟩
  | succ fuel ih =>
      intro written file
      rw [RefNode.gatherRows]
      split
      · rename_i hlt
        -- a chunk that is not positive leaves `written` where it is
        set n := (min chunk (t.oldNGlobal - written)).toNat with hn
        let Present : (Nat → D) → Prop := fun _ =>
          ∀ i, i < n → ∃ v, t.localRow width rows (written + (i : Nat)) = .ok v
        refine Prog.Ensures.bind (show Prog.Ensures Present _ from ?_) ?_
        · apply Prog.ensures_lift
          intro buf hbuf i hi
          by_contra hnone
          obtain ⟨e, he⟩ := ArrayLoop.foldlM_error (List.mem_range.mpr hi)
            (f := fun localXyzm (i : Nat) => do
              let values ← t.localRow width rows (written + i)
              Except.ok (storeRecord (width + 1) values i localXyzm))
            (fun _ => by
              cases hv : t.localRow width rows (written + i) with
              | ok v => exact absurd ⟨v, hv⟩ hnone
              | error e => exact ⟨e, rfl⟩) fun _ => RefDbl.zero
          exact absurd (hbuf.symm.trans he) nofun
        · intro localXyzm hrows
          refine Prog.Ensures.bind (Prog.ensures_true _) fun xyzm _ => ?_
          refine Prog.Ensures.imp (ih (written + n) _) ?_
          intro out hout
          refine ⟨fun _ => ?_, fun g hg hgN => ?_⟩
          · by_contra hchunk
            have hzero : (n : Int) = 0 := by omega
            exact hchunk (hout.1 (by omega))
          · by_cases hin : g < written + n
            · have := hrows (g - written).toNat (by omega)
              rwa [Int.toNat_of_nonneg (by omega), add_sub_cancel] at this
            · exact hout.2 g (by omega) hgN
      · exact ⟨fun h => by omega, fun g hg hlt => by omega⟩

end Gather

section Scatter

variable {σ : Type} {p N width : Nat} {readRow : Reader Status (Nat → D)}
  {bytes : Nat → List UInt8} {val : Nat → Nat → D}

theorem foldl_storeRecord {rows : List (Nat → D)} {n : Nat} (hn : n = rows.length) (data : Nat → D)
    {node i : Nat} (hnode : node < n) (hi : i < width) :
    (List.range n).foldl (fun data node =>
      storeRecord width (fun i => (rows.getD node data) i) node data) data (i + width * node) =
      rows.getD node data i := by
  subst hn
  let P : List Nat → List Nat → (Nat → D) → Prop := fun done rest buf =>
    done ++ rest = List.range rows.length ∧ ∀ k ∈ done, buf (i + width * k) = rows.getD k data i
  have hend : P (List.range rows.length) [] ((List.range rows.length).foldl (fun data node =>
      storeRecord width (fun i => (rows.getD node data) i) node data) data) := by
    apply ArrayLoop.foldl_inv P
    · intro done k rest buf hP
      obtain ⟨hsplit, hdone⟩ := hP
      obtain ⟨rfl, hk⟩ := ArrayLoop.range_split hsplit
      refine ⟨by simpa using hsplit, ?_⟩
      intro k' hk'
      rw [storeRecord_apply _ _ hi]
      split
      · rename_i hlast
        subst hlast
        simp only [List.getD_eq_getElem?_getD, List.getElem?_eq_getElem hk, Option.getD_some]
      · rename_i hne
        rcases List.mem_append.mp hk' with hold | hlast
        · exact hdone k' hold
        · exact absurd (List.mem_singleton.mp hlast) hne
    · exact ⟨rfl, fun k hk => absurd hk List.not_mem_nil⟩
  exact hend.2 node (List.mem_range.mpr hnode)

/-- The chunk of `n` rows from `read` on, read where its bytes stand. -/
theorem readSection_root (hreads : ∀ g, g < N → Reads readRow (bytes g) (val g))
    {file : List UInt8} {pos read n : Nat} (hn : read + n ≤ N)
    (hat : At file pos ((List.range' read n).flatMap bytes)) (data : Nat → D) :
    ∃ data', readSection 0 width readRow file n pos data =
        .ok (data', pos + ((List.range' read n).flatMap bytes).length) ∧
      ∀ node, node < n → ∀ i, i < width → data' (i + width * node) = val (read + node) i := by
  have hmany : Reads (Reader.many readRow (List.range' read n).length)
      ((List.range' read n).flatMap bytes) ((List.range' read n).map val) :=
    reads_many _ fun g hg => hreads g (by have := List.mem_range'_1.mp hg; omega)
  rw [List.length_range'] at hmany
  have hlen : n = ((List.range' read n).map val).length := by simp
  refine ⟨(List.range n).foldl (fun data node => storeRecord width
    (fun i => (((List.range' read n).map val).getD node data) i) node data) data, ?_, ?_⟩
  · rw [readSection, if_pos rfl, hmany file pos hat]
    rfl
  · intro node hnode i hi
    rw [foldl_storeRecord hlen data hnode hi]
    simp [List.getD_eq_getElem?_getD, hnode]

/-- Every row of the file in order, as one rank meets them. -/
def assignAll (assign : σ → Int → (Nat → D) → Except Status σ) (val : Nat → Nat → D)
    (read n : Nat) (state : σ) : Except Status σ :=
  (List.range' read n).foldlM (fun state (g : Nat) => assign state g (val g)) state

theorem assignAll_add (assign : σ → Int → (Nat → D) → Except Status σ) (val : Nat → Nat → D)
    (read n m : Nat) (state : σ) :
    assignAll assign val read (n + m) state =
      (assignAll assign val read n state).bind (assignAll assign val (read + n) m) := by
  rw [assignAll, ← List.range'_append_1, List.foldlM_append]
  rfl

/-- An assignment that looks at the entries of the row only. -/
def LooksAt (width : Nat) (assign : σ → Int → (Nat → D) → Except Status σ) : Prop :=
  ∀ state g row row', (∀ i, i < width → row i = row' i) → assign state g row = assign state g row'

/-- What a rank does with a chunk it has received. -/
theorem assign_chunk {assign : σ → Int → (Nat → D) → Except Status σ} (hlook : LooksAt width assign)
    {read n : Nat} {data : Nat → D}
    (hdata : ∀ node, node < n → ∀ i, i < width → data (i + width * node) = val (read + node) i)
    (state : σ) :
    (List.range n).foldlM
        (fun state (node : Nat) => assign state (read + node) fun i => data (i + width * node)) state =
      assignAll assign val read n state := by
  rw [assignAll, List.range'_eq_map_range, List.foldlM_map]
  suffices haux : ∀ (nodes : List Nat) (state : σ), (∀ node ∈ nodes, node < n) →
      nodes.foldlM
        (fun state (node : Nat) => assign state (read + node) fun i => data (i + width * node)) state =
      nodes.foldlM (fun state (node : Nat) => assign state (read + node : Nat) (val (read + node)))
        state from haux (List.range n) state fun node hnode => List.mem_range.mp hnode
  intro nodes
  induction nodes with
  | nil => exact fun _ _ => rfl
  | cons node nodes ih =>
      intro state hmem
      have hstep : assign state (read + node) (fun i => data (i + width * node)) =
          assign state (read + node : Nat) (val (read + node)) := by
        push_cast
        exact hlook state _ _ _ fun i hi => hdata node (hmem node List.mem_cons_self) i hi
      rw [List.foldlM_cons, List.foldlM_cons, hstep]
      congr 1
      funext state'
      exact ih state' fun node' hnode' => hmem node' (List.mem_cons_of_mem _ hnode')

/-- **The loop of a reader**: every rank meets every row from `read` on, and
rank 0 ends behind the last one. -/
theorem scatterRows_run (hp : 0 < p) {assign : Nat → σ → Int → (Nat → D) → Except Status σ}
    (hlook : ∀ r, r < p → LooksAt width (assign r))
    (hreads : ∀ g, g < N → Reads readRow (bytes g) (val g)) {chunk : Int} (hchunk : 0 < N → 0 < chunk)
    (sectionSize : Int → Int)
    (hsize : ∀ rest : Int, 0 < rest → rest ≤ N → sectionSize rest = min chunk rest)
    (file : Nat → List UInt8) :
    ∀ (fuel read : Nat) (pos : Nat → Nat) (data : Nat → Nat → D) (state fin : Nat → σ),
      N - read ≤ fuel → read ≤ N →
      At (file 0) (pos 0) ((List.range' read (N - read)).flatMap bytes) →
      (∀ r, r < p → assignAll (assign r) val read (N - read) (state r) = .ok (fin r)) →
      Runs p (fun r => scatterRows p r width chunk N sectionSize readRow (assign r) (file r) fuel
          read (pos r) (data r) (state r))
        fun r => (if r = 0 then pos 0 + ((List.range' read (N - read)).flatMap bytes).length
          else pos r, fin r) := by
  intro fuel
  induction fuel with
  | zero =>
      intro read pos data state fin hfuel hle _ hfin
      obtain rfl : read = N := by omega
      refine .ret fun r hr => ?_
      have hdone := hfin r hr
      rw [Nat.sub_self] at hdone
      rw [scatterRows, if_neg (lt_irrefl _), ← Except.ok.inj hdone]
      split
      · rename_i hr0
        rw [hr0]
        simp
      · rfl
  | succ fuel ih =>
      intro read pos data state fin hfuel hle hat hfin
      by_cases hlt : read < N
      · have hpos := hchunk (by omega)
        obtain ⟨n, hn⟩ : ∃ n : Nat, (n : Int) = min chunk (N - read) :=
          ⟨(min chunk (N - read)).toNat, Int.toNat_of_nonneg (by omega)⟩
        have hbounds : 0 < n ∧ read + n ≤ N ∧ (n : Int) ≤ chunk := by omega
        have hsplit : N - read = n + (N - (read + n)) := by omega
        rw [hsplit, ← List.range'_append_1, List.flatMap_append] at hat
        obtain ⟨data0, hread0, hdata0⟩ := readSection_root hreads hbounds.2.1 hat.left (data 0)
        have hread : ∀ r, r < p → ∃ sec, readSection r width readRow (file r) n (pos r) (data r) =
            .ok sec ∧ (r = 0 → sec =
              (data0, pos 0 + ((List.range' read n).flatMap bytes).length)) ∧
            (r ≠ 0 → sec.2 = pos r) := by
          intro r _
          by_cases hr0 : r = 0
          · subst hr0
            exact ⟨_, hread0, fun _ => rfl, fun h => absurd rfl h⟩
          · refine ⟨(data r, pos r), ?_, fun h => absurd h hr0, fun _ => rfl⟩
            rw [readSection, if_neg hr0]
        have : Nonempty D := ⟨data 0 0⟩
        choose! sec hsec hsec0 hsec1 using hread
        -- the state of each rank behind the chunk
        have hmid : ∀ r, r < p → ∃ mid, assignAll (assign r) val read n (state r) = .ok mid ∧
            assignAll (assign r) val (read + n) (N - (read + n)) mid = .ok (fin r) := by
          intro r hr
          have hall := hfin r hr
          rw [hsplit, assignAll_add] at hall
          exact bind_eq_ok.mp hall
        have : Nonempty σ := ⟨state 0⟩
        choose! mid hmid hrest using hmid
        have hcast : ∀ r, r < p → ∀ node, node < n → ∀ i, i < width →
            broadcast (width * chunk.toNat) (fun r => (sec r).1) r (i + width * node) =
              val (read + node) i := by
          intro r _ node hnode i hi
          have hplace : i + width * node < width * chunk.toNat := by
            calc i + width * node < width * (node + 1) := by rw [Nat.mul_succ]; omega
              _ ≤ width * chunk.toNat := Nat.mul_le_mul_left _ (by omega)
          rw [broadcast, if_pos hplace, hsec0 0 hp rfl]
          exact hdata0 node hnode i hi
        have hcall : ∀ r, r < p →
            scatterRows p r width chunk N sectionSize readRow (assign r) (file r) (fuel + 1) read
                (pos r) (data r) (state r) =
              (bcast p .dbl (width * chunk.toNat) (sec r).1).bind fun data =>
                (Prog.lift ((List.range n).foldlM
                  (fun state (node : Nat) => assign r state (read + node)
                    fun i => data (i + width * node)) (state r))).bind fun state =>
                  scatterRows p r width chunk N sectionSize readRow (assign r) (file r) fuel
                    (read + n : Nat) (sec r).2 data state := by
          intro r hr
          rw [scatterRows, if_pos (by exact_mod_cast hlt), hsize _ (by omega) (by omega), ← hn]
          simp only
          rw [if_neg (by omega), Int.toNat_natCast, hsec r hr]
          push_cast
          rfl
        refine Runs.congr ?_ hcall
        apply Runs.bind (bcast_run hp .dbl _ fun r => (sec r).1)
        have hnext := ih (read + n) (fun r => (sec r).2)
          (fun r => broadcast (width * chunk.toNat) (fun r => (sec r).1) r) mid fin (by omega)
          hbounds.2.1 (by rw [hsec0 0 hp rfl]; exact hat.right) hrest
        refine Runs.congr (hnext.congr_out ?_) ?_
        · intro r hr
          by_cases hr0 : r = 0
          · subst hr0
            simp only [if_true, hsec0 0 hp rfl]
            rw [hsplit, ← List.range'_append_1, List.flatMap_append, List.length_append,
              Nat.add_assoc]
          · simp only [if_neg hr0, hsec1 r hr hr0]
        · intro r hr
          have hassign := (assign_chunk (hlook r hr) (hcast r hr) (state r)).trans (hmid r hr)
          exact congrArg (fun x => (Prog.lift x : RankProg D σ).bind _) hassign
      · obtain rfl : read = N := by omega
        refine .ret fun r hr => ?_
        have hdone := hfin r hr
        rw [Nat.sub_self] at hdone
        rw [scatterRows, if_neg (lt_irrefl _), ← Except.ok.inj hdone]
        split
        · rename_i hr0
          rw [hr0]
          simp
        · rfl

end Scatter

section Scalars

variable {N width : Nat} {s : RefNode D} {place : Nat → Nat → Nat} {val : Nat → Nat → D}

theorem storeRow_succ (place : Nat → Nat) (row scalar : Nat → D) :
    storeRow (width + 1) place row scalar =
      Function.update (storeRow width place row scalar) (place width) (row width) := by
  simp [storeRow, List.range_succ]

theorem storeRow_other {place : Nat → Nat} (row scalar : Nat → D) {k : Nat}
    (hk : ∀ i, i < width → place i ≠ k) : storeRow width place row scalar k = scalar k := by
  induction width with
  | zero => rfl
  | succ width ih =>
      rw [storeRow_succ, Function.update_of_ne (hk width (by omega)).symm]
      exact ih fun i hi => hk i (by omega)

theorem storeRow_place {place : Nat → Nat}
    (hinj : ∀ i j, i < width → j < width → place i = place j → i = j) (row scalar : Nat → D)
    {i : Nat} (hi : i < width) : storeRow width place row scalar (place i) = row i := by
  induction width with
  | zero => omega
  | succ width ih =>
      rw [storeRow_succ]
      by_cases hlast : i = width
      · rw [hlast, Function.update_self]
      · have hne : place i ≠ place width := fun h => hlast (hinj i width hi (by omega) h)
        rw [Function.update_of_ne hne]
        exact ih (fun i j hi hj => hinj i j (by omega) (by omega)) (by omega)

theorem storeRow_congr {place : Nat → Nat} {row row' : Nat → D} (h : ∀ i, i < width → row i = row' i)
    (scalar : Nat → D) : storeRow width place row scalar = storeRow width place row' scalar := by
  induction width with
  | zero => rfl
  | succ width ih =>
      rw [storeRow_succ, storeRow_succ, ih fun i hi => h i (by omega), h width (by omega)]

theorem assignScalar_looksAt (s : RefNode D) (width : Nat) (place : Nat → Nat → Nat) :
    LooksAt width (assignScalar s width place) := by
  intro scalar g row row' hrow
  unfold assignScalar
  split
  · rw [storeRow_congr hrow]
  · rfl
  · rfl

/-- **What a rank keeps**: the rows of its nodes at their places, and all other
entries as they were. -/
theorem assignScalar_all (h : s.Inv) (place : Nat → Nat → Nat) (val : Nat → Nat → D)
    (hinj : ∀ node node' i i', i < width → i' < width → place node i = place node' i' →
      node = node' ∧ i = i') (N : Nat) (scalar : Nat → D) :
    ∃ fin, assignAll (assignScalar s width place) val 0 N scalar = .ok fin ∧
      (∀ node (g : Nat), s.Live node → s.global node = g → g < N → ∀ i, i < width →
        fin (place node i) = val g i) ∧
      ∀ k, (∀ node i, s.Live node → i < width → place node i ≠ k) → fin k = scalar k := by
  induction N with
  | zero => exact ⟨scalar, rfl, fun _ _ _ _ hg => absurd hg (Nat.not_lt_zero _), fun _ _ => rfl⟩
  | succ N ih =>
      obtain ⟨mid, hmid, hplaced, hother⟩ := ih
      have hstep : ∀ fin, assignScalar s width place mid (N : Nat) (val N) = .ok fin →
          assignAll (assignScalar s width place) val 0 (N + 1) scalar = .ok fin := by
        intro fin hfin
        rw [assignAll_add, hmid]
        simp only [Except.bind, assignAll, Nat.zero_add, List.range'_one, List.foldlM_cons,
          List.foldlM_nil, hfin]
        rfl
      rcases h.nodeLocal_spec N with ⟨node, hlocal, hlive, hg⟩ | ⟨hlocal, habsent⟩
      · refine ⟨storeRow width (place node) (val N) mid, hstep _ ?_, ?_, ?_⟩
        · simp only [assignScalar, hlocal]
        · intro node' g hlive' hg' hlt i hi
          by_cases hsame : node' = node
          · subst hsame
            obtain rfl : g = N := by omega
            exact storeRow_place (fun i j hi hj h => (hinj _ _ i j hi hj h).2) _ _ hi
          · rw [storeRow_other _ _ fun j hj heq => hsame (hinj _ _ _ _ hj hi heq).1.symm]
            have hne : g ≠ N := by
              intro hgN
              exact hsame (h.distinct node' node hlive' hlive (by rw [hg', hg, hgN]))
            exact hplaced node' g hlive' hg' (by omega) i hi
        · intro k hk
          rw [storeRow_other _ _ fun i hi => hk node i hlive hi]
          exact hother k hk
      · refine ⟨mid, hstep _ ?_, ?_, hother⟩
        · simp only [assignScalar, hlocal]
        · intro node g hlive hg hlt i hi
          have hne : g ≠ N := fun hgN => habsent node hlive (by rw [hg, hgN])
          exact hplaced node g hlive hg (by omega) i hi

end Scalars

/-! ## Ranks that hold every node -/

/-- Eight bytes with the sum of words, for runs on values that are zero on all
ranks but one. -/
instance : RefDblData (BitVec 64) where
  zero := 0
  one := 0x3FF0000000000000
  logM := fun m => .ok m
  add := fun x y => x + y
  add_zero := BitVec.add_zero
  zero_add := BitVec.zero_add
  bytes := fun x => natBytes 8 x.toNat
  ofBytes := fun bs => BitVec.ofNat 64 (natOfBytes bs)
  length_bytes := fun _ => length_natBytes _ _
  ofBytes_bytes := by
    intro x
    have hx : x.toNat < 256 ^ 8 := x.isLt
    rw [natOfBytes_natBytes, Nat.mod_eq_of_lt hx, BitVec.ofNat_toNat, BitVec.setWidth_eq]

/-- A rank that holds the globals below `n` in the slots of their number. -/
def denseStore (n : Nat) (part : Nat → Nat) (real : Nat → Nat → D) (rank : Nat) : RefNode D where
  n := n
  max := n
  blank := refEmpty
  global := fun k => k
  sortedGlobal := fun k => k
  sortedLocal := fun k => k
  part := part
  age := fun _ => 0
  real := real
  naux := 0
  aux := real
  rank := rank
  nUnused := 0
  maxUnused := 0
  unusedGlobal := fun _ => 0
  oldNGlobal := n
  newNGlobal := n

theorem denseStore_live {n rank k : Nat} {part : Nat → Nat} {real : Nat → Nat → D} :
    (denseStore n part real rank).Live k ↔ k < n :=
  ⟨fun h => h.1, fun h => ⟨h, Int.natCast_nonneg k⟩⟩

theorem denseStore_inv {n : Nat} (hn : n ≤ refIntMax) (part : Nat → Nat) (real : Nat → Nat → D)
    (rank : Nat) : (denseStore n part real rank).Inv := by
  refine ⟨⟨⟨[], ?_, List.nodup_nil, ?_⟩, ?_, ?_, hn⟩, ?_, ?_, ?_⟩
  · simp [denseStore]
  · intro k
    simp [denseStore]
  · rw [SlotList.liveCount, Finset.filter_true_of_mem]
    · simp [denseStore]
    · intro k hk
      exact denseStore_live.mpr (Finset.mem_range.mp hk)
  · intro i j _ _ h
    exact Int.ofNat.inj h
  · intro i j hij _
    exact Int.ofNat_lt.mpr hij
  · intro i hi
    exact ⟨denseStore_live.mpr hi, rfl⟩
  · intro k hk
    exact ⟨k, denseStore_live.mp hk, rfl⟩

theorem denseStore_numbered {p n : Nat} (hn : n ≤ refIntMax) {part : Nat → Nat}
    (hpart : ∀ k, k < n → part k < p) (real : Nat → Nat → D) :
    NodesNumbered p (denseStore n part real) n where
  inv := fun r _ => denseStore_inv hn part real r
  rank := fun _ _ => rfl
  parts := by
    intro r q _ _ i j _ _ h
    obtain rfl : i = j := Int.ofNat.inj h
    rfl
  count := fun _ _ => rfl
  bound := by
    intro r _ g hg
    obtain ⟨k, hk, rfl⟩ := hg
    exact Int.ofNat_lt.mpr (denseStore_live.mp hk)
  owned := fun g hg => ⟨part g, hpart g hg, g, denseStore_live.mpr hg, rfl, rfl⟩

end RefineMesh
