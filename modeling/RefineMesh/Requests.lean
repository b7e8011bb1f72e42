import Mathlib.Tactic
import RefineMesh.ArrayLoops
import RefineMesh.Mpi

/-!
# Requests to owners

The exchanges for edges and cells are one pattern.  Each rank sorts the items
that other ranks own into buckets by owner and sends a record of `width`
globals for each; the owner finds the item of a record and sends its entry
back, in the order of the requests.
-/

namespace RefineMesh

open Segments Spmd

variable {D : Type}

/-- The items of one rank in the order of its requests. -/
def askOrder (p : Nat) (dest : Nat → Nat) (items : List Nat) : List Nat :=
  (List.range p).flatMap (group dest items)

/-- The requests that rank `r` receives, in their order: the rank that asks
and its item. -/
def askedOrder (p : Nat) (dest : Nat → Nat → Nat) (items : Nat → List Nat) (r : Nat) :
    List (Nat × Nat) :=
  (List.range p).flatMap fun q => (group (dest q) (items q) r).map fun i => (q, i)

/-- `a_size`. -/
def askSize (dest : Nat → Nat) (items : List Nat) : Nat → Nat := tally dest items fun _ => 0

/-- `b_size` on rank `r`. -/
def askedSize (p : Nat) (dest : Nat → Nat → Nat) (items : Nat → List Nat) (r : Nat) : Nat → Nat :=
  onRanks p fun q => askSize (dest q) (items q) r

/-- One array of the loop that fills the buckets. -/
def packRecords {E : Type} (width : Nat) (dest : Nat → Nat) (items : List Nat)
    (record : Nat → Nat → E) (mem : Nat → E) : Nat → E :=
  (items.foldl (bucketStep dest fun buf k i => storeRecord width (record i) k buf)
    (start (askSize dest items), mem)).2

/-- The arrays of one rank after its requests are sent: `a` for what it asks,
`b` for what it is asked. -/
structure Requests where
  aSize : Nat → Nat
  bSize : Nat → Nat
  aTotal : Nat
  bTotal : Nat
  aItem : Nat → Nat
  bNodes : Nat → Int

/-- The memory of the buffers. -/
structure RequestMemory (E : Type) where
  aItem : Nat → Nat
  aNodes : Nat → Int
  bNodes : Nat → Int
  aData : Nat → E
  bData : Nat → E

/-- Sizes, totals and records of globals. -/
def requests {E : Type} (p width : Nat) (dest : Nat → Nat) (items : List Nat)
    (record : Nat → Nat → Int) (mem : RequestMemory E) : RankProg D Requests :=
  let aSize := askSize dest items
  .alltoall aSize fun bSize =>
    let aTotal := start aSize p
    let bTotal := start bSize p
    if refIntMax < aTotal ∨ refIntMax < bTotal then .fail .undefined
    else if refIntMax < width * aTotal ∨ refIntMax < width * bTotal then .fail .undefined
    else
      let aItem := packRecords 1 dest items (fun i _ => i) mem.aItem
      let aNodes := packRecords width dest items record mem.aNodes
      (alltoallv p .long aNodes aSize bSize width mem.bNodes).bind fun bNodes =>
        .ret { aSize, bSize, aTotal, bTotal, aItem, bNodes }

/-- The loop of the owner over its requests: `b_data` from the items found. -/
def answerRequests {E : Type} (width : Nat) (req : Requests)
    (find : (Nat → Int) → Except Status Nat) (data mem : Nat → E) : Except Status (Nat → E) :=
  (List.range req.bTotal).foldlM (fun buf k => do
    let i ← find fun l => req.bNodes (l + width * k)
    .ok (Function.update buf k (data i))) mem

/-- The last loop: the answers are stored. -/
def storeAnswers {E : Type} (req : Requests) (aData data : Nat → E) : Nat → E :=
  (List.range req.aTotal).foldl (fun data k => Function.update data (req.aItem k) (aData k)) data

/-- The answers come back. -/
def replies (p : Nat) (t : RefType) (req : Requests) (bData data mem : Nat → t.Elem D) :
    RankProg D (Nat → t.Elem D) :=
  (alltoallv p t bData req.bSize req.aSize 1 mem).bind fun aData =>
    .ret (storeAnswers req aData data)

/-- The whole exchange: every item takes the entry of its owner. -/
def askOwners (p width : Nat) (t : RefType) (dest : Nat → Nat) (items : List Nat)
    (record : Nat → Nat → Int) (find : (Nat → Int) → Except Status Nat) (data : Nat → t.Elem D)
    (mem : RequestMemory (t.Elem D)) : RankProg D (Nat → t.Elem D) :=
  if p ≤ 1 then .ret data
  else
    (requests p width dest items record mem).bind fun req =>
      (Prog.lift (answerRequests width req find data mem.bData)).bind fun bData =>
        replies p t req bData data mem.aData

/-! ## Orders -/

section Orders

variable {p : Nat} {dest : Nat → Nat → Nat} {items : Nat → List Nat}

theorem mem_group {dest : Nat → Nat} {items : List Nat} {part i : Nat} :
    i ∈ group dest items part ↔ i ∈ items ∧ dest i = part := by
  simp [group]

theorem mem_askOrder {dest : Nat → Nat} {items : List Nat} (hdest : ∀ i ∈ items, dest i < p)
    {i : Nat} : i ∈ askOrder p dest items ↔ i ∈ items := by
  simp only [askOrder, List.mem_flatMap, List.mem_range, mem_group]
  constructor
  · intro hmem
    obtain ⟨_, _, hi, _⟩ := hmem
    exact hi
  · intro hi
    exact ⟨_, hdest i hi, hi, rfl⟩

theorem nodup_askOrder {dest : Nat → Nat} {items : List Nat} (hnodup : items.Nodup) :
    (askOrder p dest items).Nodup := by
  apply List.nodup_flatMap.mpr
  constructor
  · intro part _
    exact hnodup.filter _
  · apply List.nodup_range.imp
    intro a b hab i ha hb
    exact hab ((mem_group.mp ha).2.symm.trans (mem_group.mp hb).2)

theorem mem_askedOrder {r : Nat} {ask : Nat × Nat} :
    ask ∈ askedOrder p dest items r ↔
      ask.1 < p ∧ ask.2 ∈ items ask.1 ∧ dest ask.1 ask.2 = r := by
  simp only [askedOrder, List.mem_flatMap, List.mem_range, List.mem_map, mem_group]
  constructor
  · intro hmem
    obtain ⟨q, hq, i, hi, rfl⟩ := hmem
    exact ⟨hq, hi⟩
  · intro hask
    exact ⟨ask.1, hask.1, ask.2, hask.2, rfl⟩

theorem askSize_eq (dest : Nat → Nat) (items : List Nat) (part : Nat) :
    askSize dest items part = (group dest items part).length := by
  rw [askSize, tally_apply, Nat.zero_add]

theorem start_askSize (dest : Nat → Nat) (items : List Nat) (part : Nat) :
    start (askSize dest items) part = start (fun q => (group dest items q).length) part :=
  start_congr fun q _ => askSize_eq dest items q

theorem start_askedSize {r part : Nat} (hpart : part ≤ p) :
    start (askedSize p dest items r) part =
      start (fun q => ((group (dest q) (items q) r).map fun i => (q, i)).length) part := by
  apply start_congr
  intro q hq
  rw [askedSize, onRanks_of_lt _ (by omega), askSize_eq, List.length_map]

theorem start_askSize_all (dest : Nat → Nat) (items : List Nat) :
    start (askSize dest items) p = (askOrder p dest items).length := by
  rw [start_askSize, askOrder, length_flatMap_range]

theorem start_askedSize_all (r : Nat) :
    start (askedSize p dest items r) p = (askedOrder p dest items r).length := by
  rw [start_askedSize le_rfl, askedOrder, length_flatMap_range]

theorem length_askOrder {dest : Nat → Nat} {items : List Nat} (hdest : ∀ i ∈ items, dest i < p)
    (hnodup : items.Nodup) : (askOrder p dest items).length = items.length := by
  apply List.Perm.length_eq
  rw [List.perm_ext_iff_of_nodup (nodup_askOrder hnodup) hnodup]
  intro i
  exact mem_askOrder hdest

theorem length_askedOrder (r : Nat) : (askedOrder p dest items r).length =
    ∑ q ∈ Finset.range p, (group (dest q) (items q) r).length := by
  rw [askedOrder, length_flatMap_range]
  simp [start]

end Orders

/-! ## What is moved -/

section Moved

variable {E : Type} {p width : Nat} {dest : Nat → Nat → Nat} {items : Nat → List Nat}

/-- The bucket of `part` holds the records of the items of `part`. -/
theorem packRecords_place {dest : Nat → Nat} {items : List Nat} {record : Nat → Nat → E}
    (hdest : ∀ i ∈ items, dest i < p) {part j i l : Nat} (hpart : part < p)
    (hj : (group dest items part)[j]? = some i) (hl : l < width) (mem : Nat → E) :
    packRecords width dest items record mem (l + width * (start (askSize dest items) part + j)) =
      record i l := by
  refine bucket_spec (fun (b : Nat → E) k i => ∀ l, l < width → b (l + width * k) = record i l)
    (fun buf k i => storeRecord width (record i) k buf) ?_ ?_ mem
    (fun part _ => askSize_eq dest items part) (fun _ _ => rfl) hdest part hpart j i hj l hl
  · intro b k i l hl
    rw [storeRecord_apply _ _ hl, if_pos rfl]
  · intro b k i k' i' hk hold l hl
    rw [storeRecord_apply _ _ hl, if_neg hk]
    exact hold l hl

/-- The records of a rank are in the order of its requests. -/
theorem packRecords_apply {dest : Nat → Nat} {items : List Nat} {record : Nat → Nat → E}
    (hdest : ∀ i ∈ items, dest i < p) {k i l : Nat} (hk : (askOrder p dest items)[k]? = some i)
    (hl : l < width) (mem : Nat → E) :
    packRecords width dest items record mem (l + width * k) = record i l := by
  obtain ⟨part, j, hpart, rfl, hj⟩ := exists_of_getElem?_flatMap_range hk
  rw [← start_askSize]
  exact packRecords_place hdest hpart hj hl mem

theorem packRecords_one {dest : Nat → Nat} {items : List Nat} {record : Nat → E}
    (hdest : ∀ i ∈ items, dest i < p) {k i : Nat} (hk : (askOrder p dest items)[k]? = some i)
    (mem : Nat → E) : packRecords 1 dest items (fun i _ => record i) mem k = record i := by
  have hplace : packRecords 1 dest items (fun i _ => record i) mem (0 + 1 * k) = record i :=
    packRecords_apply hdest hk Nat.one_pos mem
  rwa [Nat.zero_add, Nat.one_mul] at hplace

/-- The buffers that the owner receives. -/
def received (p width : Nat) (dest : Nat → Nat → Nat) (items : Nat → List Nat)
    (send mem : Nat → Nat → E) (r : Nat) : Nat → E :=
  exchanged p send (fun q r => width * askSize (dest q) (items q) r)
    (fun r q => width * askedSize p dest items r q) mem r

/-- The buffers that come back. -/
def returned (p width : Nat) (dest : Nat → Nat → Nat) (items : Nat → List Nat)
    (send mem : Nat → Nat → E) (r : Nat) : Nat → E :=
  exchanged p send (fun q r => width * askedSize p dest items q r)
    (fun r q => width * askSize (dest r) (items r) q) mem r

/-- The owner receives the records of the items it is asked for. -/
theorem received_apply (record : Nat → Nat → Nat → E)
    (hdest : ∀ q, q < p → ∀ i ∈ items q, dest q i < p) {r k q i l : Nat} (hr : r < p)
    (hk : (askedOrder p dest items r)[k]? = some (q, i)) (hl : l < width)
    (aMem mem : Nat → Nat → E) :
    received p width dest items
      (fun q => packRecords width (dest q) (items q) (record q) (aMem q)) mem r (l + width * k) =
        record q i l := by
  obtain ⟨q', j, hq', rfl, hj⟩ := exists_of_getElem?_flatMap_range hk
  rw [List.getElem?_map] at hj
  obtain ⟨i', hj', heq⟩ := Option.map_eq_some_iff.mp hj
  obtain ⟨rfl, rfl⟩ := Prod.mk.inj heq
  have hlen : j < askedSize p dest items r q' := by
    rw [askedSize, onRanks_of_lt _ hq', askSize_eq]
    exact (List.getElem?_eq_some_iff.mp hj').1
  rw [← start_askedSize hq'.le, received, exchanged_record hq' hlen hl]
  exact packRecords_place (hdest q' hq') hr hj' hl _

/-- The answer to a request comes back to its place. -/
theorem returned_apply {r k i : Nat} (hr : r < p)
    (hk : (askOrder p (dest r) (items r))[k]? = some i) :
    ∃ k', (askedOrder p dest items (dest r i))[k']? = some (r, i) ∧
      ∀ (width l : Nat) (send mem : Nat → Nat → E), l < width →
        returned p width dest items send mem r (l + width * k) =
          send (dest r i) (l + width * k') := by
  obtain ⟨part, j, hpart, rfl, hj⟩ := exists_of_getElem?_flatMap_range hk
  obtain rfl : dest r i = part := (mem_group.mp (List.mem_of_getElem? hj)).2
  have hj' : ((group (dest r) (items r) (dest r i)).map fun i => (r, i))[j]? = some (r, i) := by
    rw [List.getElem?_map, hj]
    rfl
  have hlen : j < (group (dest r) (items r) (dest r i)).length :=
    (List.getElem?_eq_some_iff.mp hj).1
  refine ⟨start (fun q => ((group (dest q) (items q) (dest r i)).map
    fun i => (q, i)).length) r + j, ?_, ?_⟩
  · rw [← hj']
    exact getElem?_flatMap_range hr (by rw [List.length_map]; exact hlen)
  · intro width l send mem hl
    rw [← start_askSize, ← start_askedSize hr.le]
    apply exchanged_record hpart _ hl
    rw [askSize_eq]
    exact hlen

end Moved

/-! ## Runs -/

section Runs

variable {p width : Nat} {dest : Nat → Nat → Nat} {items : Nat → List Nat}
  {record : Nat → Nat → Nat → Int}

/-- The totals of every rank fit a `REF_INT`, times the width of a record. -/
structure AskFits (p width : Nat) (dest : Nat → Nat → Nat) (items : Nat → List Nat) : Prop where
  pos : 0 < width
  asks : ∀ r, r < p → width * (askOrder p (dest r) (items r)).length ≤ refIntMax
  asked : ∀ r, r < p → width * (askedOrder p dest items r).length ≤ refIntMax

theorem AskFits.one (h : AskFits p width dest items) : AskFits p 1 dest items := by
  refine ⟨Nat.one_pos, fun r hr => ?_, fun r hr => ?_⟩
  · calc 1 * (askOrder p (dest r) (items r)).length
        ≤ width * (askOrder p (dest r) (items r)).length := Nat.mul_le_mul_right _ h.pos
      _ ≤ refIntMax := h.asks r hr
  · calc 1 * (askedOrder p dest items r).length
        ≤ width * (askedOrder p dest items r).length := Nat.mul_le_mul_right _ h.pos
      _ ≤ refIntMax := h.asked r hr

theorem AskFits.askSize (h : AskFits p width dest items) {r : Nat} (hr : r < p) :
    SizesFit p width (askSize (dest r) (items r)) :=
  sizesFit_of_total (by rw [start_askSize_all]; exact h.asks r hr)

theorem AskFits.askedSize (h : AskFits p width dest items) {r : Nat} (hr : r < p) :
    SizesFit p width (askedSize p dest items r) :=
  sizesFit_of_total (by rw [start_askedSize_all]; exact h.asked r hr)

variable {E : Type} {mem : Nat → RequestMemory E}

/-- What the requests give rank `r`. -/
def requestsOf (p width : Nat) (dest : Nat → Nat → Nat) (items : Nat → List Nat)
    (record : Nat → Nat → Nat → Int) (mem : Nat → RequestMemory E) (r : Nat) : Requests where
  aSize := askSize (dest r) (items r)
  bSize := askedSize p dest items r
  aTotal := (askOrder p (dest r) (items r)).length
  bTotal := (askedOrder p dest items r).length
  aItem := packRecords 1 (dest r) (items r) (fun i _ => i) (mem r).aItem
  bNodes := received p width dest items
    (fun q => packRecords width (dest q) (items q) (record q) (mem q).aNodes)
    (fun r => (mem r).bNodes) r

/-- One exchange towards the owners. -/
theorem alltoallv_received {α : Type} {t : RefType} (h : AskFits p width dest items)
    {send bMem : Nat → Nat → t.Elem D} {k : Nat → (Nat → t.Elem D) → RankProg D α} {out : Nat → α}
    (hrest : Runs p (fun r => k r (received p width dest items send bMem r)) out) :
    Runs p (fun r => (alltoallv p t (send r) (askSize (dest r) (items r))
      (askedSize p dest items r) width (bMem r)).bind (k r)) out := by
  refine Runs.congr (P := fun r => .alltoallv t (send r)
    (fun q => width * askSize (dest r) (items r) q)
    (fun q => width * askedSize p dest items r q) (bMem r) (k r)) ?_ ?_
  · refine .alltoallv t _ _ _ _ _ (fun r hr => rfl) (fun r q hr hq => ?_) hrest
    rw [askedSize, onRanks_of_lt _ hq]
  · intro r hr
    rw [alltoallv_eq (h.askSize hr) (h.askedSize hr)]
    rfl

/-- One exchange back to the ranks that asked. -/
theorem alltoallv_returned {α : Type} {t : RefType} (h : AskFits p width dest items)
    {send aMem : Nat → Nat → t.Elem D} {k : Nat → (Nat → t.Elem D) → RankProg D α} {out : Nat → α}
    (hrest : Runs p (fun r => k r (returned p width dest items send aMem r)) out) :
    Runs p (fun r => (alltoallv p t (send r) (askedSize p dest items r)
      (askSize (dest r) (items r)) width (aMem r)).bind (k r)) out := by
  refine Runs.congr (P := fun r => .alltoallv t (send r)
    (fun q => width * askedSize p dest items r q)
    (fun q => width * askSize (dest r) (items r) q) (aMem r) (k r)) ?_ ?_
  · refine .alltoallv t _ _ _ _ _ (fun r hr => rfl) (fun r q hr hq => ?_) hrest
    rw [askedSize, onRanks_of_lt _ hr]
  · intro r hr
    rw [alltoallv_eq (h.askedSize hr) (h.askSize hr)]
    rfl

/-- **The requests** when the totals fit. -/
theorem requests_run (record : Nat → Nat → Nat → Int) (h : AskFits p width dest items) (mem : Nat → RequestMemory E) :
    Runs p (fun r => (requests p width (dest r) (items r) (record r) (mem r) :
      RankProg D Requests)) (requestsOf p width dest items record mem) := by
  refine .alltoall _ _ (fun r hr => rfl) ?_
  refine Runs.congr (P := fun r => (alltoallv p .long
    (packRecords width (dest r) (items r) (record r) (mem r).aNodes) (askSize (dest r) (items r))
    (askedSize p dest items r) width (mem r).bNodes).bind fun bNodes =>
      .ret { requestsOf p width dest items record mem r with bNodes := bNodes }) ?_ ?_
  · exact alltoallv_received h (.ret fun r hr => rfl)
  · intro r hr
    have ha : start (askSize (dest r) (items r)) p = (askOrder p (dest r) (items r)).length :=
      start_askSize_all _ _
    have hb : start (onRanks p fun q => askSize (dest q) (items q) r) p =
        (askedOrder p dest items r).length := start_askedSize_all r
    have hasks := h.asks r hr
    have hasked := h.asked r hr
    have hasks1 := h.one.asks r hr
    have hasked1 := h.one.asked r hr
    simp only [ha, hb]
    rw [if_neg (by omega), if_neg (by omega)]
    rfl

/-- The totals fit when there is a result. -/
theorem fits_of_runs_requests {α : Type} (record : Nat → Nat → Nat → Int)
    (mem : Nat → RequestMemory E) {f : Nat → Requests → RankProg D α} {out : Nat → α} {r : Nat}
    (hr : r < p)
    (hrun : Runs p (fun r =>
      (requests p width (dest r) (items r) (record r) (mem r)).bind (f r)) out) :
    width * (askOrder p (dest r) (items r)).length ≤ refIntMax ∧
      width * (askedOrder p dest items r).length ≤ refIntMax := by
  have ha : start (askSize (dest r) (items r)) p = (askOrder p (dest r) (items r)).length :=
    start_askSize_all _ _
  have hb : start (onRanks p fun q => askSize (dest q) (items q) r) p =
      (askedOrder p dest items r).length := start_askedSize_all r
  have hrest := (runs_alltoall_iff (by omega) fun r _ => rfl).mp hrun
  by_contra hover
  refine not_runs_of_fail (e := .undefined) hr ?_ hrest
  simp only [ha, hb]
  split
  · rfl
  · rw [if_pos (by omega)]
    rfl

/-- Without totals that fit there is no result. -/
theorem not_runs_of_requests_overflow {α : Type} (record : Nat → Nat → Nat → Int)
    (mem : Nat → RequestMemory E) {f : Nat → Requests → RankProg D α}
    {out : Nat → α} {r : Nat} (hr : r < p)
    (hover : refIntMax < width * (askedOrder p dest items r).length) :
    ¬ Runs p (fun r => (requests p width (dest r) (items r) (record r) (mem r)).bind (f r))
      out := by
  intro hrun
  exact absurd (fits_of_runs_requests record mem hr hrun).2 hover.not_ge

/-- The owner finds every item it is asked for: `slot q i` is its own index of
item `i` of rank `q`. -/
def Finds (p width : Nat) (dest : Nat → Nat → Nat) (items : Nat → List Nat)
    (record : Nat → Nat → Nat → Int) (find : Nat → (Nat → Int) → Except Status Nat)
    (slot : Nat → Nat → Nat) : Prop :=
  ∀ r, r < p → ∀ i ∈ items r, ∀ nodes : Nat → Int, (∀ l, l < width → nodes l = record r i l) →
    find (dest r i) nodes = .ok (slot r i)

variable {find : Nat → (Nat → Int) → Except Status Nat} {slot : Nat → Nat → Nat}

/-- The lookup of a request. -/
theorem find_request (hdest : ∀ q, q < p → ∀ i ∈ items q, dest q i < p)
    (hfind : Finds p width dest items record find slot) {r k q i : Nat} (hr : r < p)
    (hk : (askedOrder p dest items r)[k]? = some (q, i)) :
    find r (fun l => (requestsOf p width dest items record mem r).bNodes (l + width * k)) =
      .ok (slot q i) := by
  obtain ⟨hq, hi, hpart⟩ := mem_askedOrder.mp (List.mem_of_getElem? hk)
  rw [← hpart]
  apply hfind q hq i hi
  intro l hl
  rw [hpart]
  exact received_apply record hdest hr hk hl (fun q => (mem q).aNodes)
    fun r => (mem r).bNodes

/-- A loop over the requests, each for an item that is found. -/
theorem foldlM_requests {B : Type} (hdest : ∀ q, q < p → ∀ i ∈ items q, dest q i < p)
    (hfind : Finds p width dest items record find slot) {r : Nat} (hr : r < p)
    (f : B → Nat → Nat → B) (b : B) :
    ((List.range (requestsOf p width dest items record mem r).bTotal).foldlM (fun b k => do
        let i ← find r fun l =>
          (requestsOf p width dest items record mem r).bNodes (l + width * k)
        Except.ok (f b k i)) b : Except Status B) =
      .ok ((List.range (askedOrder p dest items r).length).foldl (fun b k =>
        f b k ((askedOrder p dest items r)[k]?.elim 0 fun ask => slot ask.1 ask.2)) b) := by
  apply ArrayLoop.foldlM_ok
  intro k hk b
  obtain ⟨⟨q, i⟩, hask⟩ : ∃ ask, (askedOrder p dest items r)[k]? = some ask :=
    ⟨_, List.getElem?_eq_getElem (List.mem_range.mp hk)⟩
  rw [find_request hdest hfind hr hask, hask]
  rfl

theorem answerRequests_ok (mem : Nat → RequestMemory E) (hdest : ∀ q, q < p → ∀ i ∈ items q, dest q i < p)
    (hfind : Finds p width dest items record find slot) {r : Nat} (hr : r < p)
    (data bMem : Nat → E) :
    ∃ buf, answerRequests width (requestsOf p width dest items record mem r) (find r) data bMem =
        .ok buf ∧
      ∀ k q i, (askedOrder p dest items r)[k]? = some (q, i) → buf k = data (slot q i) := by
  refine ⟨_, foldlM_requests hdest hfind hr (fun buf k i => Function.update buf k (data i)) bMem,
    ?_⟩
  intro k q i hk
  refine ArrayLoop.foldl_establish (a := k) (Q := fun buf => buf k = data (slot q i)) ?_ ?_ ?_ bMem
  · exact List.mem_range.mpr (List.getElem?_eq_some_iff.mp hk).1
  · intro buf
    rw [Function.update_self, hk, Option.elim_some]
  · intro k' _ hne buf hbuf
    rw [Function.update_of_ne hne.symm]
    exact hbuf

theorem storeAnswers_apply (width : Nat) (record : Nat → Nat → Nat → Int)
    (mem : Nat → RequestMemory E) (hdest : ∀ q, q < p → ∀ i ∈ items q, dest q i < p)
    (hnodup : ∀ r, r < p → (items r).Nodup) {r : Nat} (hr : r < p) (aData data : Nat → E) :
    (∀ k i, (askOrder p (dest r) (items r))[k]? = some i →
      storeAnswers (requestsOf p width dest items record mem r) aData data i = aData k) ∧
    ∀ i, i ∉ items r →
      storeAnswers (requestsOf p width dest items record mem r) aData data i = data i := by
  have hitem : ∀ k i, (askOrder p (dest r) (items r))[k]? = some i →
      (requestsOf p width dest items record mem r).aItem k = i := by
    intro k i hk
    exact packRecords_one (hdest r hr) hk _
  constructor
  · intro k i hk
    refine ArrayLoop.foldl_establish (a := k) (Q := fun data => data i = aData k) ?_ ?_ ?_ data
    · exact List.mem_range.mpr (List.getElem?_eq_some_iff.mp hk).1
    · intro data
      rw [hitem k i hk, Function.update_self]
    · intro k' hk' hne data hdata
      have hlt : k' < (askOrder p (dest r) (items r)).length := List.mem_range.mp hk'
      obtain ⟨i', hi'⟩ : ∃ i', (askOrder p (dest r) (items r))[k']? = some i' :=
        ⟨_, List.getElem?_eq_getElem hlt⟩
      -- two requests are for two items
      have hother : i ≠ i' := by
        intro e
        subst e
        exact hne ((List.getElem?_inj hlt (nodup_askOrder (hnodup r hr))).mp (hi'.trans hk.symm))
      rw [hitem k' i' hi', Function.update_of_ne hother]
      exact hdata
  · intro i hi
    refine List.foldlRecOn (motive := fun d : Nat → E => d i = data i) _ _ rfl ?_
    intro d hd k hk
    obtain ⟨i', hi'⟩ : ∃ i', (askOrder p (dest r) (items r))[k]? = some i' :=
      ⟨_, List.getElem?_eq_getElem (List.mem_range.mp hk)⟩
    have hin : i' ∈ items r := (mem_askOrder (hdest r hr)).mp (List.mem_of_getElem? hi')
    have hother : i ≠ i' := by
      intro e
      exact hi (e ▸ hin)
    rw [hitem k i' hi', Function.update_of_ne hother]
    exact hd

/-- The data of rank `r` with every item of `items` taken from its owner. -/
def fromOwners (dest : Nat → Nat → Nat) (items : Nat → List Nat) (slot : Nat → Nat → Nat)
    (data : Nat → Nat → E) (r : Nat) : Nat → E := fun i =>
  if i ∈ items r then data (dest r i) (slot r i) else data r i

/-- The answers come back to the items. -/
theorem replies_run (record : Nat → Nat → Nat → Int) {t : RefType}
    (mem : Nat → RequestMemory (t.Elem D)) (h : AskFits p width dest items) (hdest : ∀ q, q < p → ∀ i ∈ items q, dest q i < p)
    (hnodup : ∀ r, r < p → (items r).Nodup) {data bData : Nat → Nat → t.Elem D}
    (hdata : ∀ r, r < p → ∀ k q i, (askedOrder p dest items r)[k]? = some (q, i) →
      bData r k = data r (slot q i)) :
    Runs p (fun r => replies p t (requestsOf p width dest items record mem r) (bData r) (data r)
      (mem r).aData) (fromOwners dest items slot data) := by
  apply alltoallv_returned h.one
  refine .ret fun r hr => congrArg _ ?_
  funext i
  obtain ⟨hnew, hold⟩ := storeAnswers_apply width record mem hdest
    hnodup hr (returned p 1 dest items bData (fun r => (mem r).aData) r) (data r)
  rw [fromOwners]
  split
  · rename_i hi
    obtain ⟨k, hk⟩ := List.mem_iff_getElem?.mp ((mem_askOrder (hdest r hr)).mpr hi)
    obtain ⟨k', hk', hback⟩ := returned_apply (E := t.Elem D) hr hk
    have hplace := hback 1 0 bData (fun r => (mem r).aData) Nat.one_pos
    rw [Nat.zero_add, Nat.one_mul, Nat.zero_add, Nat.one_mul] at hplace
    rw [hnew k i hk, hplace]
    exact hdata _ (hdest r hr i hi) k' r i hk'
  · rename_i hi
    exact hold i hi

/-- **The exchange runs** and every item takes the entry of its owner. -/
theorem askOwners_run {t : RefType} (mem : Nat → RequestMemory (t.Elem D)) (hp : 1 < p)
    (h : AskFits p width dest items) (hdest : ∀ q, q < p → ∀ i ∈ items q, dest q i < p)
    (hnodup : ∀ r, r < p → (items r).Nodup) (hfind : Finds p width dest items record find slot)
    (data : Nat → Nat → t.Elem D) :
    Runs p (fun r => askOwners p width t (dest r) (items r) (record r) (find r) (data r) (mem r))
      (fromOwners dest items slot data) := by
  have hnonempty : Nonempty (Nat → t.Elem D) := ⟨data 0⟩
  choose! buf hanswer hbuf using fun r (hr : r < p) =>
    answerRequests_ok mem hdest hfind hr (data r) (mem r).bData
  have hreplies := replies_run record mem h hdest hnodup hbuf
  refine Runs.congr ((requests_run record h mem).bind (f := fun r req =>
    (Prog.lift (answerRequests width req (find r) (data r) (mem r).bData)).bind fun bData =>
      replies p t req bData (data r) (mem r).aData) (hreplies.congr ?_)) ?_
  · intro r hr
    rw [hanswer r hr]
    rfl
  · intro r hr
    rw [askOwners, if_neg (by omega)]

/-- A program goes on only after requests that fit. -/
theorem askFits_of_runs {α : Type} {t : RefType} {mem : Nat → RequestMemory (t.Elem D)}
    {data : Nat → Nat → t.Elem D} {f : Nat → (Nat → t.Elem D) → RankProg D α} {out : Nat → α}
    (hwidth : 0 < width) (hp : 1 < p)
    (hrun : Runs p (fun r => (askOwners p width t (dest r) (items r) (record r) (find r) (data r)
      (mem r)).bind (f r)) out) : AskFits p width dest items := by
  have hrequests : Runs p (fun r => (requests p width (dest r) (items r) (record r)
      (mem r)).bind fun req =>
        ((Prog.lift (answerRequests width req (find r) (data r) (mem r).bData)).bind fun bData =>
          replies p t req bData (data r) (mem r).aData).bind (f r)) out := by
    apply hrun.congr
    intro r _
    rw [askOwners, if_neg (by omega), Prog.bind_assoc]
  exact ⟨hwidth, fun r hr => (fits_of_runs_requests record mem hr hrequests).1,
    fun r hr => (fits_of_runs_requests record mem hr hrequests).2⟩

/-- No program goes on after requests that do not fit. -/
theorem not_runs_askOwners_bind {α : Type} {t : RefType} {mem : Nat → RequestMemory (t.Elem D)}
    {data : Nat → Nat → t.Elem D} {f : Nat → (Nat → t.Elem D) → RankProg D α} {out : Nat → α}
    (hp : 1 < p) {r : Nat} (hr : r < p)
    (hover : refIntMax < width * (askedOrder p dest items r).length) :
    ¬ Runs p (fun r => (askOwners p width t (dest r) (items r) (record r) (find r) (data r)
      (mem r)).bind (f r)) out := by
  intro hrun
  refine not_runs_of_requests_overflow record mem (f := fun r req =>
    ((Prog.lift (answerRequests width req (find r) (data r) (mem r).bData)).bind fun bData =>
      replies p t req bData (data r) (mem r).aData).bind (f r)) hr hover (hrun.congr ?_)
  intro r _
  rw [askOwners, if_neg (by omega), Prog.bind_assoc]

theorem not_runs_askOwners_of_overflow {t : RefType} {mem : Nat → RequestMemory (t.Elem D)}
    {data out : Nat → Nat → t.Elem D} (hp : 1 < p) {r : Nat} (hr : r < p)
    (hover : refIntMax < width * (askedOrder p dest items r).length) :
    ¬ Runs p (fun r => askOwners p width t (dest r) (items r) (record r) (find r) (data r) (mem r))
      out := by
  intro hrun
  have hbind : Runs p (fun r => (askOwners p width t (dest r) (items r) (record r) (find r) (data r)
      (mem r)).bind .ret) out := hrun.congr fun r _ => Prog.bind_ret _
  exact not_runs_askOwners_bind hp hr hover hbind

end Runs

/-- When rank 0 owns all items and every other rank asks for `k` of them, rank
0 is asked for `k` items by each. -/
theorem asked_of_shared {dest : Nat → Nat → Nat} {items : Nat → List Nat} {k : Nat}
    (hdest : ∀ q e, dest q e = 0) (hzero : items 0 = [])
    (hitems : ∀ q, q ≠ 0 → (items q).length = k) (p r : Nat) :
    ∑ q ∈ Finset.range (p + 1), (group (dest q) (items q) r).length =
      if r = 0 then p * k else 0 := by
  have hgroup : ∀ q, group (dest q) (items q) r = if r = 0 then items q else [] := by
    intro q
    by_cases hr : r = 0
    · simp [group, hdest, hr]
    · have hr' : ¬ 0 = r := fun e => hr e.symm
      simp [group, hdest, hr, hr']
  rw [Finset.sum_range_succ', hgroup, hzero]
  have hterm : ∀ q ∈ Finset.range p, (group (dest (q + 1)) (items (q + 1)) r).length =
      if r = 0 then k else 0 := by
    intro q _
    rw [hgroup]
    split
    · exact hitems (q + 1) (Nat.succ_ne_zero q)
    · rfl
  rw [Finset.sum_congr rfl hterm]
  by_cases hr : r = 0
  · simp [hr]
  · simp [hr]

end RefineMesh
