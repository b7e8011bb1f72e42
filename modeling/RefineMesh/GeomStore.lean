import Mathlib.Tactic
import RefineMesh.Grid
import RefineMesh.CellInvariant

/-!
# The geometry association store

A record of `ref_geom.c` says that a node lies on a geometry node, edge or face
with some id and parameters.  The records are rows of a slot array; a row whose
type is `REF_EMPTY` is free and its id column links it to the next free row.
An adjacency lists the records of a node.
-/

namespace RefineMesh

open SlotList

namespace RefGeom

/-- `REF_GEOM_DESCR_GREF`. -/
def descrGref : Nat := 2

/-- `REF_GEOM_DESCR_JUMP`. -/
def descrJump : Nat := 3

/-- `REF_GEOM_DESCR_DEGEN`. -/
def descrDegen : Nat := 4

/-- `REF_GEOM_DESCR_SIZE`. -/
def descrSize : Nat := 6

/-- A row that holds a record. -/
def Live (s : RefGeom) (geom : Nat) : Prop := geom < s.max ∧ s.descr geom descrType ≠ refEmpty

instance (s : RefGeom) : DecidablePred s.Live :=
  fun geom => inferInstanceAs (Decidable (geom < s.max ∧ s.descr geom descrType ≠ refEmpty))

/-- The rows `orig` to `size` linked into a blank list. -/
def linkRows (orig size : Nat) (descr : Nat → Nat → Int) : Nat → Nat → Int :=
  fun geom attr =>
    if attr = descrType then
      if orig ≤ geom ∧ geom < size then refEmpty else descr geom descrType
    else if attr = descrId then
      linkFresh plainLink refEmpty orig size (fun k => descr k descrId) geom
    else descr geom attr

/-- `ref_geom_create` with `ref_geom_initialize`, over memory `mem`. -/
def create (mem : RefGeom) : RefGeom :=
  let max := 10
  { n := 0
    max := max
    descr := linkRows 0 max mem.descr
    blank := 0
    adj := RefAdj.create mem.adj }

/-- `ref_geom_grow`. -/
def grow (s : RefGeom) : Except Status RefGeom :=
  let maxLimit := refIntMax / 3
  if s.blank ≠ refEmpty then .ok s
  else if s.max = maxLimit then .error .failure
  else
    let orig := s.max
    let chunk := Nat.max 1000 (3 * orig / 2)
    if maxLimit ≤ orig then .error .failure
    else
      let chunk := Nat.min chunk (maxLimit - orig)
      let max := orig + chunk
      if refIntMax < descrSize * max then .error .undefined
      else
        .ok { s with
          max := max
          descr := linkRows orig max s.descr
          blank := orig }

/-- `ref_geom_find`. -/
def find (s : RefGeom) (node type id : Int) : Except Status Int :=
  match (s.adj.refs node).find? fun geom =>
      type = s.descr geom.toNat descrType ∧ id = s.descr geom.toNat descrId with
  | some geom => .ok geom
  | none => .error .notFound

/-- The row that `ref_geom_add` writes. -/
def freshRow (row : Nat → Int) (node type id : Int) : Nat → Int := fun attr =>
  if attr = descrType then type
  else if attr = descrId then id
  else if attr = descrGref then id
  else if attr = descrJump then 0
  else if attr = descrDegen then 0
  else if attr = descrNode then node
  else row attr

/-- The part of `ref_geom_add` after the key was not found, but for the
parameters; the second result is the row. -/
def addRow (s : RefGeom) (node type id : Int) : Except Status (RefGeom × Nat) := do
  let grown : Except Status RefGeom := if s.blank = refEmpty then s.grow else .ok s
  let s ← grown
  let geom := s.blank.toNat
  let blank := s.descr geom descrId
  let adj ← s.adj.add node geom
  .ok ({ s with
    n := s.n + 1
    descr := Function.update s.descr geom (freshRow (s.descr geom) node type id)
    blank := blank
    adj := adj }, geom)

/-- The groups of `each_ref_grid_edge_ref_cell`. -/
def edgeCells : List CellType := [.edg, .ed2, .ed3]

/-- The groups of `each_ref_grid_face_ref_cell`. -/
def faceCells : List CellType := [.tri, .tr2, .tr3]

/-- The loop over the groups that sets `supported_by_cell`. -/
def supportedByCell (cell : CellType → RefCell) (groups : List CellType) (node : Int) : Bool :=
  groups.any fun t => (cell t).adj.firstItem node ≠ refEmpty

/-- The `while` of `ref_geom_remove_without_cell` from the item `item` on, cut
off after `fuel` rounds. -/
def removeWithoutCellLoop (cell : CellType → RefCell) (node : Int) :
    Nat → Int → RefGeom → Option (Except Status RefGeom)
  | 0, _, _ => none
  | fuel+1, item, s =>
      if item = refEmpty then some (.ok s)
      else
        let geom := s.adj.itemRef item.toNat
        let type := s.descr geom.toNat descrType
        let removeAndRestart : Option (Except Status RefGeom) :=
          match s.remove geom with
          | .ok s => removeWithoutCellLoop cell node fuel (s.adj.firstItem node) s
          | .error status => some (.error status)
        if type = GeomType.node.code then
          removeWithoutCellLoop cell node fuel (s.adj.itemNext item.toNat) s
        else if type = GeomType.edge.code then
          if supportedByCell cell edgeCells node then
            removeWithoutCellLoop cell node fuel (s.adj.itemNext item.toNat) s
          else removeAndRestart
        else if type = GeomType.face.code then
          if supportedByCell cell faceCells node then
            removeWithoutCellLoop cell node fuel (s.adj.itemNext item.toNat) s
          else removeAndRestart
        else some (.error .implement)

/-- `ref_geom_remove_without_cell`. -/
def removeWithoutCell (cell : CellType → RefCell) (node : Int) (fuel : Nat) (s : RefGeom) :
    Option (Except Status RefGeom) :=
  removeWithoutCellLoop cell node fuel (s.adj.firstItem node) s

/-! ## The invariant of the rows -/

/-- Whether the row is a record of the node, as a multiplicity. -/
def occupancy (s : RefGeom) (geom : Nat) (v : Int) : Nat :=
  if s.Live geom ∧ s.descr geom descrNode = v then 1 else 0

theorem occupancy_congr {s s' : RefGeom} {k : Nat} {v : Int}
    (h : s'.Live k ∧ s'.descr k descrNode = v ↔ s.Live k ∧ s.descr k descrNode = v) :
    s'.occupancy k v = s.occupancy k v :=
  if_congr h rfl rfl

/-- The adjacency lists the records, the blank list has the other rows, `n`
counts the records and no two have one node, type and id. -/
structure GeomInv (s : RefGeom) : Prop where
  registers : Registers s.adj s.occupancy
  blank : FreeList plainLink refEmpty (fun k => s.descr k descrId) s.blank
    (fun k => k < s.max ∧ ¬ s.Live k)
  count : liveCount s.max s.Live = s.n
  types : ∀ k, s.Live k → 0 ≤ s.descr k descrType ∧ s.descr k descrType ≤ 2
  unique : ∀ k j, s.Live k → s.Live j → s.descr k descrNode = s.descr j descrNode →
    s.descr k descrType = s.descr j descrType → s.descr k descrId = s.descr j descrId → k = j

/-- The list of a node has exactly its records. -/
theorem GeomInv.mem_refs_iff {s : RefGeom} (h : s.GeomInv) {v r : Int} :
    r ∈ s.adj.refs v ↔ ∃ k : Nat, r = k ∧ s.Live k ∧ s.descr k descrNode = v := by
  constructor
  · intro hr
    obtain ⟨k, rfl⟩ := Int.eq_ofNat_of_zero_le (h.registers.cells v r hr)
    have hcount : 0 < s.occupancy k v := by
      rw [← h.registers.count v k]
      exact List.count_pos_iff.mpr hr
    by_cases hk : s.Live k ∧ s.descr k descrNode = v
    · exact ⟨k, rfl, hk.1, hk.2⟩
    · simp [occupancy, hk] at hcount
  · rintro ⟨k, rfl, hlive, hnode⟩
    apply List.count_pos_iff.mp
    rw [h.registers.count v k, occupancy, if_pos ⟨hlive, hnode⟩]
    exact Nat.one_pos

/-- Each of them once. -/
theorem GeomInv.nodup_refs {s : RefGeom} (h : s.GeomInv) (v : Int) : (s.adj.refs v).Nodup := by
  rw [List.nodup_iff_count_le_one]
  intro r
  by_cases hr : r ∈ s.adj.refs v
  · obtain ⟨k, rfl, -, -⟩ := h.mem_refs_iff.mp hr
    rw [h.registers.count v k, occupancy]
    split_ifs <;> omega
  · rw [List.count_eq_zero.mpr hr]
    exact Nat.zero_le 1

/-- **`ref_geom_find`** answers the record of the key, or `REF_NOT_FOUND` when
there is none. -/
theorem GeomInv.find_spec {s : RefGeom} (h : s.GeomInv) (node type id : Int) :
    (∃ k : Nat, s.find node type id = .ok k ∧ s.Live k ∧ s.descr k descrNode = node ∧
        s.descr k descrType = type ∧ s.descr k descrId = id) ∨
      (s.find node type id = .error .notFound ∧ ∀ k, s.Live k → s.descr k descrNode = node →
        s.descr k descrType = type → s.descr k descrId ≠ id) := by
  rw [find]
  cases hfind : (s.adj.refs node).find? fun geom =>
      type = s.descr geom.toNat descrType ∧ id = s.descr geom.toNat descrId with
  | some r =>
      obtain ⟨k, rfl, hlive, hnode⟩ := h.mem_refs_iff.mp (List.mem_of_find?_eq_some hfind)
      have hkey := List.find?_some hfind
      simp only [Int.toNat_natCast, decide_eq_true_eq] at hkey
      exact Or.inl ⟨k, rfl, hlive, hnode, hkey.1.symm, hkey.2.symm⟩
  | none =>
      refine Or.inr ⟨rfl, fun k hlive hnode htype hid => ?_⟩
      have hno := List.find?_eq_none.mp hfind k (h.mem_refs_iff.mpr ⟨k, rfl, hlive, hnode⟩)
      simp [htype, hid] at hno

/-! ## Growth -/

theorem linkRows_type_iff {orig size : Nat} {descr : Nat → Nat → Int} {k : Nat} :
    linkRows orig size descr k descrType ≠ refEmpty ↔
      ¬ (orig ≤ k ∧ k < size) ∧ descr k descrType ≠ refEmpty := by
  by_cases hk : orig ≤ k ∧ k < size
  · simp [linkRows, hk]
  · simp [linkRows, hk]

theorem linkRows_old {orig size : Nat} (descr : Nat → Nat → Int) {k : Nat} (hlt : orig < size)
    (hk : k < orig) : linkRows orig size descr k = descr k := by
  funext attr
  by_cases htype : attr = descrType
  · rw [linkRows, if_pos htype, if_neg (by omega), htype]
  · by_cases hid : attr = descrId
    · rw [linkRows, if_neg htype, if_pos hid, hid]
      exact linkFresh_old hlt hk
    · rw [linkRows, if_neg htype, if_neg hid]

theorem linkRows_id (orig size : Nat) (descr : Nat → Nat → Int) :
    (fun k => linkRows orig size descr k descrId) =
      linkFresh plainLink refEmpty orig size fun k => descr k descrId := by
  funext k
  simp [linkRows, descrId, descrType]

theorem create_dead (mem : RefGeom) (k : Nat) : ¬ (create mem).Live k := fun hk =>
  (linkRows_type_iff.mp hk.2).1 ⟨Nat.zero_le k, hk.1⟩

theorem create_inv (mem : RefGeom) : (create mem).GeomInv := by
  have hdead := create_dead mem
  have hadj := RefAdj.create_inv mem.adj
  have hrefs : ∀ v, (create mem).adj.refs v = [] := fun v => by
    change (RefAdj.create mem.adj).refs v = []
    rw [RefAdj.refs, hadj.2 v]
    rfl
  refine ⟨⟨hadj.1, fun v k => ?_, fun v r hr => ?_⟩, ?_, ?_, fun k hk => absurd hk (hdead k),
    fun k _ hk => absurd hk (hdead k)⟩
  · rw [hrefs v, occupancy, if_neg fun hk => hdead k hk.1]
    rfl
  · rw [hrefs v] at hr
    cases hr
  · change FreeList plainLink refEmpty (fun k => linkRows 0 10 mem.descr k descrId) 0 _
    rw [linkRows_id]
    refine (freeList_linkFresh plainLink refEmpty (fun k => mem.descr k descrId)
      (show 0 < 10 by omega)).congr (fun k => ?_) (fun _ _ => rfl)
    have hk := hdead k
    change k < 10 ∧ _ ↔ _
    simp [hk]
  · simp only [liveCount, hdead, Finset.filter_false, Finset.card_empty]
    rfl

/-- Growing adds blank rows and changes no record. -/
theorem grow_spec {s s' : RefGeom} (h : s.GeomInv) (hrun : s.grow = .ok s') :
    s'.GeomInv ∧ s'.blank ≠ refEmpty ∧ (∀ k, s'.Live k ↔ s.Live k) ∧
      (∀ k, s.Live k → s'.descr k = s.descr k) := by
  by_cases hblank : s.blank = refEmpty
  swap
  · simp only [grow, hblank, ne_eq, not_false_iff, if_true, Except.ok.injEq] at hrun
    subst hrun
    exact ⟨h, hblank, fun _ => Iff.rfl, fun _ _ => rfl⟩
  by_cases hlimit : s.max = refIntMax / 3
  · simp [grow, hblank, hlimit] at hrun
  by_cases hlimit' : refIntMax / 3 ≤ s.max
  · simp [grow, hblank, hlimit, hlimit'] at hrun
  simp only [grow, hblank, hlimit, hlimit', ne_eq, not_true, if_false] at hrun
  set size := s.max + Nat.min (Nat.max 1000 (3 * s.max / 2)) (refIntMax / 3 - s.max) with hsize
  by_cases hover : refIntMax < descrSize * size
  · simp [hover] at hrun
  simp only [hover, if_false, Except.ok.injEq] at hrun
  have hlt : s.max < size := by
    have hchunk : 0 < Nat.min (Nat.max 1000 (3 * s.max / 2)) (refIntMax / 3 - s.max) := by
      have : 1000 ≤ Nat.max 1000 (3 * s.max / 2) := Nat.le_max_left _ _
      exact Nat.lt_min.mpr ⟨by omega, by omega⟩
    omega
  -- with the blank list exhausted every old row is a record
  have hfull : ∀ k, k < s.max → s.Live k := by
    intro k hk
    by_contra hdead
    exact (h.blank.eq_stop_iff plainLink_ne_refEmpty).mp hblank k ⟨hk, hdead⟩
  have hmax : s'.max = size := by rw [← hrun]
  have hdescr : s'.descr = linkRows s.max size s.descr := by rw [← hrun]
  have hold : ∀ k, k < s.max → s'.descr k = s.descr k := fun k hk => by
    rw [hdescr, linkRows_old s.descr hlt hk]
  have hlive : ∀ k, s'.Live k ↔ s.Live k := by
    intro k
    by_cases hk : k < s.max
    · rw [Live, Live, hold k hk, hmax]
      exact ⟨fun hl => ⟨hk, hl.2⟩, fun hl => ⟨hk.trans hlt, hl.2⟩⟩
    · refine ⟨fun hl => ?_, fun hl => absurd hl.1 hk⟩
      have hbound := hl.1
      have htype := hl.2
      rw [hmax] at hbound
      rw [hdescr] at htype
      exact absurd ⟨not_lt.mp hk, hbound⟩ (linkRows_type_iff.mp htype).1
  have hrow : ∀ k, s.Live k → s'.descr k = s.descr k := fun k hk => hold k hk.1
  refine ⟨⟨?_, ?_, ?_, ?_, ?_⟩, ?_, hlive, hrow⟩
  · have hadj : s'.adj = s.adj := by rw [← hrun]
    rw [hadj]
    refine h.registers.congr fun k v => occupancy_congr ?_
    rw [hlive k]
    exact and_congr_right fun hk => by rw [hrow k hk]
  · have hb : s'.blank = plainLink s.max := by
      rw [← hrun]
      rfl
    rw [hb, hmax, hdescr, linkRows_id]
    refine (freeList_linkFresh plainLink refEmpty (fun k => s.descr k descrId) hlt).congr
      (fun k => ?_) (fun _ _ => rfl)
    rw [hlive k]
    constructor
    · intro hk
      exact ⟨by by_contra hsmall; exact hk.2 (hfull k (by omega)), hk.1⟩
    · intro hk
      exact ⟨hk.2, fun hl => absurd hl.1 (by omega)⟩
  · have hn : s'.n = s.n := by rw [← hrun]
    rw [hn, ← h.count]
    refine liveCount_congr fun k => ?_
    rw [hlive k]
    exact ⟨fun hk => ⟨hk.2.1, hk.2⟩, fun hk => ⟨((hlive k).mpr hk.2).1, hk.2⟩⟩
  · intro k hk
    rw [hrow k ((hlive k).mp hk)]
    exact h.types k ((hlive k).mp hk)
  · intro k j hk hj
    rw [hrow k ((hlive k).mp hk), hrow j ((hlive j).mp hj)]
    exact h.unique k j ((hlive k).mp hk) ((hlive j).mp hj)
  · rw [← hrun]
    exact natCast_ne_refEmpty _

/-! ## Adding and removing a record -/

/-- **A new record** of a key that had none. -/
theorem addRow_spec {s s' : RefGeom} {node type id : Int} {geom : Nat} (h : s.GeomInv)
    (htype : 0 ≤ type ∧ type ≤ 2)
    (hfresh : ∀ k, s.Live k → s.descr k descrNode = node → s.descr k descrType = type →
      s.descr k descrId ≠ id)
    (hrun : s.addRow node type id = .ok (s', geom)) :
    s'.GeomInv ∧ ¬ s.Live geom ∧ (∀ k, s'.Live k ↔ s.Live k ∨ k = geom) ∧
      (∀ k, s.Live k → s'.descr k = s.descr k) ∧
      ∃ row, s'.descr geom = freshRow row node type id := by
  obtain ⟨s1, hgrow, hrest⟩ := bind_eq_ok.mp hrun
  obtain ⟨adj, hadj, hret⟩ := bind_eq_ok.mp hrest
  have hgrown : s1.GeomInv ∧ s1.blank ≠ refEmpty ∧ (∀ k, s1.Live k ↔ s.Live k) ∧
      (∀ k, s.Live k → s1.descr k = s.descr k) := by
    by_cases hblank : s.blank = refEmpty
    · rw [if_pos hblank] at hgrow
      exact grow_spec h hgrow
    · rw [if_neg hblank, Except.ok.injEq] at hgrow
      subst hgrow
      exact ⟨h, hblank, fun _ => Iff.rfl, fun _ _ => rfl⟩
  obtain ⟨h1, hblank, hlive1, hrow1⟩ := hgrown
  obtain ⟨k, hk, hfree, hchain⟩ := h1.blank.pop hblank
  simp only [Except.ok.injEq, Prod.mk.injEq] at hret
  obtain ⟨hs', hgeom⟩ := hret
  have hkg : k = geom := by rw [← hgeom, hk, toNat_plainLink]
  subst hkg
  rw [hgeom] at hs' hadj
  obtain ⟨hnode, hreg⟩ := h1.registers.add hadj
  have hself : s'.descr k = freshRow (s1.descr k) node type id := by
    rw [← hs']
    exact Function.update_self ..
  have hother : ∀ j, j ≠ k → s'.descr j = s1.descr j := by
    intro j hj
    rw [← hs']
    exact Function.update_of_ne hj _ _
  have hmax : s'.max = s1.max := by rw [← hs']
  have hktype : s'.descr k descrType = type := by rw [hself]; rfl
  have hkid : s'.descr k descrId = id := by rw [hself]; rfl
  have hknode : s'.descr k descrNode = node := by rw [hself]; rfl
  have hlivek : s'.Live k := by
    refine ⟨by rw [hmax]; exact hfree.1, ?_⟩
    rw [hktype]
    unfold refEmpty
    omega
  have hlive : ∀ j, s'.Live j ↔ s1.Live j ∨ j = k := by
    intro j
    by_cases hj : j = k
    · subst hj
      simp [hlivek]
    · rw [Live, Live, hmax, hother j hj]
      simp [hj]
  have hdead : ¬ s.Live k := fun hl => hfree.2 ((hlive1 k).mpr hl)
  refine ⟨⟨?_, ?_, ?_, ?_, ?_⟩, hdead, fun j => by rw [hlive j, hlive1 j], fun j hj => ?_,
    s1.descr k, hself⟩
  · have hadj' : s'.adj = adj := by rw [← hs']
    rw [hadj']
    refine hreg.congr fun j v => ?_
    by_cases hj : j = k
    · subst hj
      have hzero : s1.occupancy j v = 0 := if_neg fun hl => hfree.2 hl.1
      rw [hzero, occupancy, hknode, Nat.zero_add]
      exact if_congr (by simp [hlivek, eq_comm]) rfl rfl
    · rw [if_neg fun hl => hj hl.1, Nat.add_zero]
      exact occupancy_congr (by rw [hlive j, hother j hj]; simp [hj])
  · have hb : s'.blank = s1.descr k descrId := by rw [← hs']
    rw [hb]
    refine hchain.congr (fun j => ?_) (fun j hj => by rw [hother j hj.2])
    rw [hmax, hlive j]
    tauto
  · rw [hmax, liveCount_insert hfree.1 hfree.2 hlive, h1.count, ← hs']
  · intro j hj
    rcases (hlive j).mp hj with hl | rfl
    · rw [hother j fun heq => hfree.2 (heq ▸ hl)]
      exact h1.types j hl
    · rw [hktype]
      exact htype
  · -- the key of the new record is new
    have hnew : ∀ j, s1.Live j → s'.descr j descrNode = node → s'.descr j descrType = type →
        s'.descr j descrId ≠ id := by
      intro j hj
      have hjk : j ≠ k := fun heq => hfree.2 (heq ▸ hj)
      rw [hother j hjk, hrow1 j ((hlive1 j).mp hj)]
      exact hfresh j ((hlive1 j).mp hj)
    intro i j hi hj hnodes htypes hids
    rcases (hlive i).mp hi with hi1 | rfl
    · rcases (hlive j).mp hj with hj1 | rfl
      · have hik : i ≠ k := fun heq => hfree.2 (heq ▸ hi1)
        have hjk : j ≠ k := fun heq => hfree.2 (heq ▸ hj1)
        rw [hother i hik, hother j hjk] at hnodes htypes hids
        exact h1.unique i j hi1 hj1 hnodes htypes hids
      · exact absurd (hids.trans hkid) (hnew i hi1 (hnodes.trans hknode) (htypes.trans hktype))
    · rcases (hlive j).mp hj with hj1 | rfl
      · exact absurd (hids.symm.trans hkid)
          (hnew j hj1 (hnodes.symm.trans hknode) (htypes.symm.trans hktype))
      · rfl
  · rw [hother j fun heq => hdead (heq ▸ hj), hrow1 j hj]

/-- The records of `s'` are those of `s` that satisfy `keep`, unchanged. -/
structure Keeps (s s' : RefGeom) (keep : Nat → Prop) : Prop where
  live : ∀ k, s'.Live k ↔ s.Live k ∧ keep k
  row : ∀ k, s'.Live k → s'.descr k = s.descr k

theorem Keeps.trans {s s' s'' : RefGeom} {keep keep' : Nat → Prop} (h : s.Keeps s' keep)
    (h' : s'.Keeps s'' keep') : s.Keeps s'' fun k => keep k ∧ keep' k := by
  refine ⟨fun k => by rw [h'.live k, h.live k, and_assoc], fun k hk => ?_⟩
  rw [h'.row k hk, h.row k ((h'.live k).mp hk).1]

theorem Keeps.congr {s s' : RefGeom} {keep keep' : Nat → Prop} (h : s.Keeps s' keep)
    (hkeep : ∀ k, s.Live k → (keep k ↔ keep' k)) : s.Keeps s' keep' :=
  ⟨fun k => (h.live k).trans (and_congr_right (hkeep k)), h.row⟩

/-- **`ref_geom_remove`** succeeds on every record and leaves the others
alone. -/
theorem remove_spec {s : RefGeom} (h : s.GeomInv) {k : Nat} (hk : s.Live k) :
    ∃ s', s.remove k = .ok s' ∧ s'.GeomInv ∧ s.Keeps s' (· ≠ k) ∧ s'.n + 1 = s.n := by
  obtain ⟨adj, hadj, hreg, -, -⟩ := h.registers.remove (v := s.descr k descrNode) (c := k) (by
    rw [occupancy, if_pos ⟨hk, rfl⟩]
    exact Nat.one_pos)
  set row := Function.update (Function.update (s.descr k) descrType refEmpty) descrId s.blank
    with hrow
  set s' : RefGeom := { s with
    n := s.n - 1
    descr := Function.update s.descr k row
    blank := k
    adj := adj } with hs'
  have hrun : s.remove k = .ok s' := by
    have hin : ¬ ((k : Int) < 0 ∨ (s.max : Int) ≤ k) := by
      have := hk.1
      omega
    rw [remove, if_neg hin, Int.toNat_natCast, if_neg hk.2, hadj]
    rfl
  have hother : ∀ j, j ≠ k → s'.descr j = s.descr j := fun j hj => Function.update_of_ne hj _ _
  have hself : s'.descr k = row := Function.update_self ..
  have hdead : ¬ s'.Live k := by
    rintro ⟨-, htype⟩
    rw [hself] at htype
    exact htype (by simp [hrow, descrType, descrId])
  have hlive : ∀ j, s'.Live j ↔ s.Live j ∧ j ≠ k := by
    intro j
    by_cases hj : j = k
    · subst hj
      simp [hdead]
    · rw [Live, Live, hother j hj]
      simp [hj, hs']
  have hkept : ∀ j, s'.Live j → s'.descr j = s.descr j := fun j hj =>
    hother j ((hlive j).mp hj).2
  refine ⟨s', hrun, ⟨?_, ?_, ?_, ?_, ?_⟩, ⟨hlive, hkept⟩, ?_⟩
  · refine hreg.congr fun j v => ?_
    by_cases hj : j = k
    · subst hj
      rw [occupancy, if_neg fun hl => hdead hl.1, occupancy]
      by_cases hv : s.descr j descrNode = v
      · simp [hv, hk]
      · simp [hv]
    · rw [if_neg fun hl => hj hl.1, Nat.sub_zero]
      exact occupancy_congr (by rw [hlive j, hother j hj]; simp [hj])
  · have hpush := h.blank.push (k := k) fun hfree => hfree.2 hk
    refine hpush.congr (fun j => ?_) (fun j hj => ?_)
    · rw [hlive j]
      have := hk.1
      constructor
      · rintro ⟨hlt, hl⟩
        by_cases hj : j = k
        · exact Or.inr hj
        · exact Or.inl ⟨hlt, fun hl' => hl ⟨hl', hj⟩⟩
      · rintro (⟨hlt, hl⟩ | rfl)
        · exact ⟨hlt, fun hl' => hl hl'.1⟩
        · exact ⟨this, fun hl' => hl'.2 rfl⟩
    · by_cases hjk : j = k
      · subst hjk
        rw [hself, Function.update_self, hrow]
        exact Function.update_self ..
      · rw [hother j hjk, Function.update_of_ne hjk]
  · have hcount := liveCount_erase hk.1 hk hlive
    rw [h.count] at hcount
    change liveCount s.max s'.Live = s.n - 1
    omega
  · intro j hj
    rw [hkept j hj]
    exact h.types j ((hlive j).mp hj).1
  · intro i j hi hj
    rw [hkept i hi, hkept j hj]
    exact h.unique i j ((hlive i).mp hi).1 ((hlive j).mp hj).1
  · have hcount := liveCount_erase hk.1 hk hlive
    rw [h.count] at hcount
    change s.n - 1 + 1 = s.n
    omega

/-- A removal that succeeds was of a record. -/
theorem live_of_remove {s s' : RefGeom} {geom : Int} (hrun : s.remove geom = .ok s') :
    ∃ k : Nat, geom = k ∧ s.Live k := by
  by_cases hout : geom < 0 ∨ (s.max : Int) ≤ geom
  · simp [remove, hout] at hrun
  by_cases hfree : s.descr geom.toNat descrType = refEmpty
  · simp [remove, hout, hfree] at hrun
  · exact ⟨geom.toNat, by omega, by omega, hfree⟩

/-! ## The loops over the records of a node -/

/-- Where a walk over the records of a node stands, there is a record. -/
theorem GeomInv.record_at {s : RefGeom} (h : s.GeomInv) {node : Int} (done : List Nat)
    {rest : List Nat} {it : Nat} (hitems : s.adj.items node = done ++ it :: rest) :
    ∃ k : Nat, s.adj.itemRef it = k ∧ s.Live k ∧ s.descr k descrNode = node := by
  have hmem : s.adj.itemRef it ∈ s.adj.refs node := by
    rw [RefAdj.refs, hitems]
    exact List.mem_map.mpr ⟨it, by simp, rfl⟩
  exact h.mem_refs_iff.mp hmem

/-- **`ref_geom_remove_all`** ends and removes exactly the records of the
node.  Every round removes one record. -/
theorem removeAll_spec (node : Int) :
    ∀ n (s : RefGeom), s.GeomInv → s.n = n → ∃ fuel s', removeAll node fuel s = some (.ok s') ∧
      s'.GeomInv ∧ s.Keeps s' fun k => s.descr k descrNode ≠ node := by
  intro n
  induction n with
  | zero =>
      intro s h hn
      have hnone : ∀ k, ¬ s.Live k := by
        intro k hk
        obtain ⟨s', -, -, -, hcount⟩ := remove_spec h hk
        omega
      refine ⟨1, s, ?_, h, fun k => ⟨fun hk => absurd hk (hnone k), fun hk => hk.1⟩, fun _ _ => rfl⟩
      have hfirst : s.adj.firstItem node = refEmpty := by
        rw [← h.registers.inv.items_eq_nil_iff node]
        cases hitems : s.adj.items node with
        | nil => rfl
        | cons it rest =>
            obtain ⟨k, -, hk, -⟩ := h.record_at [] hitems
            exact absurd hk (hnone k)
      rw [removeAll, if_pos hfirst]
  | succ n ih =>
      intro s h hn
      cases hitems : s.adj.items node with
      | nil =>
          refine ⟨1, s, ?_, h, fun k => ⟨fun hk => ⟨hk, fun hnode => ?_⟩, fun hk => hk.1⟩,
            fun _ _ => rfl⟩
          · rw [removeAll, if_pos ((h.registers.inv.items_eq_nil_iff node).mp hitems)]
          · have hmem := h.mem_refs_iff.mpr ⟨k, rfl, hk, hnode⟩
            rw [RefAdj.refs, hitems] at hmem
            cases hmem
      | cons it rest =>
          have hchain := h.registers.inv.chain node
          rw [hitems] at hchain
          obtain ⟨k, href, hk, hnode⟩ := h.record_at [] hitems
          obtain ⟨s1, hrun, h1, hkeep1, hcount⟩ := remove_spec h hk
          obtain ⟨fuel, s', hloop, h', hkeep'⟩ := ih s1 h1 (by omega)
          refine ⟨fuel + 1, s', ?_, h', ?_⟩
          · have hfirst : s.adj.firstItem node = (it : Int) := hchain.1
            rw [removeAll, if_neg (by rw [hfirst]; exact natCast_ne_refEmpty it), hfirst,
              Int.toNat_natCast, href, hrun]
            exact hloop
          · refine (hkeep1.trans hkeep').congr fun j hj => ?_
            by_cases hjk : j = k
            · subst hjk
              simp [hnode]
            · simp [hjk, hkeep1.row j ((hkeep1.live j).mpr ⟨hj, hjk⟩)]

/-- What `ref_geom_remove_without_cell` asks of a record of the node. -/
def supports (cell : CellType → RefCell) (node type : Int) : Bool :=
  if type = GeomType.edge.code then supportedByCell cell edgeCells node
  else if type = GeomType.face.code then supportedByCell cell faceCells node
  else true

/-- One round of the loop at a record: pass on, or remove and start again. -/
theorem removeWithoutCellLoop_succ {cell : CellType → RefCell} {node : Int} {s : RefGeom}
    (h : s.GeomInv) {it k : Nat} (href : s.adj.itemRef it = k) (hk : s.Live k) (fuel : Nat) :
    removeWithoutCellLoop cell node (fuel + 1) it s =
      if supports cell node (s.descr k descrType) then
        removeWithoutCellLoop cell node fuel (s.adj.itemNext it) s
      else
        match s.remove k with
        | .ok s => removeWithoutCellLoop cell node fuel (s.adj.firstItem node) s
        | .error status => some (.error status) := by
  obtain ⟨hlow, hhigh⟩ := h.types k hk
  rw [removeWithoutCellLoop, if_neg (natCast_ne_refEmpty it)]
  simp only [Int.toNat_natCast, href]
  have hcases : s.descr k descrType = 0 ∨ s.descr k descrType = 1 ∨ s.descr k descrType = 2 := by
    omega
  rcases hcases with htype | htype | htype
  · simp [supports, htype, GeomType.code]
  · simp [supports, htype, GeomType.code]
  · simp [supports, htype, GeomType.code]

/-- **The walk with removals.**  The records before the current item are kept
for good; a removal starts the walk again on a shorter list.  The outer
induction is on the number of records, the inner one on what is ahead. -/
theorem removeWithoutCellLoop_spec (cell : CellType → RefCell) (node : Int) :
    ∀ n (s : RefGeom), s.GeomInv → s.n = n → ∀ rest done (item : Int),
      s.adj.items node = done ++ rest →
      Threads plainLink refEmpty s.adj.itemNext item rest →
      (∀ it ∈ done, supports cell node (s.descr (s.adj.itemRef it).toNat descrType)) →
      ∃ fuel s', removeWithoutCellLoop cell node fuel item s = some (.ok s') ∧ s'.GeomInv ∧
        s.Keeps s' fun k => s.descr k descrNode = node → supports cell node (s.descr k descrType) := by
  intro n
  induction n with
  | zero =>
      intro s h hn rest done item hitems hchain _
      have hnone : ∀ k, ¬ s.Live k := by
        intro k hk
        obtain ⟨s', -, -, -, hcount⟩ := remove_spec h hk
        omega
      cases rest with
      | nil =>
          have hitem : item = refEmpty := hchain
          refine ⟨1, s, by rw [removeWithoutCellLoop, if_pos hitem], h,
            fun k => ⟨fun hk => absurd hk (hnone k), fun hk => hk.1⟩, fun _ _ => rfl⟩
      | cons it rest =>
          obtain ⟨k, -, hk, -⟩ := h.record_at done hitems
          exact absurd hk (hnone k)
  | succ n ihn =>
      intro s h hn rest
      induction rest with
      | nil =>
          intro done item hitems hchain hdone
          have hitem : item = refEmpty := hchain
          refine ⟨1, s, by rw [removeWithoutCellLoop, if_pos hitem], h,
            fun k => ⟨fun hk => ⟨hk, fun hnode => ?_⟩, fun hk => hk.1⟩, fun _ _ => rfl⟩
          have hmem := h.mem_refs_iff.mpr ⟨k, rfl, hk, hnode⟩
          rw [RefAdj.refs, hitems, List.append_nil] at hmem
          obtain ⟨it, hit, href⟩ := List.mem_map.mp hmem
          have hsup := hdone it hit
          rwa [href, Int.toNat_natCast] at hsup
      | cons it rest ihrest =>
          intro done item hitems hchain hdone
          obtain ⟨k, href, hk, hnode⟩ := h.record_at done hitems
          have hitem : item = (it : Int) := hchain.1
          by_cases hsup : supports cell node (s.descr k descrType)
          · obtain ⟨fuel, s', hloop, h', hkeep⟩ := ihrest (done ++ [it]) (s.adj.itemNext it)
              (by simpa using hitems) hchain.2 (by
                intro a ha
                rcases List.mem_append.mp ha with ha | ha
                · exact hdone a ha
                · rw [List.mem_singleton.mp ha, href, Int.toNat_natCast]
                  exact hsup)
            refine ⟨fuel + 1, s', ?_, h', hkeep⟩
            rw [hitem, removeWithoutCellLoop_succ h href hk, if_pos hsup]
            exact hloop
          · obtain ⟨s1, hrun, h1, hkeep1, hcount⟩ := remove_spec h hk
            obtain ⟨fuel, s', hloop, h', hkeep⟩ := ihn s1 h1 (by omega) (s1.adj.items node) []
              (s1.adj.firstItem node) rfl (h1.registers.inv.chain node)
              (fun a ha => absurd ha List.not_mem_nil)
            refine ⟨fuel + 1, s', ?_, h', ?_⟩
            · rw [hitem, removeWithoutCellLoop_succ h href hk, if_neg hsup, hrun]
              exact hloop
            · refine (hkeep1.trans hkeep).congr fun j hj => ?_
              by_cases hjk : j = k
              · subst hjk
                simp [hnode, hsup]
              · simp [hjk, hkeep1.row j ((hkeep1.live j).mpr ⟨hj, hjk⟩)]

theorem removeWithoutCell_spec {s : RefGeom} (h : s.GeomInv) (cell : CellType → RefCell)
    (node : Int) :
    ∃ fuel s', removeWithoutCell cell node fuel s = some (.ok s') ∧ s'.GeomInv ∧
      s.Keeps s' fun k => s.descr k descrNode = node → supports cell node (s.descr k descrType) :=
  removeWithoutCellLoop_spec cell node s.n s h rfl (s.adj.items node) [] (s.adj.firstItem node) rfl
    (h.registers.inv.chain node) fun _ ha => absurd ha List.not_mem_nil

/-- A group supports a node that some cell of it has. -/
theorem supportedByCell_iff {cell : CellType → RefCell} (hcell : ∀ t, (cell t).CellInv)
    (groups : List CellType) (node : Int) :
    supportedByCell cell groups node ↔
      ∃ t ∈ groups, ∃ c, (cell t).Live c ∧ node ∈ (cell t).nodeList c := by
  simp only [supportedByCell, List.any_eq_true, decide_eq_true_eq]
  refine exists_congr fun t => and_congr_right fun _ => ?_
  rw [Ne, ← (hcell t).registers.inv.items_eq_nil_iff node]
  constructor
  · intro hne
    obtain ⟨it, hit⟩ := List.exists_mem_of_ne_nil _ hne
    obtain ⟨c, -, hc⟩ := (hcell t).mem_refs_iff.mp (List.mem_map_of_mem hit)
    exact ⟨c, hc⟩
  · rintro ⟨c, hc⟩ hnil
    have hmem := (hcell t).mem_refs_iff.mpr ⟨c, rfl, hc⟩
    rw [RefAdj.refs, hnil] at hmem
    cases hmem

end RefGeom

/-- The store with the parameters: `param geom dimension` is
`ref_geom_param(ref_geom, dimension, geom)`. -/
structure GeomStore (R : Type) extends RefGeom where
  param : Nat → Nat → R

namespace GeomStore

open RefGeom

variable {R : Type} [Zero R]

/-- `ref_geom_create`. -/
def create (mem : GeomStore R) : GeomStore R :=
  { toRefGeom := RefGeom.create mem.toRefGeom, param := mem.param }

/-- The stores into the parameters of a record of the given type. -/
def setParam (type : Int) (param : Nat → R) (row : Nat → R) : Nat → R := fun dimension =>
  if dimension = 0 ∧ 0 < type then param 0
  else if dimension = 1 ∧ 1 < type then param 1
  else row dimension

/-- `ref_geom_add`. -/
def add (s : GeomStore R) (node type id : Int) (param : Nat → R) : Except Status (GeomStore R) :=
  if type < 0 ∨ 2 < type then .error .invalid
  else
    match s.find node type id with
    | .ok geom =>
        .ok { s with
          param := Function.update s.param geom.toNat (setParam type param (s.param geom.toNat)) }
    | .error .notFound => do
        let (g, geom) ← s.addRow node type id
        let zeroed : Nat → R := fun dimension => if dimension < 2 then 0 else s.param geom dimension
        .ok { toRefGeom := g, param := Function.update s.param geom (setParam type param zeroed) }
    | .error status => .error status

/-- `ref_geom_add_with_descr`. -/
def addWithDescr (s : GeomStore R) (descr : Nat → Int) (param : Nat → R) :
    Except Status (GeomStore R) := do
  let type := descr descrType
  let id := descr descrId
  let node := descr descrNode
  let s ← s.add node type id param
  let geom ← s.find node type id
  let row := s.descr geom.toNat
  let row := Function.update row descrGref (descr descrGref)
  let row := Function.update row descrDegen (descr descrDegen)
  let row := Function.update row descrJump (descr descrJump)
  .ok { s with descr := Function.update s.descr geom.toNat row }

/-- A function of the records only; it leaves the parameters. -/
def onRecords (s : GeomStore R) (g : RefGeom) : GeomStore R := { s with toRefGeom := g }

/-- `ref_geom_remove`. -/
def removeRecord (s : GeomStore R) (geom : Int) : Except Status (GeomStore R) := do
  let g ← s.toRefGeom.remove geom
  .ok (s.onRecords g)

end GeomStore

end RefineMesh
