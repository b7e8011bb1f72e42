import Mathlib.Tactic
import RefineMesh.GeomStore

/-!
# Runs of the geometry association store

Every successful call keeps the invariant of the rows, and what the calls mean
for the records follows from it: one record for a key, lookups that find it,
removals that take exactly the records they name.  The two removal loops end;
with enough rounds their result does not depend on the bound.
-/

namespace RefineMesh

open SlotList

namespace RefGeom

/-- More rounds do not change a result of `ref_geom_remove_all`. -/
theorem removeAll_mono {node : Int} {r : Except Status RefGeom} :
    ∀ {fuel} {s : RefGeom}, removeAll node fuel s = some r → removeAll node (fuel + 1) s = some r := by
  intro fuel
  induction fuel with
  | zero => intro s h; cases h
  | succ fuel ih =>
      intro s h
      rw [removeAll] at h ⊢
      by_cases hitem : s.adj.firstItem node = refEmpty
      · rw [if_pos hitem] at h ⊢
        exact h
      · rw [if_neg hitem] at h ⊢
        cases hrun : s.remove (s.adj.itemRef (s.adj.firstItem node).toNat) with
        | error e =>
            rw [hrun] at h
            exact h
        | ok s1 =>
            rw [hrun] at h
            exact ih h

/-- More rounds do not change a result of `ref_geom_remove_without_cell`. -/
theorem removeWithoutCellLoop_mono {cell : CellType → RefCell} {node : Int}
    {r : Except Status RefGeom} :
    ∀ {fuel item} {s : RefGeom}, removeWithoutCellLoop cell node fuel item s = some r →
      removeWithoutCellLoop cell node (fuel + 1) item s = some r := by
  intro fuel
  induction fuel with
  | zero => intro item s h; cases h
  | succ fuel ih =>
      intro item s h
      rw [removeWithoutCellLoop] at h ⊢
      by_cases hitem : item = refEmpty
      · rw [if_pos hitem] at h ⊢
        exact h
      rw [if_neg hitem] at h ⊢
      dsimp only at h ⊢
      split_ifs at h ⊢ with hnode hedge hsup hface
      · exact ih h
      · exact ih h
      · cases hremove : s.remove (s.adj.itemRef item.toNat) with
        | error e => simpa only [hremove] using h
        | ok s1 =>
            simp only [hremove] at h ⊢
            exact ih h
      · exact ih h
      · cases hremove : s.remove (s.adj.itemRef item.toNat) with
        | error e => simpa only [hremove] using h
        | ok s1 =>
            simp only [hremove] at h ⊢
            exact ih h
      · exact h

/-- Rewriting the columns of a record that are no part of its key. -/
theorem GeomInv.setRow {s : RefGeom} (h : s.GeomInv) {k : Nat} {row : Nat → Int}
    (htype : row descrType = s.descr k descrType) (hid : row descrId = s.descr k descrId)
    (hnode : row descrNode = s.descr k descrNode) :
    GeomInv { s with descr := Function.update s.descr k row } := by
  set s' : RefGeom := { s with descr := Function.update s.descr k row } with hs'
  have hsame : ∀ j, s'.descr j descrType = s.descr j descrType ∧
      s'.descr j descrId = s.descr j descrId ∧ s'.descr j descrNode = s.descr j descrNode := by
    intro j
    by_cases hj : j = k
    · subst hj
      rw [show s'.descr j = row from Function.update_self ..]
      exact ⟨htype, hid, hnode⟩
    · rw [show s'.descr j = s.descr j from Function.update_of_ne hj _ _]
      exact ⟨rfl, rfl, rfl⟩
  have hlive : ∀ j, s'.Live j ↔ s.Live j := fun j => by
    rw [Live, Live, (hsame j).1]
  refine ⟨?_, ?_, ?_, ?_, ?_⟩
  · exact h.registers.congr fun j v => occupancy_congr (by rw [hlive j, (hsame j).2.2])
  · exact h.blank.congr (fun j => by rw [hlive j]) (fun j _ => (hsame j).2.1)
  · rw [← show liveCount s.max s.Live = s.n from h.count]
    exact liveCount_congr fun j => by rw [hlive j]
  · intro j hj
    rw [(hsame j).1]
    exact h.types j ((hlive j).mp hj)
  · intro i j hi hj
    rw [(hsame i).1, (hsame j).1, (hsame i).2.1, (hsame j).2.1, (hsame i).2.2, (hsame j).2.2]
    exact h.unique i j ((hlive i).mp hi) ((hlive j).mp hj)

end RefGeom

/-- A record of the store. -/
structure GeomRecord (R : Type) where
  node : Int
  type : Int
  id : Int
  gref : Int
  jump : Int
  degen : Int
  param0 : R
  param1 : R

namespace GeomStore

open RefGeom

variable {R : Type}

/-- `ref_geom_remove_all`, cut off after `fuel` rounds. -/
def removeAllRecords (node : Int) (fuel : Nat) (s : GeomStore R) :
    Option (Except Status (GeomStore R)) :=
  (s.toRefGeom.removeAll node fuel).map fun r => r.map s.onRecords

/-- `ref_geom_remove_without_cell`, cut off after `fuel` rounds. -/
def removeRecordsWithoutCell (cell : CellType → RefCell) (node : Int) (fuel : Nat)
    (s : GeomStore R) : Option (Except Status (GeomStore R)) :=
  (s.toRefGeom.removeWithoutCell cell node fuel).map fun r => r.map s.onRecords

/-- What a row says. -/
def record (s : GeomStore R) (k : Nat) : GeomRecord R :=
  { node := s.descr k descrNode
    type := s.descr k descrType
    id := s.descr k descrId
    gref := s.descr k descrGref
    jump := s.descr k descrJump
    degen := s.descr k descrDegen
    param0 := s.param k 0
    param1 := s.param k 1 }

/-! ## The removals -/

theorem removeRecord_inv {s s' : GeomStore R} {geom : Int} (h : s.toRefGeom.GeomInv)
    (hrun : s.removeRecord geom = .ok s') : s'.toRefGeom.GeomInv := by
  obtain ⟨g, hremove, hret⟩ := bind_eq_ok.mp hrun
  obtain ⟨k, rfl, hk⟩ := live_of_remove hremove
  obtain ⟨g', hrun', hinv, -, -⟩ := remove_spec h hk
  rw [← Except.ok.inj hret]
  rw [hremove] at hrun'
  rw [show s.onRecords g = s.onRecords g' by rw [Except.ok.inj hrun']]
  exact hinv

/-- The two removal loops end with the records named by `keep`. -/
theorem exists_removed {s : GeomStore R} (loop : Nat → Option (Except Status RefGeom))
    {keep : Nat → Prop}
    (hmono : ∀ {fuel r}, loop fuel = some r → loop (fuel + 1) = some r)
    (hspec : ∃ fuel g, loop fuel = some (.ok g) ∧ g.GeomInv ∧ s.toRefGeom.Keeps g keep) :
    ∃ enough s', (∀ fuel, enough ≤ fuel →
        (loop fuel).map (fun r => r.map s.onRecords) = some (.ok s')) ∧
      s'.toRefGeom.GeomInv ∧ (∀ k, s'.Live k ↔ s.Live k ∧ keep k) ∧
      ∀ k, s'.Live k → s'.record k = s.record k := by
  obtain ⟨enough, g, hrun, hinv, hkeep⟩ := hspec
  refine ⟨enough, s.onRecords g, fun fuel hle => ?_, hinv, hkeep.live, fun k hk => ?_⟩
  · have hfuel : loop fuel = some (.ok g) := by
      induction fuel, hle using Nat.le_induction with
      | base => exact hrun
      | succ fuel _ ih => exact hmono ih
    rw [hfuel]
    rfl
  · have hrow : (s.onRecords g).descr k = s.descr k := hkeep.row k hk
    simp only [record, hrow]
    rfl

/-- **`ref_geom_remove_all`** removes exactly the records of the node. -/
theorem removeAllRecords_spec {s : GeomStore R} (h : s.toRefGeom.GeomInv) (node : Int) :
    ∃ enough s', (∀ fuel, enough ≤ fuel → s.removeAllRecords node fuel = some (.ok s')) ∧
      s'.toRefGeom.GeomInv ∧ (∀ k, s'.Live k ↔ s.Live k ∧ s.descr k descrNode ≠ node) ∧
      ∀ k, s'.Live k → s'.record k = s.record k :=
  exists_removed (fun fuel => s.toRefGeom.removeAll node fuel) removeAll_mono
    (RefGeom.removeAll_spec node s.n s.toRefGeom h rfl)

/-- **`ref_geom_remove_without_cell`** removes exactly the records of the node
that no cell supports. -/
theorem removeRecordsWithoutCell_spec {s : GeomStore R} (h : s.toRefGeom.GeomInv)
    (cell : CellType → RefCell) (node : Int) :
    ∃ enough s',
      (∀ fuel, enough ≤ fuel → s.removeRecordsWithoutCell cell node fuel = some (.ok s')) ∧
      s'.toRefGeom.GeomInv ∧ (∀ k, s'.Live k ↔ s.Live k ∧
        (s.descr k descrNode = node → supports cell node (s.descr k descrType))) ∧
      ∀ k, s'.Live k → s'.record k = s.record k :=
  exists_removed (fun fuel => s.toRefGeom.removeWithoutCell cell node fuel)
    removeWithoutCellLoop_mono (removeWithoutCell_spec h cell node)

/-- A loop that answered before the bound gives that answer with it. -/
theorem eq_of_enough {s1 s' : GeomStore R} (loop : Nat → Option (Except Status (GeomStore R)))
    {fuel enough : Nat} (hmono : ∀ {fuel r}, loop fuel = some r → loop (fuel + 1) = some r)
    (hrun : loop fuel = some (.ok s1))
    (henough : ∀ fuel, enough ≤ fuel → loop fuel = some (.ok s')) : s1 = s' := by
  have hmore : ∀ more, loop (fuel + more) = some (.ok s1) := by
    intro more
    induction more with
    | zero => exact hrun
    | succ more ih => exact hmono ih
  have hboth := (hmore enough).symm.trans (henough (fuel + enough) (by omega))
  simpa using hboth

/-! ## The calls -/

variable [Zero R]

/-- A call of the store. -/
inductive Call (R : Type)
  | add (node type id : Int) (param : Nat → R)
  | addWithDescr (descr : Nat → Int) (param : Nat → R)
  | remove (geom : Int)
  | removeAll (node : Int)
  | removeWithoutCell (cell : CellType → RefCell) (node : Int)

/-- The call succeeds and leaves `s'`. -/
def After (s : GeomStore R) : Call R → GeomStore R → Prop
  | .add node type id param, s' => s.add node type id param = .ok s'
  | .addWithDescr descr param, s' => s.addWithDescr descr param = .ok s'
  | .remove geom, s' => s.removeRecord geom = .ok s'
  | .removeAll node, s' => ∃ fuel, s.removeAllRecords node fuel = some (.ok s')
  | .removeWithoutCell cell node, s' =>
      ∃ fuel, s.removeRecordsWithoutCell cell node fuel = some (.ok s')

/-- The stores that sequences of successful calls reach. -/
inductive Reached : GeomStore R → Prop
  | create (mem : GeomStore R) : Reached (create mem)
  | step {s s' : GeomStore R} (call : Call R) (h : Reached s) (hcall : s.After call s') :
      Reached s'

/-- An add either finds its key, and then only the parameters change, or makes
a new record. -/
theorem add_spec {s s' : GeomStore R} {node type id : Int} {param : Nat → R}
    (h : s.toRefGeom.GeomInv) (hrun : s.add node type id param = .ok s') :
    (∃ k, s.Live k ∧ s.descr k descrNode = node ∧ s.descr k descrType = type ∧
        s.descr k descrId = id ∧ s' = { s with
          param := Function.update s.param k (setParam type param (s.param k)) }) ∨
      (∀ k, s.Live k → s.descr k descrNode = node → s.descr k descrType = type →
        s.descr k descrId ≠ id) ∧ s'.toRefGeom.GeomInv := by
  by_cases htype : type < 0 ∨ 2 < type
  · simp [add, htype] at hrun
  rw [add, if_neg htype] at hrun
  rcases h.find_spec node type id with ⟨k, hfind, hlive, hnode, hktype, hid⟩ | ⟨hnone, habs⟩
  · rw [hfind] at hrun
    exact Or.inl ⟨k, hlive, hnode, hktype, hid, by simpa using hrun.symm⟩
  · rw [hnone] at hrun
    obtain ⟨⟨g, geom⟩, hadd, hret⟩ := bind_eq_ok.mp hrun
    simp only [Except.ok.injEq] at hret
    refine Or.inr ⟨habs, ?_⟩
    rw [← hret]
    exact (addRow_spec h ⟨by omega, by omega⟩ habs hadd).1

theorem add_inv {s s' : GeomStore R} {node type id : Int} {param : Nat → R}
    (h : s.toRefGeom.GeomInv) (hrun : s.add node type id param = .ok s') :
    s'.toRefGeom.GeomInv := by
  rcases add_spec h hrun with ⟨k, -, -, -, -, rfl⟩ | ⟨-, hinv⟩
  · exact h
  · exact hinv

theorem addWithDescr_inv {s s' : GeomStore R} {descr : Nat → Int} {param : Nat → R}
    (h : s.toRefGeom.GeomInv) (hrun : s.addWithDescr descr param = .ok s') :
    s'.toRefGeom.GeomInv := by
  obtain ⟨s1, hadd, hrest⟩ := bind_eq_ok.mp hrun
  obtain ⟨geom, -, hret⟩ := bind_eq_ok.mp hrest
  rw [← Except.ok.inj hret]
  exact (add_inv h hadd).setRow (by simp [descrGref, descrDegen, descrJump, descrType])
    (by simp [descrGref, descrDegen, descrJump, descrId])
    (by simp [descrGref, descrDegen, descrJump, descrNode])

/-- A successful call keeps the invariant. -/
theorem After.inv {s s' : GeomStore R} {call : Call R} (h : s.toRefGeom.GeomInv)
    (hcall : s.After call s') : s'.toRefGeom.GeomInv := by
  cases call with
  | add node type id param => exact add_inv h hcall
  | addWithDescr descr param => exact addWithDescr_inv h hcall
  | remove geom => exact removeRecord_inv h hcall
  | removeAll node =>
      obtain ⟨fuel, hrun⟩ := hcall
      obtain ⟨enough, s1, hall, hinv, -, -⟩ := removeAllRecords_spec h node
      have hmono : ∀ {fuel r}, s.removeAllRecords node fuel = some r →
          s.removeAllRecords node (fuel + 1) = some r := by
        intro fuel r hr
        obtain ⟨x, hx, hxr⟩ := Option.map_eq_some_iff.mp hr
        exact Option.map_eq_some_iff.mpr ⟨x, removeAll_mono hx, hxr⟩
      rw [eq_of_enough (fun fuel => s.removeAllRecords node fuel) hmono hrun hall]
      exact hinv
  | removeWithoutCell cell node =>
      obtain ⟨fuel, hrun⟩ := hcall
      obtain ⟨enough, s1, hall, hinv, -, -⟩ := removeRecordsWithoutCell_spec h cell node
      have hmono : ∀ {fuel r}, s.removeRecordsWithoutCell cell node fuel = some r →
          s.removeRecordsWithoutCell cell node (fuel + 1) = some r := by
        intro fuel r hr
        obtain ⟨x, hx, hxr⟩ := Option.map_eq_some_iff.mp hr
        exact Option.map_eq_some_iff.mpr ⟨x, removeWithoutCellLoop_mono hx, hxr⟩
      rw [eq_of_enough (fun fuel => s.removeRecordsWithoutCell cell node fuel) hmono hrun hall]
      exact hinv

theorem Reached.inv {s : GeomStore R} (h : Reached s) : s.toRefGeom.GeomInv := by
  induction h with
  | create mem => exact create_inv mem.toRefGeom
  | step call _ hcall ih => exact After.inv ih hcall

/-- The parameters that an add of the given type overwrites. -/
def overwritten (r : GeomRecord R) (param : Nat → R) : GeomRecord R :=
  { r with
    param0 := if 0 < r.type then param 0 else r.param0
    param1 := if 1 < r.type then param 1 else r.param1 }

omit [Zero R] in
theorem record_setParam (s : GeomStore R) (k : Nat) (param : Nat → R) :
    record { s with
      param := Function.update s.param k (setParam (s.descr k descrType) param (s.param k)) } k =
      overwritten (s.record k) param := by
  by_cases h0 : 0 < s.descr k descrType
  · by_cases h1 : 1 < s.descr k descrType
    · simp [record, overwritten, setParam, h0, h1]
    · simp [record, overwritten, setParam, h0, h1]
  · have h1 : ¬ 1 < s.descr k descrType := by omega
    simp [record, overwritten, setParam, h0, h1]

/-- An add of a key that has a record overwrites the parameters of its type and
changes nothing else. -/
theorem add_existing {s s' : GeomStore R} {k : Nat} {param : Nat → R}
    (h : s.toRefGeom.GeomInv) (hk : s.Live k)
    (hrun : s.add (s.descr k descrNode) (s.descr k descrType) (s.descr k descrId) param = .ok s') :
    s'.toRefGeom = s.toRefGeom ∧ s'.record k = overwritten (s.record k) param ∧
      ∀ j, j ≠ k → s'.record j = s.record j := by
  rcases add_spec h hrun with ⟨j, hj, hnode, htype, hid, rfl⟩ | ⟨habs, -⟩
  · have hjk : j = k := h.unique j k hj hk hnode htype hid
    subst hjk
    refine ⟨rfl, record_setParam s j param, fun i hi => ?_⟩
    simp [record, Function.update_of_ne hi]
  · exact absurd rfl (habs k hk rfl rfl)

/-- A record that stays when the records of its kind without a cell go: its
node is another one, or it is a node record, or a cell of the kind has the
node. -/
def Supported (cell : CellType → RefCell) (node : Int) (r : GeomRecord R) : Prop :=
  r.node = node →
    (r.type = GeomType.edge.code → ∃ t ∈ edgeCells, ∃ c, (cell t).Live c ∧
      node ∈ (cell t).nodeList c) ∧
    (r.type = GeomType.face.code → ∃ t ∈ faceCells, ∃ c, (cell t).Live c ∧
      node ∈ (cell t).nodeList c)

omit [Zero R] in
theorem supported_iff {cell : CellType → RefCell} (hcell : ∀ t, (cell t).CellInv) (node : Int)
    (s : GeomStore R) (k : Nat) :
    (s.descr k descrNode = node → supports cell node (s.descr k descrType)) ↔
      Supported cell node (s.record k) := by
  refine imp_congr_right fun _ => ?_
  rw [supports, ← supportedByCell_iff hcell, ← supportedByCell_iff hcell]
  by_cases hedge : s.descr k descrType = GeomType.edge.code
  · simp [record, hedge, GeomType.code]
  · by_cases hface : s.descr k descrType = GeomType.face.code
    · simp [record, hface, GeomType.code]
    · simp [record, hedge, hface]

/-- **The geometry store after any sequence of successful calls.** -/
theorem geom_store_invariant {s : GeomStore R} (h : Reached s) :
    liveCount s.max s.Live = s.n ∧
    FreeList plainLink refEmpty (fun k => s.descr k descrId) s.blank
      (fun k => k < s.max ∧ ¬ s.Live k) ∧
    (∀ v, (s.adj.refs v).Nodup ∧
      ∀ r, r ∈ s.adj.refs v ↔ ∃ k : Nat, r = k ∧ s.Live k ∧ (s.record k).node = v) ∧
    (∀ k j, s.Live k → s.Live j → (s.record k).node = (s.record j).node →
      (s.record k).type = (s.record j).type → (s.record k).id = (s.record j).id → k = j) ∧
    (∀ node type id,
      (∃ k : Nat, s.find node type id = .ok k ∧ s.Live k ∧ (s.record k).node = node ∧
        (s.record k).type = type ∧ (s.record k).id = id) ∨
      (s.find node type id = .error .notFound ∧ ∀ k, s.Live k → (s.record k).node = node →
        (s.record k).type = type → (s.record k).id ≠ id)) ∧
    (∀ k param s', s.Live k →
      s.add (s.record k).node (s.record k).type (s.record k).id param = .ok s' →
      s'.toRefGeom = s.toRefGeom ∧ s'.record k = overwritten (s.record k) param ∧
        ∀ j, j ≠ k → s'.record j = s.record j) ∧
    (∀ node, ∃ enough s',
      (∀ fuel, enough ≤ fuel → s.removeAllRecords node fuel = some (.ok s')) ∧
      (∀ k, s'.Live k ↔ s.Live k ∧ (s.record k).node ≠ node) ∧
      ∀ k, s'.Live k → s'.record k = s.record k) ∧
    (∀ cell node, (∀ t, (cell t).CellInv) → ∃ enough s',
      (∀ fuel, enough ≤ fuel → s.removeRecordsWithoutCell cell node fuel = some (.ok s')) ∧
      (∀ k, s'.Live k ↔ s.Live k ∧ Supported cell node (s.record k)) ∧
      ∀ k, s'.Live k → s'.record k = s.record k) := by
  have hinv := h.inv
  refine ⟨hinv.count, hinv.blank, fun v => ⟨hinv.nodup_refs v, fun r => hinv.mem_refs_iff⟩,
    hinv.unique, hinv.find_spec, fun k param s' hk hrun => add_existing hinv hk hrun,
    fun node => ?_, fun cell node hcell => ?_⟩
  · obtain ⟨enough, s', hall, -, hlive, hrecord⟩ := removeAllRecords_spec hinv node
    exact ⟨enough, s', hall, hlive, hrecord⟩
  · obtain ⟨enough, s', hall, -, hlive, hrecord⟩ := removeRecordsWithoutCell_spec hinv cell node
    refine ⟨enough, s', hall, fun k => ?_, hrecord⟩
    rw [hlive k, supported_iff hcell]

/-- A face record on node 5, written twice. -/
theorem geom_store_invariant_face_record :
    ∃ s : GeomStore Int, Reached s ∧ s.n = 1 ∧ (s.adj.refs 5).Nodup ∧
      (∃ k : Nat, s.find 5 2 3 = .ok k) ∧ (s.record 0).param1 = 9 := by
  obtain ⟨s, hrun, hs⟩ := exists_ok_of_map
    (f := fun s : GeomStore Int => (s.n, succeeds (s.find 5 2 3), (s.record 0).param1))
    (b := (1, true, 9))
    (show ((do
      let s ← (create { toRefGeom := noGeom, param := fun _ _ => (0 : Int) }).add 5 2 3 fun _ => 7
      s.add 5 2 3 fun _ => 9 : Except Status (GeomStore Int)).toOption.map
        fun s => (s.n, succeeds (s.find 5 2 3), (s.record 0).param1)) = some (1, true, 9) by
      decide +kernel)
  obtain ⟨s1, hrun1, hrun2⟩ := bind_eq_ok.mp hrun
  have hreach : Reached s := .step (.add 5 2 3 fun _ => 9)
    (.step (.add 5 2 3 fun _ => 7) (.create _) hrun1) hrun2
  simp only [Prod.mk.injEq] at hs
  obtain ⟨hn, hfound, hparam⟩ := hs
  obtain ⟨-, -, hrefs, -, hfind, -⟩ := geom_store_invariant hreach
  refine ⟨s, hreach, hn, (hrefs 5).1, ?_, hparam⟩
  rcases hfind 5 2 3 with ⟨k, hk, -⟩ | ⟨hnone, -⟩
  · exact ⟨k, hk⟩
  · rw [hnone] at hfound
    cases hfound

end GeomStore

end RefineMesh
