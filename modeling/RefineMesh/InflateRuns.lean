import Mathlib.Tactic
import RefineMesh.CellQuery
import RefineMesh.Inflate
import RefineMesh.IsoRuns
import RefineMesh.NodeRuns

/-!
# Inflating a layer on one rank

On one rank every node of a listed triangle is owned, so that each of them gets
one new node.  The exchanges change nothing.  The loops over the triangles then
read the stores as they were: the new quadrilaterals and prisms have new nodes,
so that no later query finds them.
-/

namespace RefineMesh

open ArrayLoop Spmd
open RefNode (KeepsNodes AddsSlot)

variable {D : Type}

namespace RefInflate

/-! ## New nodes -/

section Nodes

variable [RefDbl D] {s0 : RefNode D} {done : List Nat} {acc acc' : RefNode D × (Nat → Int)}

/-- The listed triangles. -/
def listedCells (faceids : RefDict) (tri : RefCell) : List Nat :=
  tri.validCells.filter (listed faceids tri)

/-- The nodes of the listed triangles as they are visited. -/
def listedNodes (faceids : RefDict) (tri : RefCell) : List Nat :=
  (listedCells faceids tri).flatMap fun cell =>
    (List.range 3).map fun triNode => (tri.c2n cell triNode).toNat

theorem newNodes_eq (faceids : RefDict) (tri : RefCell) (s : RefNode D) :
    newNodes faceids tri s = (listedNodes faceids tri).foldlM newNode (s, fun _ => refEmpty) := by
  rw [listedNodes, foldlM_flatMap, listedCells, List.foldlM_filter, newNodes]
  simp only [List.foldlM_map]
  rfl

/-- The nodes in `done` have one new node each, of their own. -/
structure NodesMade (s0 s : RefNode D) (done : List Nat) (o2n : Nat → Int) : Prop where
  inv : s.Inv
  rank : s.rank = s0.rank
  keeps : KeepsNodes s0 s
  live : ∀ k : Nat, s.Live k ↔ s0.Live k ∨ ∃ v ∈ done, o2n v = k
  made : ∀ v ∈ done, ∃ k : Nat, o2n v = k ∧ ¬ s0.Live k ∧ s.part k = s0.rank
  once : ∀ v ∈ done, ∀ w ∈ done, o2n v = o2n w → v = w

/-- The store and `o2n` after the nodes in `done`. -/
structure NewNodes (s0 : RefNode D) (done : List Nat) (acc : RefNode D × (Nat → Int)) : Prop
    extends NodesMade s0 acc.1 done acc.2 where
  alloc : ∃ out, Ledger.AllocInv ⟨acc.1, out⟩
  counter : acc.1.newNGlobal ≠ refEmpty
  blank : ∀ v, v ∉ done → acc.2 v = refEmpty

omit [RefDbl D] in
theorem newNodes_start (hinv : s0.Inv) {out : List Int} (halloc : Ledger.AllocInv ⟨s0, out⟩)
    (hcounter : s0.newNGlobal ≠ refEmpty) : NewNodes s0 [] (s0, fun _ => refEmpty) where
  inv := hinv
  alloc := ⟨out, halloc⟩
  counter := hcounter
  rank := rfl
  keeps := KeepsNodes.refl s0
  live k := by simp
  made v hv := absurd hv List.not_mem_nil
  blank _ _ := rfl
  once v hv := absurd hv List.not_mem_nil

omit [RefDbl D] in
/-- `ref_node_next_global` moves the counter or the stack only. -/
theorem nextGlobal_frame {s s' : RefNode D} {g : Int} (hcounter : s.newNGlobal ≠ refEmpty)
    (hnext : s.nextGlobal = .ok (s', g)) :
    ∃ nUnused newNGlobal, s' = { s with nUnused := nUnused, newNGlobal := newNGlobal } ∧
      (newNGlobal = s.newNGlobal ∨ newNGlobal = s.newNGlobal + 1) := by
  rw [RefNode.nextGlobal] at hnext
  by_cases hunused : 0 < s.nUnused
  · simp only [hunused, if_true, RefNode.popUnused, hunused.ne', if_false, Except.ok.injEq,
      Prod.mk.injEq] at hnext
    exact ⟨s.nUnused - 1, s.newNGlobal, hnext.1.symm, Or.inl rfl⟩
  · simp only [hunused, if_false, hcounter, Except.ok.injEq, Prod.mk.injEq] at hnext
    exact ⟨s.nUnused, s.newNGlobal + 1, hnext.1.symm, Or.inr rfl⟩

/-- What one new node leaves: a slot that was not live is filled. -/
structure DrawnNode (s s' : RefNode D) (out : List Int) (node : Nat) : Prop where
  inv : s'.Inv
  alloc : Ledger.AllocInv ⟨s', out⟩
  counter : s'.newNGlobal ≠ refEmpty
  rank : s'.rank = s.rank
  keeps : KeepsNodes s s'
  dead : ¬ s.Live node
  live : ∀ k, s'.Live k ↔ s.Live k ∨ k = node
  part : s'.part node = s.rank

/-- **A node that is made with the next global is a new one.** -/
theorem drawnNode {s s1 s2 : RefNode D} {g : Int} {node : Nat} (hinv : s.Inv) {out : List Int}
    (halloc : Ledger.AllocInv ⟨s, out⟩) (hcounter : s.newNGlobal ≠ refEmpty)
    (hnext : s.nextGlobal = .ok (s1, g)) (hadd : s1.add g = .ok (s2, node)) :
    DrawnNode s s2 (g :: out) node := by
  have hinv1 : s1.Inv := Ledger.nextGlobal_inv hinv hnext
  have halloc1 : Ledger.AllocInv ⟨s1, g :: out⟩ := halloc.draw hcounter hnext
  have hfresh : ¬ s.Holds g := (halloc.nextGlobal_fresh hcounter hnext).1
  obtain ⟨nUnused, newNGlobal, hframe, hnew⟩ := nextGlobal_frame hcounter hnext
  have hcounter1 : s1.newNGlobal ≠ refEmpty := by
    have hpos : 0 ≤ s.newNGlobal := by
      rcases halloc.counter with hnone | ⟨hpos, _⟩
      · exact absurd hnone hcounter
      · exact hpos
    rw [hframe]
    change newNGlobal ≠ refEmpty
    unfold refEmpty
    omega
  have hdisciplined : Ledger.Disciplined ⟨s1, g :: out⟩ (.add g) := by
    refine ⟨fun hrel => halloc1.back g hrel List.mem_cons_self, fun _ => ?_⟩
    rcases halloc1.counter with hnone | ⟨_, hbelow⟩
    · exact absurd hnone hcounter1
    · exact hbelow g (Or.inr (Or.inr List.mem_cons_self))
  have halloc2 : Ledger.AllocInv ⟨s2, g :: out⟩ :=
    Ledger.call_allocInv hinv1 halloc1 hdisciplined (by simp [Ledger.call, hadd, bind, Except.bind])
  obtain ⟨hinv2, hlive2, hglobal2, hcase⟩ := RefNode.add_spec hinv1 hadd
  have hholds : s1.Holds g ↔ s.Holds g := by
    rw [hframe]
    rfl
  have hadds : AddsSlot s1 s2 g node := by
    rcases hcase with rfl | ⟨_, hadds⟩
    · exact absurd (hholds.mp ⟨node, hlive2, hglobal2⟩) hfresh
    · exact hadds
  have hsame := hadds.sameAllocator
  have hkeeps : KeepsNodes s s1 := by
    rw [hframe]
    exact ⟨fun _ h => h, fun _ _ => rfl, fun _ _ => rfl, fun _ _ => rfl, fun _ _ => rfl, rfl⟩
  have hlive1 : ∀ k, s1.Live k ↔ s.Live k := by
    intro k
    rw [hframe]
    rfl
  have hrank1 : s1.rank = s.rank := by
    rw [hframe]
  refine ⟨hinv2, halloc2, ?_, hsame.rank.trans hrank1, hkeeps.trans hadds.keeps, ?_, ?_, ?_⟩
  · rw [hsame.newNGlobal]
    exact hcounter1
  · rw [← hlive1]
    exact hadds.dead
  · intro k
    rw [hadds.live k, hlive1 k]
  · obtain ⟨_, _, _, _, _, _, hfilled⟩ := hadds.frame
    rw [hfilled, ← hrank1]
    exact Function.update_self _ _ _

omit [RefDbl D] in
theorem setPart_same {s : RefNode D} {node part : Nat} (h : s.part node = part) :
    setPart s node part = s := by
  rw [setPart, ← h, Function.update_eq_self]

/-- **One node of a listed triangle.** -/
theorem NewNodes.step (h : NewNodes s0 done acc) {node : Nat} (hlive : s0.Live node)
    (howned : s0.Owned node) (hrun : newNode acc node = .ok acc') :
    NewNodes s0 (done ++ [node]) acc' := by
  have howned' : acc.1.Owned node := by
    rw [RefNode.Owned, h.rank, h.keeps.part node hlive]
    exact howned
  by_cases hnew : acc.2 node = refEmpty
  · rw [newNode, if_pos ⟨howned', hnew⟩] at hrun
    simp only [bind_eq_ok, Except.ok.injEq] at hrun
    obtain ⟨⟨s1, g⟩, hnext, ⟨s2, k⟩, hadd, rfl⟩ := hrun
    obtain ⟨out, halloc⟩ := h.alloc
    have hdrawn := drawnNode h.inv halloc h.counter hnext hadd
    have hpart : s2.part k = s2.rank := hdrawn.part.trans hdrawn.rank.symm
    simp only [setPart_same hpart]
    have hnot : node ∉ done := by
      intro hin
      obtain ⟨k', hk', _⟩ := h.made node hin
      rw [hnew] at hk'
      exact natCast_ne_refEmpty k' hk'.symm
    have hother : ∀ v ∈ done, Function.update acc.2 node (k : Int) v = acc.2 v := by
      intro v hv
      exact Function.update_of_ne (ne_of_mem_of_not_mem hv hnot) _ _
    -- the nodes made before are live, the new one was not
    have hapart : ∀ v ∈ done, acc.2 v ≠ k := by
      intro v hv heq
      exact hdrawn.dead ((h.live k).mpr (Or.inr ⟨v, hv, heq⟩))
    refine ⟨⟨hdrawn.inv, hdrawn.rank.trans h.rank, h.keeps.trans hdrawn.keeps, ?_, ?_, ?_⟩,
      ⟨_, hdrawn.alloc⟩, hdrawn.counter, ?_⟩
    · intro j
      rw [hdrawn.live j, h.live j, or_assoc]
      refine or_congr_right ?_
      simp only [List.mem_append, List.mem_singleton, or_and_right, exists_or, exists_eq_left,
        Function.update_self, Nat.cast_inj]
      refine or_congr ?_ eq_comm
      exact exists_congr fun v => and_congr_right fun hv => by rw [hother v hv]
    · intro v hv
      rcases List.mem_append.mp hv with hv | hv
      · obtain ⟨j, hj, hdead, hpartj⟩ := h.made v hv
        refine ⟨j, (hother v hv).trans hj, hdead, ?_⟩
        rw [hdrawn.keeps.part j ((h.live j).mpr (Or.inr ⟨v, hv, hj⟩)), hpartj]
      · rw [List.mem_singleton.mp hv]
        refine ⟨k, Function.update_self _ _ _, fun hk => hdrawn.dead (h.keeps.live k hk), ?_⟩
        exact hdrawn.part.trans h.rank
    · intro v hv w hw heq
      dsimp only at heq
      rcases List.mem_append.mp hv with hv | hv <;> rcases List.mem_append.mp hw with hw | hw
      · rw [hother v hv, hother w hw] at heq
        exact h.once v hv w hw heq
      · rw [List.mem_singleton.mp hw, Function.update_self, hother v hv] at heq
        exact absurd heq (hapart v hv)
      · rw [List.mem_singleton.mp hv, Function.update_self, hother w hw] at heq
        exact absurd heq.symm (hapart w hw)
      · rw [List.mem_singleton.mp hv, List.mem_singleton.mp hw]
    · intro v hv
      rw [List.mem_append, List.mem_singleton, not_or] at hv
      exact (Function.update_of_ne hv.2 _ _).trans (h.blank v hv.1)
  · rw [newNode, if_neg (by tauto), Except.ok.injEq] at hrun
    subst hrun
    have hin : node ∈ done := by
      by_contra hnot
      exact hnew (h.blank node hnot)
    have hmem : ∀ v, v ∈ done ++ [node] ↔ v ∈ done := by
      intro v
      rw [List.mem_append, List.mem_singleton]
      constructor
      · rintro (hv | rfl)
        · exact hv
        · exact hin
      · exact Or.inl
    exact ⟨⟨h.inv, h.rank, h.keeps, by simpa only [hmem] using h.live,
      by simpa only [hmem] using h.made, by simpa only [hmem] using h.once⟩, h.alloc, h.counter,
      by simpa only [hmem] using h.blank⟩

/-- **The loop that builds the list of node globals.** -/
theorem newNodes_spec {faceids : RefDict} {tri : RefCell} {out : List Int} (hinv : s0.Inv)
    (halloc : Ledger.AllocInv ⟨s0, out⟩) (hcounter : s0.newNGlobal ≠ refEmpty)
    (hlive : ∀ v ∈ listedNodes faceids tri, s0.Live v ∧ s0.Owned v)
    (hrun : newNodes faceids tri s0 = .ok acc) : NewNodes s0 (listedNodes faceids tri) acc := by
  rw [newNodes_eq] at hrun
  have hloop := foldlM_inv
    (fun done rest acc => done ++ rest = listedNodes faceids tri ∧ NewNodes s0 done acc)
    (by
      intro done node rest acc acc' hP hstep
      obtain ⟨hsplit, hP⟩ := hP
      have hin : node ∈ listedNodes faceids tri := by
        rw [← hsplit]
        simp
      exact ⟨by simpa using hsplit, hP.step (hlive node hin).1 (hlive node hin).2 hstep⟩)
    ⟨List.nil_append _, newNodes_start hinv halloc hcounter⟩ hrun
  exact hloop.2

section Place

variable {made : RefNode D × (Nat → Int)} {nodes : List Nat}

/-- A new node is found again by its global. -/
theorem NewNodes.placeNode (h : NewNodes s0 nodes made) (hlive : ∀ v ∈ nodes, s0.Live v)
    (howned : ∀ v ∈ nodes, s0.Owned v) (n : Int) {f : Nat → Int} {v : Nat}
    (hblank : f v = refEmpty) :
    RefInflate.placeNode (newGlobals s0.max (made.1.initializeNGlobal n) made.2)
        (made.1.initializeNGlobal n, f) v =
      .ok (made.1.initializeNGlobal n, Function.update f v (made.2 v)) := by
  set s := made.1.initializeNGlobal n with hs
  have hinv : s.Inv :=
    ⟨h.inv.toSlotInv.congr rfl rfl rfl rfl, h.inv.ascending, h.inv.aligned, h.inv.covers⟩
  by_cases hin : v ∈ nodes
  · obtain ⟨k, hk, _, hpart⟩ := h.made v hin
    have hlivek : s.Live k := (h.live k).mpr (Or.inr ⟨v, hin, hk⟩)
    have ho2g : newGlobals s0.max s made.2 v = s.global k := by
      rw [newGlobals, if_pos ⟨(hlive v hin).1, by rw [hk]; exact natCast_ne_refEmpty k⟩, hk,
        Int.toNat_natCast]
    have hne : s.global k ≠ refEmpty := by
      have := hlivek.2
      unfold refEmpty
      omega
    have hsame : s.part k = s.part v := by
      have hpartv : s.part v = s0.part v := h.keeps.part v (hlive v hin)
      rw [hpartv, ← howned v hin]
      exact hpart
    rw [RefInflate.placeNode, ho2g, if_pos hne]
    simp only [bind_eq_ok, Except.ok.injEq]
    refine ⟨(s, k), RefNode.add_of_live hinv hlivek, ?_⟩
    rw [setPart_same hsame, hk]
  · have hnone : newGlobals s0.max s made.2 v = refEmpty := by
      rw [newGlobals, if_neg (by simp [h.blank v hin])]
    rw [RefInflate.placeNode, hnone, if_neg (by simp), h.blank v hin, ← hblank,
      Function.update_eq_self]

/-- **The loop that fills `o2n` from `o2g`** finds `o2n` again. -/
theorem NewNodes.placeNodes (h : NewNodes s0 nodes made) (hlive : ∀ v ∈ nodes, s0.Live v)
    (howned : ∀ v ∈ nodes, s0.Owned v) (n : Int) :
    RefInflate.placeNodes (newGlobals s0.max (made.1.initializeNGlobal n) made.2)
      (made.1.initializeNGlobal n) = .ok (made.1.initializeNGlobal n, made.2) := by
  set s := made.1.initializeNGlobal n with hs
  obtain ⟨acc, hrun, hsplit, hstore, ho2n⟩ := foldlM_exists
    (f := RefInflate.placeNode (newGlobals s0.max s made.2)) (l := List.range s.max)
    (b := (s, fun _ => refEmpty))
    (fun done rest acc => done ++ rest = List.range s.max ∧ acc.1 = s ∧
      acc.2 = fun v => if v ∈ done then made.2 v else refEmpty)
    (by
      intro done v rest acc hP
      obtain ⟨hsplit, hstore, ho2n⟩ := hP
      have hnodup : (done ++ v :: rest).Nodup := by
        rw [hsplit]
        exact List.nodup_range
      have hnot : v ∉ done := fun hin =>
        List.disjoint_of_nodup_append hnodup hin List.mem_cons_self
      obtain ⟨s', f⟩ := acc
      dsimp only at hstore ho2n
      subst hstore
      refine ⟨_, h.placeNode hlive howned n (by simp only [ho2n, if_neg hnot]), by simpa using hsplit,
        rfl, ?_⟩
      funext w
      by_cases hw : w = v
      · simp [hw]
      · simp [hw, ho2n, List.mem_append])
    ⟨List.nil_append _, rfl, by simp⟩
  rw [RefInflate.placeNodes, hrun, Except.ok.injEq]
  refine Prod.ext hstore (ho2n.trans ?_)
  funext v
  split
  · rfl
  · rename_i hv
    refine (h.blank v fun hin => hv ?_).symm
    exact List.mem_range.mpr (h.keeps.live v (hlive v hin)).1

omit [RefDbl D] in
/-- **The loop that creates the offsets** writes coordinates of new nodes only. -/
theorem offsetNodes_spec {geometry : Geometry D} {faceids : RefDict} {normals : Nat → D}
    {g : RefGrid D} {o2nMax : Nat} {o2n : Nat → Int} {s : RefNode D} {out : RefNode D × Bool}
    (hdead : ∀ v, o2n v ≠ refEmpty → ¬ s0.Live (o2n v).toNat)
    (hrun : offsetNodes geometry faceids normals g o2nMax o2n s = .ok out) :
    ∃ real, out.1 = { s with real := real } ∧ ∀ k, s0.Live k → real k = s.real k := by
  refine foldlM_inv (fun _ _ acc => ∃ real, acc.1 = { s with real := real } ∧
    ∀ k, s0.Live k → real k = s.real k) ?_ ⟨s.real, rfl, fun _ _ => rfl⟩ hrun
  intro done v rest acc acc' hP hstep
  obtain ⟨real, hstore, hold⟩ := hP
  rw [offsetNode] at hstep
  split at hstep
  · rename_i hv
    simp only [bind_eq_ok, Except.ok.injEq] at hstep
    obtain ⟨placed, _, rfl⟩ := hstep
    refine ⟨_, by rw [hstore, setXyz], fun k hk => ?_⟩
    have hne : k ≠ (o2n v).toNat := fun heq => hdead v hv.2.2 (heq ▸ hk)
    exact (Function.update_of_ne hne _ _).trans (hold k hk)
  · obtain rfl := Except.ok.inj hstep
    exact ⟨real, hstore, hold⟩

omit [RefDbl D] in
theorem rowsOfVector_self {n : Nat} (a : Nat → Nat → D) :
    rowsOfVector n a (fun k => a (k / n) (k % n)) = a := by
  funext node i
  rw [rowsOfVector]
  split
  · rename_i hi
    rw [Nat.add_mul_div_left _ _ (by omega), Nat.div_eq_of_lt hi, Nat.zero_add,
      Nat.add_mul_mod_self_left, Nat.mod_eq_of_lt hi]
  · rfl

omit [RefDbl D] in
theorem ghostDbl_alone (s : RefNode D) (vector : Nat → D) (ldim : Nat) (mem : GhostMemory D) :
    ghostDbl 1 s vector ldim mem = .ret vector := by
  simp only [ghostDbl, ghost, le_refl, if_true]
  rfl

omit [RefDbl D] in
theorem ghostGlob_alone (s : RefNode D) (vector : Nat → Int) (ldim : Nat)
    (mem : GhostMemory Int) : ghostGlob 1 s vector ldim mem = .ret vector := by
  simp only [ghostGlob, ghost, le_refl, if_true]
  rfl

omit [RefDbl D] in
/-- **`ref_node_ghost_real` on one rank** changes nothing. -/
theorem ghostReal_alone (mem : Memory D) (s : RefNode D) :
    (ghostReal 1 mem s).alone = some s := by
  simp only [ghostReal, ghostDbl_alone, Prog.ret_bind, rowsOfVector_self]
  split <;> rfl

end Place

/-- **The nodes of `ref_inflate_face` on one rank**: the loops over the triangles
start with one new node for each node of a listed triangle. -/
theorem inflateFace_alone {mem : Memory D} {geometry : Geometry D} {faceids : RefDict}
    {g g' : RefGrid D} {out : List Int} (hinv : g.node.Inv) (hrank : g.node.rank = 0)
    (halloc : Ledger.AllocInv ⟨g.node, out⟩) (hcounter : g.node.newNGlobal ≠ refEmpty)
    (hlive : ∀ v ∈ listedNodes faceids (g.cell .tri), g.node.Live v ∧ g.node.Owned v)
    (hrun : (inflateFace 1 mem geometry faceids g).alone = some g') :
    ∃ node o2n problem,
      NodesMade g.node node (listedNodes faceids (g.cell .tri)) o2n ∧
      inflateCells geometry faceids (above o2n) problem { g with node := node } = .ok g' := by
  rw [inflateFace, Prog.alone_bind, Option.bind_eq_some_iff] at hrun
  obtain ⟨normals, _, hrun⟩ := hrun
  rw [Prog.alone_bind, Option.bind_eq_some_iff] at hrun
  obtain ⟨made, hmade, hrun⟩ := hrun
  have hnew := newNodes_spec hinv halloc hcounter hlive (Prog.alone_lift_iff.mp hmade)
  have hfits : made.1.newNGlobal - made.1.oldNGlobal ≤ refIntMax := by
    by_contra hlarge
    rw [Prog.alone_bind, RefNode.shiftNewGlobals, if_pos (not_le.mp hlarge)] at hrun
    cases hrun
  rw [Prog.alone_bind, RefNode.shiftNewGlobals_alone (hnew.rank.trans hrank) hfits,
    Option.bind_some, ghostGlob_alone, Prog.ret_bind, Prog.alone_bind,
    hnew.placeNodes (fun v hv => (hlive v hv).1) (fun v hv => (hlive v hv).2), Prog.lift_ok,
    Prog.alone_ret, Option.bind_some, Prog.alone_bind, Option.bind_eq_some_iff] at hrun
  obtain ⟨offset, hoffset, hrun⟩ := hrun
  rw [Prog.alone_bind, ghostReal_alone, Option.bind_some, Prog.alone_lift_iff] at hrun
  have hdead : ∀ v, made.2 v ≠ refEmpty → ¬ g.node.Live (made.2 v).toNat := by
    intro v hv
    have hin : v ∈ listedNodes faceids (g.cell .tri) := by
      by_contra hnot
      exact hv (hnew.blank v hnot)
    obtain ⟨k, hk, hkdead, _⟩ := hnew.made v hin
    rw [hk, Int.toNat_natCast]
    exact hkdead
  obtain ⟨real, hstore, hold⟩ := offsetNodes_spec hdead (Prog.alone_lift_iff.mp hoffset)
  refine ⟨offset.1, made.2, offset.2, ?_, hrun⟩
  rw [hstore]
  have hkeeps := hnew.keeps
  refine ⟨⟨hnew.inv.toSlotInv.congr rfl rfl rfl rfl, hnew.inv.ascending, hnew.inv.aligned,
    hnew.inv.covers⟩, hnew.rank, ⟨hkeeps.live, hkeeps.global, hkeeps.part, hkeeps.age, ?_,
    hkeeps.aux⟩, hnew.live, hnew.made, hnew.once⟩
  intro k hk
  exact (hold k hk).trans (hkeeps.real k hk)

end Nodes

end RefInflate

end RefineMesh
