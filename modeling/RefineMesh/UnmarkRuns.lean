import Mathlib.Tactic
import RefineMesh.RelaxRuns
import RefineMesh.Unmark

/-!
# Taking marks back ends with marks that can be cut

What one visit of a tet takes away, then one sweep of a rank, one round of all
ranks and the rounds that follow each other.  A mark that a rank takes away is
gone on all ranks after the exchange, so every round that goes on has fewer
marked edges.
-/

namespace RefineMesh

open ArrayLoop MarkClosure Spmd

variable {D : Type}

namespace RefSubdiv

/-! ## One tet -/

/-- Some of the first `n` marks are taken away, and the flag tells. -/
structure Lowers (n : Nat) (acc acc' : Relaxation) : Prop where
  lower : ∀ e, acc'.1 e = acc.1 e ∨ acc'.1 e = 0
  kept : acc.2 = true → acc'.2 = true
  moved : acc'.2 = true → acc.2 = true ∨ ∃ e, e < n ∧ acc.1 e ≠ 0 ∧ acc'.1 e = 0
  still : acc'.2 = false → acc'.1 = acc.1

theorem Lowers.refl (n : Nat) (acc : Relaxation) : Lowers n acc acc :=
  ⟨fun _ => Or.inl rfl, id, Or.inl, fun _ => rfl⟩

theorem Lowers.flag_false {n : Nat} {acc acc' : Relaxation} (h : Lowers n acc acc')
    (hstill : acc'.2 = false) : acc.2 = false := by
  by_contra hflag
  rw [h.kept (by simpa using hflag)] at hstill
  cases hstill

theorem Lowers.trans {n : Nat} {acc acc1 acc2 : Relaxation} (h : Lowers n acc acc1)
    (h' : Lowers n acc1 acc2) : Lowers n acc acc2 := by
  refine ⟨?_, fun hflag => h'.kept (h.kept hflag), ?_, ?_⟩
  · intro e
    rcases h'.lower e with h2 | h2
    · rw [h2]
      exact h.lower e
    · exact Or.inr h2
  · intro hflag
    rcases h'.moved hflag with hflag1 | ⟨e, he, hmark, hgone⟩
    · rcases h.moved hflag1 with hflag0 | ⟨e, he, hmark, hgone⟩
      · exact Or.inl hflag0
      · refine Or.inr ⟨e, he, hmark, ?_⟩
        rcases h'.lower e with h2 | h2
        · exact h2.trans hgone
        · exact h2
    · refine Or.inr ⟨e, he, ?_, hgone⟩
      rcases h.lower e with h1 | h1
      · rwa [← h1]
      · exact absurd h1 hmark
  · intro hstill
    rw [h'.still hstill, h.still (h'.flag_false hstill)]

section Tet

variable {s : RefSubdiv D} {n cell : Nat} {refCell : RefCell}

theorem unmarkOneOfTwo_eq (s : RefSubdiv D) (a b : Nat) (mark : Nat → Int) :
    ∃ e, (e = a ∨ e = b) ∧ s.unmarkOneOfTwo a b mark = Function.update mark e 0 := by
  unfold unmarkOneOfTwo
  grind

/-- One of two marked edges loses its mark. -/
theorem lowers_unmarkOneOfTwo {a b : Nat} (ha : a < n) (hb : b < n) {acc : Relaxation}
    (hma : acc.1 a ≠ 0) (hmb : acc.1 b ≠ 0) :
    Lowers n acc (s.unmarkOneOfTwo a b acc.1, true) := by
  obtain ⟨e, he, heq⟩ := s.unmarkOneOfTwo_eq a b acc.1
  have hlt : e < n := by
    rcases he with rfl | rfl
    · exact ha
    · exact hb
  have hmark : acc.1 e ≠ 0 := by
    rcases he with rfl | rfl
    · exact hma
    · exact hmb
  rw [heq]
  refine ⟨?_, fun _ => rfl, fun _ => Or.inr ⟨e, hlt, hmark, Function.update_self ..⟩, ?_⟩
  · intro e'
    by_cases h : e' = e
    · subst h
      exact Or.inr (Function.update_self ..)
    · exact Or.inl (Function.update_of_ne h _ _)
  · intro h
    cases h

/-- One test of the source. -/
theorem lowers_ite (s : RefSubdiv D) {a b : Nat} (ha : a < n) (hb : b < n) (acc : Relaxation)
    (c : Prop) [Decidable c] (hc : c → acc.1 a ≠ 0 ∧ acc.1 b ≠ 0) :
    Lowers n acc (if c then (s.unmarkOneOfTwo a b acc.1, true) else acc) ∧
      ((if c then (s.unmarkOneOfTwo a b acc.1, true) else acc).2 = false → ¬ c) := by
  by_cases h : c
  · simp only [if_pos h]
    exact ⟨lowers_unmarkOneOfTwo ha hb (hc h).1 (hc h).2, fun hflag => by cases hflag⟩
  · simp only [if_neg h]
    exact ⟨.refl n acc, fun _ => h⟩

/-- Two of three edges have a mark. -/
def TwoOf (mark : Nat → Int) (e0 e1 e2 : Nat) : Prop :=
  (mark e0 ≠ 0 ∧ mark e1 ≠ 0 ∧ mark e2 = 0) ∨ (mark e0 ≠ 0 ∧ mark e1 = 0 ∧ mark e2 ≠ 0) ∨
    (mark e0 = 0 ∧ mark e1 ≠ 0 ∧ mark e2 ≠ 0)

/-- **One face.** -/
theorem unmarkTetFace_lowers {s0 s1 s2 e0 e1 e2 : Nat} (h0 : s.c2e refCell s0 cell = .ok e0)
    (h1 : s.c2e refCell s1 cell = .ok e1) (h2 : s.c2e refCell s2 cell = .ok e2) (hlt0 : e0 < n)
    (hlt1 : e1 < n) (hlt2 : e2 < n) (acc : Relaxation) :
    ∃ acc', s.unmarkTetFace refCell cell s0 s1 s2 acc = .ok acc' ∧ Lowers n acc acc' ∧
      (acc'.2 = false → ¬ TwoOf acc.1 e0 e1 e2) := by
  simp only [unmarkTetFace, h0, h1, h2, bind, Except.bind]
  obtain ⟨hlow1, hoff1⟩ := lowers_ite s hlt0 hlt1 acc
    (acc.1 e0 ≠ 0 ∧ acc.1 e1 ≠ 0 ∧ acc.1 e2 = 0) fun h => ⟨h.1, h.2.1⟩
  set acc1 := if acc.1 e0 ≠ 0 ∧ acc.1 e1 ≠ 0 ∧ acc.1 e2 = 0 then
    (s.unmarkOneOfTwo e0 e1 acc.1, true) else acc with hacc1
  obtain ⟨hlow2, hoff2⟩ := lowers_ite s hlt0 hlt2 acc1
    (acc1.1 e0 ≠ 0 ∧ acc1.1 e1 = 0 ∧ acc1.1 e2 ≠ 0) fun h => ⟨h.1, h.2.2⟩
  set acc2 := if acc1.1 e0 ≠ 0 ∧ acc1.1 e1 = 0 ∧ acc1.1 e2 ≠ 0 then
    (s.unmarkOneOfTwo e0 e2 acc1.1, true) else acc1 with hacc2
  obtain ⟨hlow3, hoff3⟩ := lowers_ite s hlt1 hlt2 acc2
    (acc2.1 e0 = 0 ∧ acc2.1 e1 ≠ 0 ∧ acc2.1 e2 ≠ 0) fun h => ⟨h.2.1, h.2.2⟩
  refine ⟨_, rfl, (hlow1.trans hlow2).trans hlow3, ?_⟩
  intro hstill htwo
  -- nothing moved, so all three tests saw the marks of the start
  have hstill2 := hlow3.flag_false hstill
  have hstill1 := hlow2.flag_false hstill2
  have hsame1 := hlow1.still hstill1
  have hsame2 := (hlow2.still hstill2).trans hsame1
  have hno1 := hoff1 hstill1
  have hno2 := hoff2 hstill2
  have hno3 := hoff3 hstill
  rw [hsame1] at hno2
  rw [hsame2] at hno3
  rcases htwo with h | h | h
  · exact hno1 h
  · exact hno2 h
  · exact hno3 h

/-- One pair of opposite edges. -/
theorem unmarkTetOppEdge_lowers {s0 s1 e0 e1 : Nat} (h0 : s.c2e refCell s0 cell = .ok e0)
    (h1 : s.c2e refCell s1 cell = .ok e1) (hlt0 : e0 < n) (hlt1 : e1 < n) (acc : Relaxation) :
    ∃ acc', s.unmarkTetOppEdge refCell cell s0 s1 acc = .ok acc' ∧ Lowers n acc acc' ∧
      (acc'.2 = false → ¬ (acc.1 e0 ≠ 0 ∧ acc.1 e1 ≠ 0)) := by
  simp only [unmarkTetOppEdge, h0, h1, bind, Except.bind]
  obtain ⟨hlow, hoff⟩ := lowers_ite s hlt0 hlt1 acc
    (acc.1 e0 ≠ 0 ∧ acc.1 e1 ≠ 0) id
  exact ⟨_, rfl, hlow, hoff⟩

/-- Two opposite edges of a tet are all that has a mark. -/
def OppositeOnly (mark : Nat → Int) (e : Nat → Nat) : Prop :=
  mark (e 0) + mark (e 1) + mark (e 2) + mark (e 3) + mark (e 4) + mark (e 5) = 2 ∧
    ((mark (e 0) ≠ 0 ∧ mark (e 5) ≠ 0) ∨ (mark (e 1) ≠ 0 ∧ mark (e 4) ≠ 0) ∨
      (mark (e 2) ≠ 0 ∧ mark (e 3) ≠ 0))

/-- No face of a tet has two marked edges, and the tet has not two opposite
ones only. -/
structure Settled (mark : Nat → Int) (e : Nat → Nat) : Prop where
  face0 : ¬ TwoOf mark (e 3) (e 4) (e 5)
  face1 : ¬ TwoOf mark (e 1) (e 2) (e 5)
  face2 : ¬ TwoOf mark (e 0) (e 4) (e 2)
  face3 : ¬ TwoOf mark (e 0) (e 1) (e 3)
  opposite : ¬ OppositeOnly mark e

/-- The opposite edges. -/
theorem unmarkTetOpp_lowers {e : Nat → Nat}
    (he : ∀ i < 6, s.c2e (s.grid.cell .tet) i cell = .ok (e i) ∧ e i < n) (acc : Relaxation) :
    ∃ acc', s.unmarkTetOpp cell acc = .ok acc' ∧ Lowers n acc acc' ∧
      (acc'.2 = false → ¬ OppositeOnly acc.1 e) := by
  obtain ⟨h0, hlt0⟩ := he 0 (by decide)
  obtain ⟨h1, hlt1⟩ := he 1 (by decide)
  obtain ⟨h2, hlt2⟩ := he 2 (by decide)
  obtain ⟨h3, hlt3⟩ := he 3 (by decide)
  obtain ⟨h4, hlt4⟩ := he 4 (by decide)
  obtain ⟨h5, hlt5⟩ := he 5 (by decide)
  simp only [unmarkTetOpp, h0, h1, h2, h3, h4, h5, bind, Except.bind]
  by_cases hsum : acc.1 (e 0) + acc.1 (e 1) + acc.1 (e 2) + acc.1 (e 3) + acc.1 (e 4) +
      acc.1 (e 5) = 2
  · rw [if_pos hsum]
    obtain ⟨acc1, hrun1, hlow1, hoff1⟩ := unmarkTetOppEdge_lowers h0 h5 hlt0 hlt5 acc
    obtain ⟨acc2, hrun2, hlow2, hoff2⟩ := unmarkTetOppEdge_lowers h1 h4 hlt1 hlt4 acc1
    obtain ⟨acc3, hrun3, hlow3, hoff3⟩ := unmarkTetOppEdge_lowers h2 h3 hlt2 hlt3 acc2
    simp only [hrun1, hrun2, hrun3]
    refine ⟨acc3, rfl, (hlow1.trans hlow2).trans hlow3, ?_⟩
    intro hstill hopposite
    have hstill2 := hlow3.flag_false hstill
    have hstill1 := hlow2.flag_false hstill2
    have hsame1 := hlow1.still hstill1
    have hno2 := hoff2 hstill2
    have hno3 := hoff3 hstill
    rw [hsame1] at hno2
    rw [hlow2.still hstill2, hsame1] at hno3
    rcases hopposite.2 with h | h | h
    · exact hoff1 hstill1 h
    · exact hno2 h
    · exact hno3 h
  · rw [if_neg hsum]
    exact ⟨acc, rfl, .refl n acc, fun _ hopposite => hsum hopposite.1⟩

/-- **One tet.** -/
theorem unmarkTet_lowers {e : Nat → Nat}
    (he : ∀ i < 6, s.c2e (s.grid.cell .tet) i cell = .ok (e i) ∧ e i < n) (acc : Relaxation) :
    ∃ acc', s.unmarkTet cell acc = .ok acc' ∧ Lowers n acc acc' ∧
      (acc'.2 = false → Settled acc.1 e) := by
  obtain ⟨h0, hlt0⟩ := he 0 (by decide)
  obtain ⟨h1, hlt1⟩ := he 1 (by decide)
  obtain ⟨h2, hlt2⟩ := he 2 (by decide)
  obtain ⟨h3, hlt3⟩ := he 3 (by decide)
  obtain ⟨h4, hlt4⟩ := he 4 (by decide)
  obtain ⟨h5, hlt5⟩ := he 5 (by decide)
  obtain ⟨acc1, hrun1, hlow1, hoff1⟩ := unmarkTetFace_lowers h3 h4 h5 hlt3 hlt4 hlt5 acc
  obtain ⟨acc2, hrun2, hlow2, hoff2⟩ := unmarkTetFace_lowers h1 h2 h5 hlt1 hlt2 hlt5 acc1
  obtain ⟨acc3, hrun3, hlow3, hoff3⟩ := unmarkTetFace_lowers h0 h4 h2 hlt0 hlt4 hlt2 acc2
  obtain ⟨acc4, hrun4, hlow4, hoff4⟩ := unmarkTetFace_lowers h0 h1 h3 hlt0 hlt1 hlt3 acc3
  obtain ⟨acc5, hrun5, hlow5, hoff5⟩ := unmarkTetOpp_lowers he acc4
  refine ⟨acc5, ?_, (((hlow1.trans hlow2).trans hlow3).trans hlow4).trans hlow5, ?_⟩
  · simp only [unmarkTet, hrun1, hrun2, hrun3, hrun4, hrun5, bind, Except.bind]
  · intro hstill
    have hstill4 := hlow5.flag_false hstill
    have hstill3 := hlow4.flag_false hstill4
    have hstill2 := hlow3.flag_false hstill3
    have hstill1 := hlow2.flag_false hstill2
    have hsame1 := hlow1.still hstill1
    have hsame2 := (hlow2.still hstill2).trans hsame1
    have hsame3 := (hlow3.still hstill3).trans hsame2
    have hsame4 := (hlow4.still hstill4).trans hsame3
    exact ⟨hoff1 hstill1, hsame1 ▸ hoff2 hstill2, hsame2 ▸ hoff3 hstill3,
      hsame3 ▸ hoff4 hstill4, hsame4 ▸ hoff5 hstill⟩

end Tet

end RefSubdiv

/-! ## One rank -/

theorem RefEdge.Marks01.lower {s : RefEdge} {n : Nat} {acc acc' : RefSubdiv.Relaxation}
    (h01 : s.Marks01 acc.1) (h : RefSubdiv.Lowers n acc acc') : s.Marks01 acc'.1 := by
  intro e he
  rcases h.lower e with hsame | hgone
  · rw [hsame]
    exact h01 e he
  · exact Or.inl hgone

/-- Bits in place of marks. -/
theorem RefSubdiv.Settled.closedBits {mark : Nat → Int} {e : Nat → Nat} {x : Nat} (hx : x < 64)
    (hbit : ∀ i < 6, mark (e i) = ((x.testBit i).toNat : Int)) (h : RefSubdiv.Settled mark e) :
    ClosedBits x := by
  have htwo : ∀ i < 6, ∀ j < 6, ∀ k < 6, marks x [i, j, k] = 2 →
      RefSubdiv.TwoOf mark (e i) (e j) (e k) := by
    intro i hi j hj k hk
    unfold RefSubdiv.TwoOf
    rw [hbit i hi, hbit j hj, hbit k hk]
    cases hbi : x.testBit i <;> cases hbj : x.testBit j <;> cases hbk : x.testBit k <;>
      simp [marks, hbi, hbj, hbk]
  apply (visited x hx).settled
  · intro edges hedges
    simp only [List.mem_cons, List.not_mem_nil, or_false] at hedges
    rcases hedges with rfl | rfl | rfl | rfl
    · exact fun hmarks => h.face0 (htwo 3 (by decide) 4 (by decide) 5 (by decide) hmarks)
    · exact fun hmarks => h.face1 (htwo 1 (by decide) 2 (by decide) 5 (by decide) hmarks)
    · exact fun hmarks => h.face2 (htwo 0 (by decide) 4 (by decide) 2 (by decide) hmarks)
    · exact fun hmarks => h.face3 (htwo 0 (by decide) 1 (by decide) 3 (by decide) hmarks)
  · rintro ⟨hsum, hpair⟩
    refine h.opposite ⟨?_, ?_⟩
    · rw [hbit 0 (by decide), hbit 1 (by decide), hbit 2 (by decide), hbit 3 (by decide),
        hbit 4 (by decide), hbit 5 (by decide)]
      simp only [marks, List.map_cons, List.map_nil, List.sum_cons, List.sum_nil] at hsum
      omega
    · rw [hbit 0 (by decide), hbit 1 (by decide), hbit 2 (by decide), hbit 3 (by decide),
        hbit 4 (by decide), hbit 5 (by decide)]
      simpa using hpair

section Rank

variable {p : Nat} {s : Nat → RefSubdiv D} {r c : Nat}

/-- One visit of a tet; when it takes nothing away, the marks are closed on the
tet. -/
theorem TetsMarked.unmarkTet_lowers (h : TetsMarked p s) (hr : r < p)
    (hlive : ((s r).grid.cell .tet).Live c) {acc : RefSubdiv.Relaxation}
    (h01 : (s r).edge.Marks01 acc.1) :
    ∃ acc', (s r).unmarkTet c acc = .ok acc' ∧ RefSubdiv.Lowers (s r).edge.n acc acc' ∧
      (acc'.2 = false → Closed (((s r).grid.cell .tet).key (s r).grid.node c)
        ((s r).edge.markedKeys (s r).grid.node acc.1)) := by
  obtain ⟨e, hedges, hkeys⟩ := h.exists_tetEdges hr hlive
  obtain ⟨acc', hrun, hlowers, hsettled⟩ := RefSubdiv.unmarkTet_lowers hedges acc
  refine ⟨acc', hrun, hlowers, fun hstill => ?_⟩
  set g := ((s r).grid.cell .tet).nodeGlobal (s r).grid.node c with hg
  obtain ⟨x, hx, hshows⟩ := exists_shows g ((s r).edge.markedKeys (s r).grid.node acc.1)
  have hbit := h.mark_eq_bit hr h01 (fun i hi => (hedges i hi).2) hkeys hshows
  have htetra : ((s r).grid.cell .tet).key (s r).grid.node c = tetra g := by
    ext a
    rw [h.grids.mem_key hr, mem_tetra]
  rw [htetra]
  exact (hshows.closed_iff (h.corners hr hlive)).mpr ((hsettled hstill).closedBits hx hbit)

/-- Tet after tet. -/
theorem TetsMarked.unmarkTets_lowers (h : TetsMarked p s) (hr : r < p) :
    ∀ (l : List Nat), (∀ c ∈ l, ((s r).grid.cell .tet).Live c) → ∀ (acc : RefSubdiv.Relaxation),
      (s r).edge.Marks01 acc.1 →
      ∃ acc', l.foldlM (fun acc c => (s r).unmarkTet c acc) acc = Except.ok acc' ∧
        RefSubdiv.Lowers (s r).edge.n acc acc' ∧
        (acc'.2 = false → ∀ c ∈ l, Closed (((s r).grid.cell .tet).key (s r).grid.node c)
          ((s r).edge.markedKeys (s r).grid.node acc.1)) := by
  intro l
  induction l with
  | nil => exact fun _ acc _ => ⟨acc, rfl, .refl _ acc, fun _ c hc => by cases hc⟩
  | cons c l ih =>
      intro hlive acc h01
      obtain ⟨acc1, hrun1, hlow1, hclosed1⟩ :=
        h.unmarkTet_lowers hr (hlive c List.mem_cons_self) h01
      obtain ⟨acc2, hrun2, hlow2, hclosed2⟩ :=
        ih (fun c hc => hlive c (List.mem_cons_of_mem _ hc)) acc1 (h01.lower hlow1)
      refine ⟨acc2, ?_, hlow1.trans hlow2, ?_⟩
      · rw [List.foldlM_cons, hrun1]
        exact hrun2
      · intro hstill c' hc'
        have hstill1 := hlow2.flag_false hstill
        rcases List.mem_cons.mp hc' with rfl | hin
        · exact hclosed1 hstill1
        · rw [← hlow1.still hstill1]
          exact hclosed2 hstill c' hin

/-- **One sweep of a rank** takes marks away, or finds them closed on all its
tets. -/
theorem TetsMarked.unmarkSweep_lowers (h : TetsMarked p s) (hr : r < p) {mark : Nat → Int}
    (h01 : (s r).edge.Marks01 mark) :
    ∃ acc, (s r).unmarkSweep mark = .ok acc ∧
      RefSubdiv.Lowers (s r).edge.n (mark, false) acc ∧
      (acc.2 = false → ∀ T ∈ rankTets s r,
        Closed T ((s r).edge.markedKeys (s r).grid.node mark)) := by
  obtain ⟨acc, hrun, hlowers, hclosed⟩ := h.unmarkTets_lowers hr
    ((s r).grid.cell .tet).validCells (fun c hc => RefCell.mem_validCells.mp hc) (mark, false) h01
  refine ⟨acc, ?_, hlowers, ?_⟩
  · have htets := h.foldlM_types3d hr (fun acc t c =>
      if ((s r).grid.cell t).nodePer = 4 then (s r).unmarkTet c acc else .ok acc) (mark, false)
    rw [RefSubdiv.unmarkSweep, htets, h.grids.nodePer_eq hr]
    exact hrun
  · rintro hstill T ⟨c, hlive, rfl⟩
    exact hclosed hstill c (RefCell.mem_validCells.mpr hlive)

end Rank

/-! ## One round -/

/-- The edges with a mark on every rank that has them. -/
def keptEdges (p : Nat) (s : Nat → RefSubdiv D) (marks : Nat → Nat → Int) : Set (Sym2 Int) :=
  {k | k ∈ edgeKeys p s ∧ ∀ q, q < p → ∀ e, e < (s q).edge.n →
    (s q).edge.key (s q).grid.node e = k → marks q e = 1}

/-- The sweep of every rank and the exchange after it. -/
structure UnmarkRound (p : Nat) (s : Nat → RefSubdiv D) (mem : Nat → RequestMemory Int)
    (marks : Nat → Nat → Int) (acc : Nat → RefSubdiv.Relaxation) (marks' : Nat → Nat → Int) :
    Prop where
  sweep : ∀ r, r < p → (s r).unmarkSweep (marks r) = .ok (acc r)
  exchange : Runs p (fun r => (s r).edge.ghostMinInt p (s r).grid.node (acc r).1 (mem r)) marks'

section Round

variable {p : Nat} {s : Nat → RefSubdiv D} {mem : Nat → RequestMemory Int}
  {marks marks' : Nat → Nat → Int} {acc : Nat → RefSubdiv.Relaxation} {G : Set (Sym2 Int)}

/-- After the exchange all ranks have the marks that no copy has lost. -/
theorem TetsMarked.consistent_of_leastValue {marks out : Nat → Nat → Int}
    (h01 : ∀ r, r < p → (s r).edge.Marks01 (marks r))
    (hout : LeastValue p (fun r => (s r).grid.node) (fun r => (s r).edge) marks out) :
    Consistent p s out (keptEdges p s marks) := by
  refine ⟨?_, ?_, fun k hk => hk.1⟩
  · intro r hr e he
    obtain ⟨q, e', hq, he', _, hvalue⟩ := (hout r hr e he).1
    rw [← hvalue]
    exact h01 q hq e' he'
  · intro r hr
    ext k
    constructor
    · rintro ⟨e, he, rfl, hmark⟩
      refine ⟨⟨e, he, rfl⟩, ⟨r, hr, e, he, rfl⟩, ?_⟩
      intro q hq e' he' hkey
      have hle : out r e ≤ marks q e' := (hout r hr e he).2 ⟨q, e', hq, he', hkey, rfl⟩
      rcases h01 q hq e' he' with h0 | h1
      · omega
      · exact h1
    · rintro ⟨⟨e, he, rfl⟩, _, hall⟩
      obtain ⟨q, e', hq, he', hkey, hvalue⟩ := (hout r hr e he).1
      exact ⟨e, he, rfl, hvalue.symm.trans (hall q hq e' he' hkey)⟩

theorem Consistent.keptEdges_eq (h : TetsMarked p s) (hG : Consistent p s marks G) :
    keptEdges p s marks = G := by
  ext k
  constructor
  · rintro ⟨⟨r, hr, e, he, rfl⟩, hall⟩
    exact (hG.mark_iff h hr he).mp (hall r hr e he rfl)
  · intro hk
    refine ⟨hG.sub hk, ?_⟩
    rintro q hq e he rfl
    exact (hG.mark_iff h hq he).mpr hk

/-- What a round does to marks on which the ranks agree. -/
structure Rounded (p : Nat) (s : Nat → RefSubdiv D) (acc : Nat → RefSubdiv.Relaxation)
    (marks' : Nat → Nat → Int) (G : Set (Sym2 Int)) : Prop where
  marks01 : ∀ r, r < p → (s r).edge.Marks01 (acc r).1
  consistent : Consistent p s marks' (keptEdges p s fun r => (acc r).1)
  sub : keptEdges p s (fun r => (acc r).1) ⊆ G
  moved : ∀ r, r < p → (acc r).2 = true → ∃ k ∈ G, k ∉ keptEdges p s fun r => (acc r).1
  still : (∀ r, r < p → (acc r).2 = false) →
    keptEdges p s (fun r => (acc r).1) = G ∧ ClosedAll p (rankTets s) G

/-- **One round.** -/
theorem TetsMarked.rounded (h : TetsMarked p s) (hp : 0 < p)
    (hfit : p ≤ 1 ∨ EdgesFit p (fun r => (s r).grid.node) fun r => (s r).edge)
    (hG : Consistent p s marks G) (hround : UnmarkRound p s mem marks acc marks') :
    Rounded p s acc marks' G := by
  have hsweep : ∀ r, r < p → RefSubdiv.Lowers (s r).edge.n (marks r, false) (acc r) ∧
      ((acc r).2 = false → ∀ T ∈ rankTets s r,
        Closed T ((s r).edge.markedKeys (s r).grid.node (marks r))) := by
    intro r hr
    obtain ⟨acc', hrun, hlowers, hclosed⟩ := h.unmarkSweep_lowers hr (hG.marks01 r hr)
    rw [hround.sweep r hr, Except.ok.injEq] at hrun
    rw [hrun]
    exact ⟨hlowers, hclosed⟩
  have h01 : ∀ r, r < p → (s r).edge.Marks01 (acc r).1 := by
    intro r hr
    have hstart : (s r).edge.Marks01 (marks r, false).1 := hG.marks01 r hr
    exact hstart.lower (hsweep r hr).1
  have hvalues := (h.edges.ghostMinInt_yields hp hfit (fun r => (acc r).1) mem).2 marks'
    hround.exchange
  refine ⟨h01, TetsMarked.consistent_of_leastValue h01 hvalues, ?sub, ?moved, ?still⟩
  case sub =>
    rintro k ⟨⟨r, hr, e, he, rfl⟩, hall⟩
    have hmark : (acc r).1 e = 1 := hall r hr e he rfl
    rw [← hG.mark_iff h hr he]
    rcases (hsweep r hr).1.lower e with hsame | hgone
    · exact hsame.symm.trans hmark
    · omega
  case moved =>
    intro r hr hflag
    rcases (hsweep r hr).1.moved hflag with hstart | ⟨e, he, hmark, hgone⟩
    · cases hstart
    · refine ⟨(s r).edge.key (s r).grid.node e, ?_, ?_⟩
      · rw [← hG.mark_iff h hr he]
        exact (hG.marks01 r hr e he).resolve_left hmark
      · intro hkept
        have hone : (acc r).1 e = 1 := hkept.2 r hr e he rfl
        omega
  case still =>
    intro hstill
    have hsame : ∀ r, r < p → (acc r).1 = marks r := fun r hr => (hsweep r hr).1.still (hstill r hr)
    constructor
    · rw [← hG.keptEdges_eq h]
      ext k
      refine and_congr_right fun _ => forall_congr' fun q => forall_congr' fun hq => ?_
      simp only [hsame q hq]
    · intro r hr T hT
      refine ((hsweep r hr).2 (hstill r hr) T hT).congr ?_
      intro a ha b hb hab
      rw [hG.keys r hr]
      exact ⟨fun hk => hk.2, fun hk => ⟨h.shared.edge r hr T hT a ha b hb hab, hk⟩⟩

end Round

/-! ## All rounds -/

/-- The marks on the ranks when `left` more sweeps may follow: those of the
owners, and after each sweep in which a rank took a mark away. -/
inductive UnmarkReached (p : Nat) (s : Nat → RefSubdiv D)
    (mem : Nat → Nat → RequestMemory Int) : Nat → (Nat → Nat → Int) → Prop
  | start {marks : Nat → Nat → Int} :
      Runs p (fun r => (s r).edge.ghostInt p (s r).grid.node (s r).mark (mem r sweepLimit))
        marks → UnmarkReached p s mem sweepLimit marks
  | sweep {left : Nat} {marks : Nat → Nat → Int} {acc : Nat → RefSubdiv.Relaxation}
      {marks' : Nat → Nat → Int} : UnmarkReached p s mem (left + 1) marks →
      UnmarkRound p s (fun r => mem r left) marks acc marks' →
      (∃ r, r < p ∧ (acc r).2 = true) → UnmarkReached p s mem left marks'

section Rounds

variable {p : Nat} {s : Nat → RefSubdiv D} {mem : Nat → Nat → RequestMemory Int}
  {marks marks' : Nat → Nat → Int} {acc : Nat → RefSubdiv.Relaxation} {out : Nat → Nat → Int}

/-- Nothing is reached when the requests do not fit. -/
theorem UnmarkReached.fit (h : TetsMarked p s) {left : Nat}
    (hreached : UnmarkReached p s mem left marks) :
    p ≤ 1 ∨ EdgesFit p (fun r => (s r).grid.node) fun r => (s r).edge := by
  induction hreached with
  | @start marks hrun =>
      have hbind : Runs p (fun r => ((s r).edge.ghost p (s r).grid.node .int (s r).mark
          (mem r sweepLimit)).bind .ret) marks := hrun.congr fun r _ => Prog.bind_ret _
      exact h.edges.fit_of_runs hbind
  | sweep _ _ _ ih => exact ih

/-- The ranks agree on marks of the owners. -/
theorem UnmarkReached.consistent (h : TetsMarked p s) (hp : 0 < p) {left : Nat}
    (hreached : UnmarkReached p s mem left marks) :
    ∃ G, Consistent p s marks G ∧ G ⊆ ownersMarked p s fun r => (s r).mark := by
  have hfit := hreached.fit h
  induction hreached with
  | @start marks hrun =>
      have hvalues := (h.edges.ghost_yields hp hfit .int (fun r => (s r).mark)
        fun r => mem r sweepLimit).2 marks hrun
      exact ⟨_, h.consistent_of_ownersValue h.marks hvalues, subset_rfl⟩
  | sweep _ hround _ ih =>
      obtain ⟨G, hG, hsub⟩ := ih
      have hrounded := h.rounded hp hfit hG hround
      exact ⟨_, hrounded.consistent, hrounded.sub.trans hsub⟩

/-- The end of a sweep; the count before it is for the log only. -/
theorem runs_unmarkNext_iff (hp : 0 < p) {left : Nat} {next : Nat → RankProg D (Nat → Int)} :
    Runs p (fun r => (s r).unmarkNext left (marks r) (acc r).2 (next r)) out ↔
      left ≠ 0 ∧ ((∃ r, r < p ∧ (acc r).2 = true) → Runs p next out) ∧
        ((∀ r, r < p → (acc r).2 = false) → ∀ r, r < p → out r = marks r) := by
  have hrest : Runs p (fun r => (s r).unmarkNext left (marks r) (acc r).2 (next r)) out ↔
      Runs p (fun r => if left = 0 then .fail .failure
        else allOr (acc r).2 fun again => if again then next r else .ret (marks r)) out := by
    by_cases hlog : 5 < sweepLimit - left
    · simp only [RefSubdiv.unmarkNext, if_pos hlog]
      exact runs_allsum_iff hp fun r _ => rfl
    · simp only [RefSubdiv.unmarkNext, if_neg hlog]
  rw [hrest]
  by_cases hlast : left = 0
  · simp only [if_pos hlast]
    exact ⟨fun hrun => absurd hrun (not_runs_of_fail hp rfl), fun h => absurd hlast h.1⟩
  · simp only [if_neg hlast]
    by_cases hmoved : ∃ r, r < p ∧ (acc r).2 = true
    · rw [runs_allOr_iff (b := true) hp (iff_of_true rfl hmoved)]
      refine ⟨fun hrun => ⟨hlast, fun _ => hrun, fun hstill => ?_⟩, fun h => h.2.1 hmoved⟩
      obtain ⟨r, hr, hflag⟩ := hmoved
      rw [hstill r hr] at hflag
      cases hflag
    · have hstill := flags_false hmoved
      rw [runs_allOr_iff (b := false) hp (iff_of_false Bool.false_ne_true hmoved)]
      refine Iff.trans (runs_ret_iff hp fun r _ => rfl) ?_
      exact ⟨fun hout => ⟨hlast, fun hm => absurd hm hmoved, fun _ => hout⟩,
        fun h => h.2.2 hstill⟩

/-- A sweep of the program is a round and what follows. -/
theorem UnmarkRound.runs_iff (hp : 0 < p) {left : Nat}
    (hround : UnmarkRound p s (fun r => mem r left) marks acc marks') :
    Runs p (fun r => (s r).unmarkSweeps p (mem r) (left + 1) (marks r)) out ↔
      left ≠ 0 ∧
        ((∃ r, r < p ∧ (acc r).2 = true) →
          Runs p (fun r => (s r).unmarkSweeps p (mem r) left (marks' r)) out) ∧
        ((∀ r, r < p → (acc r).2 = false) → ∀ r, r < p → out r = marks' r) := by
  have hsweep : Runs p (fun r => (Prog.lift ((s r).unmarkSweep (marks r)) :
      RankProg D RefSubdiv.Relaxation)) acc := (runs_lift_iff hp).mpr hround.sweep
  exact (hsweep.bind_iff hp).trans
    ((hround.exchange.bind_iff hp).trans (runs_unmarkNext_iff hp))

/-- Marks on which the ranks agree have a round. -/
theorem TetsMarked.exists_round (h : TetsMarked p s) (hp : 0 < p)
    (hfit : p ≤ 1 ∨ EdgesFit p (fun r => (s r).grid.node) fun r => (s r).edge)
    {G : Set (Sym2 Int)} (hG : Consistent p s marks G) (mem : Nat → RequestMemory Int) :
    ∃ acc marks', UnmarkRound p s mem marks acc marks' := by
  choose! acc hsweep _ using fun r (hr : r < p) => h.unmarkSweep_lowers hr (hG.marks01 r hr)
  obtain ⟨marks', hexchange⟩ := (h.edges.ghostMinInt_yields hp hfit (fun r => (acc r).1) mem).1
  exact ⟨acc, marks', hsweep, hexchange⟩

/-- **What is reached is what the program goes through.** -/
theorem UnmarkReached.runs_iff (hp : 0 < p) {left : Nat}
    (hreached : UnmarkReached p s mem left marks) :
    Runs p (fun r => (s r).unmarkRelax p (mem r)) out ↔
      Runs p (fun r => (s r).unmarkSweeps p (mem r) left (marks r)) out := by
  induction hreached with
  | start hrun => exact hrun.bind_iff hp
  | @sweep left marks acc marks' hreached hround hmoved ih =>
      rw [ih, hround.runs_iff hp]
      constructor
      · exact fun hrun => hrun.2.1 hmoved
      · intro hrun
        refine ⟨?_, fun _ => hrun, fun hstill => ?_⟩
        · rintro rfl
          exact absurd hrun (not_runs_of_fail hp rfl)
        · obtain ⟨r, hr, hflag⟩ := hmoved
          rw [hstill r hr] at hflag
          cases hflag

/-- The last sweep of a run: no rank takes a mark away. -/
theorem TetsMarked.exists_lastRound (h : TetsMarked p s) (hp : 0 < p) :
    ∀ left marks, UnmarkReached p s mem left marks →
      Runs p (fun r => (s r).unmarkSweeps p (mem r) left (marks r)) out →
      ∃ left marks acc, UnmarkReached p s mem (left + 1) marks ∧
        UnmarkRound p s (fun r => mem r left) marks acc out ∧ ∀ r, r < p → (acc r).2 = false := by
  intro left
  induction left with
  | zero => exact fun _ _ hrun => absurd hrun (not_runs_of_fail hp rfl)
  | succ left ih =>
      intro marks hreached hrun
      obtain ⟨G, hG, _⟩ := hreached.consistent h hp
      obtain ⟨acc, marks', hround⟩ := h.exists_round hp (hreached.fit h) hG fun r => mem r left
      obtain ⟨_, hmore, hlast⟩ := (hround.runs_iff hp).mp hrun
      by_cases hmoved : ∃ r, r < p ∧ (acc r).2 = true
      · exact ih marks' (hreached.sweep hround hmoved) (hmore hmoved)
      · have hstill := flags_false hmoved
        exact ⟨left, marks, acc, hreached,
          ⟨hround.sweep, hround.exchange.congr_out (hlast hstill)⟩, hstill⟩

/-- With fewer marks than sweeps the sweeps come to an end. -/
theorem TetsMarked.unmarkSweeps_run (h : TetsMarked p s) (hp : 0 < p)
    (hfit : p ≤ 1 ∨ EdgesFit p (fun r => (s r).grid.node) fun r => (s r).edge) :
    ∀ left G marks, Consistent p s marks G → G.ncard + 2 ≤ left →
      ∃ out, Runs p (fun r => (s r).unmarkSweeps p (mem r) left (marks r)) out := by
  intro left
  induction left with
  | zero => exact fun _ _ _ hleft => absurd hleft (by omega)
  | succ left ih =>
      intro G marks hG hleft
      obtain ⟨acc, marks', hround⟩ := h.exists_round hp hfit hG fun r => mem r left
      have hrounded := h.rounded hp hfit hG hround
      by_cases hmoved : ∃ r, r < p ∧ (acc r).2 = true
      · have hmore := hmoved
        obtain ⟨r, hr, hflag⟩ := hmore
        obtain ⟨k, hk, hgone⟩ := hrounded.moved r hr hflag
        have hless : (keptEdges p s fun r => (acc r).1).ncard < G.ncard :=
          Set.ncard_lt_ncard ⟨hrounded.sub, fun hback => hgone (hback hk)⟩
            ((finite_edgeKeys p s).subset hG.sub)
        obtain ⟨out, hrun⟩ := ih _ marks' hrounded.consistent (by omega)
        refine ⟨out, (hround.runs_iff hp).mpr ⟨by omega, fun _ => hrun, fun hstill => ?_⟩⟩
        rw [hstill r hr] at hflag
        cases hflag
      · exact ⟨marks', (hround.runs_iff hp).mpr
          ⟨by omega, fun hm => absurd hm hmoved, fun _ _ _ => rfl⟩⟩

end Rounds

/-- What a sweep of all ranks and the exchange after it do. -/
structure SweptMarks (p : Nat) (s : Nat → RefSubdiv D) (marks : Nat → Nat → Int)
    (acc : Nat → RefSubdiv.Relaxation) (marks' : Nat → Nat → Int) : Prop where
  removes : (∃ r, r < p ∧ (acc r).2 = true) →
    ∃ k ∈ markedEdges p s marks, k ∉ markedEdges p s marks'
  unmarks : ∀ r, r < p → ∀ e, e < (s r).edge.n → ((acc r).1 e = marks r e ∨ (acc r).1 e = 0) ∧
    (marks' r e = 1 → (acc r).1 e = 1)
  marks01 : ∀ r, r < p → (s r).edge.Marks01 (marks' r)
  agree : ∀ r q, r < p → q < p → ∀ e e', e < (s r).edge.n → e' < (s q).edge.n →
    (s r).edge.key (s r).grid.node e = (s q).edge.key (s q).grid.node e' → marks' r e = marks' q e'

/-- What `ref_subdiv_unmark_relax` leaves: marks of the owners on which all
ranks agree, with which every tet can be cut. -/
structure Unmarked (p : Nat) (s : Nat → RefSubdiv D) (marks : Nat → Nat → Int) : Prop where
  marks01 : ∀ r, r < p → (s r).edge.Marks01 (marks r)
  agree : ∀ r q, r < p → q < p → ∀ e e', e < (s r).edge.n → e' < (s q).edge.n →
    (s r).edge.key (s r).grid.node e = (s q).edge.key (s q).grid.node e' → marks r e = marks q e'
  sub : markedEdges p s marks ⊆ ownersMarked p s fun r => (s r).mark
  face : ∀ r, r < p → ∀ T ∈ rankTets s r, ∀ a ∈ T, ∀ b ∈ T, ∀ c ∈ T, a ≠ b → a ≠ c → b ≠ c →
    ¬ (s(a, b) ∈ markedEdges p s marks ∧ s(b, c) ∈ markedEdges p s marks ∧
      s(a, c) ∉ markedEdges p s marks)
  opposite : ∀ r, r < p → ∀ T ∈ rankTets s r, ∀ a ∈ T, ∀ b ∈ T, ∀ c ∈ T, ∀ d ∈ T,
    Distinct4 a b c d → ¬ (s(a, b) ∈ markedEdges p s marks ∧ s(c, d) ∈ markedEdges p s marks ∧
      s(a, c) ∉ markedEdges p s marks ∧ s(a, d) ∉ markedEdges p s marks ∧
      s(b, c) ∉ markedEdges p s marks ∧ s(b, d) ∉ markedEdges p s marks)
  implemented : ∀ r, r < p → ∀ mem, (withMarks s marks r).splitTet mem ≠ .error .implement

section Unmarked

variable {p : Nat} {s : Nat → RefSubdiv D} {marks marks' : Nat → Nat → Int}
  {acc : Nat → RefSubdiv.Relaxation} {G : Set (Sym2 Int)}

theorem TetsMarked.unmarked (h : TetsMarked p s) (hG : Consistent p s marks G)
    (hsub : G ⊆ ownersMarked p s fun r => (s r).mark) (hclosed : ClosedAll p (rankTets s) G) :
    Unmarked p s marks := by
  have hmarked := hG.markedEdges_eq
  refine ⟨hG.marks01, fun r q hr hq e e' he he' hkey => hG.agree h hr hq he he' hkey, ?sub, ?face,
    ?opposite, fun r hr mem => h.implemented hG hclosed hr mem⟩
  case sub => rwa [hmarked]
  case face =>
    rw [hmarked]
    rintro r hr T hT a ha b hb c hc hab hac hbc ⟨h1, h2, h3⟩
    exact h3 ((hclosed r hr T hT).face a ha b hb c hc hab hac hbc h1 h2)
  case opposite =>
    rw [hmarked]
    rintro r hr T hT a ha b hb c hc d hd hne ⟨h1, h2, h3, h4, h5, h6⟩
    exact h3 ((hclosed r hr T hT).opposite a ha b hb c hc d hd hne h1 h2 h3 h4 h5 h6).1

/-- One round in terms of the marks. -/
theorem TetsMarked.sweptMarks (h : TetsMarked p s) (hp : 0 < p)
    (hfit : p ≤ 1 ∨ EdgesFit p (fun r => (s r).grid.node) fun r => (s r).edge)
    {mem : Nat → RequestMemory Int} (hG : Consistent p s marks G)
    (hround : UnmarkRound p s mem marks acc marks') : SweptMarks p s marks acc marks' := by
  have hrounded := h.rounded hp hfit hG hround
  have hG' := hrounded.consistent
  refine ⟨?removes, ?unmarks, hG'.marks01,
    fun r q hr hq e e' he he' hkey => hG'.agree h hr hq he he' hkey⟩
  case removes =>
    rintro ⟨r, hr, hflag⟩
    rw [hG.markedEdges_eq, hG'.markedEdges_eq]
    exact hrounded.moved r hr hflag
  case unmarks =>
    intro r hr e he
    constructor
    · obtain ⟨acc', hrun, hlowers, _⟩ := h.unmarkSweep_lowers hr (hG.marks01 r hr)
      rw [hround.sweep r hr, Except.ok.injEq] at hrun
      rw [hrun]
      exact hlowers.lower e
    · intro hmark
      exact ((hG'.mark_iff h hr he).mp hmark).2 r hr e he rfl

end Unmarked

/-- **Marks are taken away until every tet can be cut.**  Every sweep in which a
rank takes a mark away leaves fewer marked edges, and when
`ref_subdiv_unmark_relax` returns, no tet stands in the way of
`ref_subdiv_split_tet`. -/
theorem marks_unmarked {p : Nat} {s : Nat → RefSubdiv D} (hp : 0 < p) (h : TetsMarked p s)
    (mem : Nat → Nat → RequestMemory Int) :
    (∀ left marks acc marks', UnmarkReached p s mem (left + 1) marks →
      UnmarkRound p s (fun r => mem r left) marks acc marks' → SweptMarks p s marks acc marks') ∧
    ∀ out, Runs p (fun r => (s r).unmarkRelax p (mem r)) out → Unmarked p s out := by
  constructor
  · intro left marks acc marks' hreached hround
    obtain ⟨G, hG, _⟩ := hreached.consistent h hp
    exact h.sweptMarks hp (hreached.fit h) hG hround
  · intro out hrun
    have hfit := h.edges.fit_of_runs hrun
    obtain ⟨first, hghost⟩ := (h.edges.ghost_yields hp hfit .int (fun r => (s r).mark)
      fun r => mem r sweepLimit).1
    have hstart : UnmarkReached p s mem sweepLimit first := .start hghost
    obtain ⟨left, marks, acc, hreached, hround, hstill⟩ :=
      h.exists_lastRound hp sweepLimit first hstart ((hstart.runs_iff hp).mp hrun)
    obtain ⟨G, hG, hsub⟩ := hreached.consistent h hp
    have hrounded := h.rounded hp (hreached.fit h) hG hround
    obtain ⟨hsame, hclosed⟩ := hrounded.still hstill
    have hfinal := hrounded.consistent
    rw [hsame] at hfinal
    exact h.unmarked hfinal hsub hclosed

/-- With at most 198 marked edges `ref_subdiv_unmark_relax` returns. -/
theorem unmarkRelax_ends {p : Nat} {s : Nat → RefSubdiv D} (hp : 0 < p) (h : TetsMarked p s)
    (hfit : p ≤ 1 ∨ EdgesFit p (fun r => (s r).grid.node) fun r => (s r).edge)
    (mem : Nat → Nat → RequestMemory Int)
    (hfew : (ownersMarked p s fun r => (s r).mark).ncard + 2 ≤ sweepLimit) :
    ∃ out, Runs p (fun r => (s r).unmarkRelax p (mem r)) out := by
  obtain ⟨⟨first, hghost⟩, hvalues⟩ := h.edges.ghost_yields hp hfit .int (fun r => (s r).mark)
    fun r => mem r sweepLimit
  have hG := h.consistent_of_ownersValue h.marks (hvalues first hghost)
  obtain ⟨out, hrun⟩ := h.unmarkSweeps_run hp hfit sweepLimit _ first hG hfew
  exact ⟨out, (hghost.bind_iff hp).mpr hrun⟩

/-- Opposite edges with different owners. -/
theorem marks_unmarked_two_ranks :
    (∃ out, Runs 2 (fun r => (oneTet (halfStore r) (halfMark r)).unmarkRelax 2 fun _ =>
      ⟨fun _ => 0, fun _ => 0, fun _ => 0, fun _ => 0, fun _ => 0⟩) out) ∧
    (∀ left marks acc marks',
      UnmarkReached 2 (fun r => oneTet (halfStore r) (halfMark r))
        (fun _ _ => ⟨fun _ => 0, fun _ => 0, fun _ => 0, fun _ => 0, fun _ => 0⟩) (left + 1)
        marks →
      UnmarkRound 2 (fun r => oneTet (halfStore r) (halfMark r))
        (fun _ => ⟨fun _ => 0, fun _ => 0, fun _ => 0, fun _ => 0, fun _ => 0⟩) marks acc marks' →
      SweptMarks 2 (fun r => oneTet (halfStore r) (halfMark r)) marks acc marks') ∧
    ∀ out, Runs 2 (fun r => (oneTet (halfStore r) (halfMark r)).unmarkRelax 2 fun _ =>
      ⟨fun _ => 0, fun _ => 0, fun _ => 0, fun _ => 0, fun _ => 0⟩) out →
      Unmarked 2 (fun r => oneTet (halfStore r) (halfMark r)) out := by
  refine ⟨?_, marks_unmarked (by decide) half_marked fun _ _ =>
    ⟨fun _ => 0, fun _ => 0, fun _ => 0, fun _ => 0, fun _ => 0⟩⟩
  refine unmarkRelax_ends (by decide) half_marked (Or.inr half_fit) (fun _ _ =>
    ⟨fun _ => 0, fun _ => 0, fun _ => 0, fun _ => 0, fun _ => 0⟩) ?_
  have hsub : (ownersMarked 2 (fun r => oneTet (halfStore r) (halfMark r)) halfMark).ncard ≤
      (edgeKeys 2 fun r => oneTet (halfStore r) (halfMark r)).ncard :=
    Set.ncard_le_ncard (half_marked.ofOwners_sub _) (finite_edgeKeys 2 _)
  exact (Nat.add_le_add_right (hsub.trans half_edges.le) 2).trans (by decide)

end RefineMesh
