import Mathlib.Tactic
import RefineMesh.NodeGhost

/-!
# Runs of the ghost exchange

When the exchange has a run, every ghost has the entry of its owner.  It has
one exactly when the indices and counts fit and all ranks come to the same
branch: the test is made on the totals of each rank alone, and the branches
make different numbers of collective calls.
-/

namespace RefineMesh

open Segments Spmd

variable {D : Type} {p : Nat} {s : Nat → RefNode D} {t : RefType} {ldim : Nat}
  {aMem bMem : Nat → Nat → Int}

/-! ## Ranks that fail -/

/-- A pass with an index that does not fit fails on the rank that uses it. -/
theorem ghostPass_doomed (h : Distributed p s) {r first n : Nat} (hr : r < p)
    (hbad : (∃ node ∈ (s r).ghosts, refIntMax < first + n - 1 + ldim * node) ∨
      ∃ ask ∈ requestOrder p s r, refIntMax < first + n - 1 + ldim * ownerSlot s ask.1 ask.2)
    (vector aVector bVector : Nat → t.Elem D) :
    (ghostPass p (s r) t ldim (requestOf p s aMem bMem r) first n vector aVector
      bVector).Doomed := by
  rcases hbad with ⟨node, hnode, hover⟩ | ⟨ask, hask, hover⟩
  · -- the data comes back and cannot be stored
    obtain ⟨k, hk⟩ := List.mem_iff_getElem?.mp ((mem_ghostOrder h hr).mpr hnode)
    apply Prog.Doomed.of_bind
    intro bVector
    apply Prog.Doomed.of_bind
    intro aVector
    apply Prog.doomed_lift_bind
    apply ArrayLoop.foldlM_error (a := k)
    · exact List.mem_range.mpr (List.getElem?_eq_some_iff.mp hk).1
    · intro vec
      rw [entrySlot_self h hr hk, if_pos hover]
      exact ⟨_, rfl⟩
  · obtain ⟨k, hk⟩ := List.mem_iff_getElem?.mp hask
    apply Prog.doomed_lift_bind
    apply ArrayLoop.foldlM_error (a := k)
    · exact List.mem_range.mpr (List.getElem?_eq_some_iff.mp hk).1
    · intro buf
      rw [entrySlot_asked h hr hk, if_pos hover]
      exact ⟨_, rfl⟩

theorem ghostAtOnce_doomed (h : Distributed p s) {r : Nat} (hr : r < p)
    (hbad : (∃ node ∈ (s r).ghosts, refIntMax < ldim - 1 + ldim * node) ∨
      ∃ ask ∈ requestOrder p s r, refIntMax < ldim - 1 + ldim * ownerSlot s ask.1 ask.2)
    (vector : Nat → t.Elem D) (mem : GhostMemory (t.Elem D)) :
    (ghostAtOnce p (s r) t ldim (requestOf p s aMem bMem r) vector mem).Doomed := by
  rw [ghostAtOnce_eq]
  split
  · trivial
  · apply Prog.Doomed.bind
    apply ghostPass_doomed h hr
    rwa [Nat.zero_add]

/-- One component with an index that does not fit is enough. -/
theorem ghostComponents_doomed (h : Distributed p s) {r j : Nat} (hr : r < p)
    (hbad : (∃ node ∈ (s r).ghosts, refIntMax < j + ldim * node) ∨
      ∃ ask ∈ requestOrder p s r, refIntMax < j + ldim * ownerSlot s ask.1 ask.2) :
    ∀ (todo i : Nat) (vector aVector bVector : Nat → t.Elem D), i ≤ j → j < i + todo →
      (ghostComponents p (s r) t ldim (requestOf p s aMem bMem r) todo i vector aVector
        bVector).Doomed := by
  intro todo
  induction todo with
  | zero =>
      intro i vector aVector bVector hge hlt
      omega
  | succ todo ih =>
      intro i vector aVector bVector hge hlt
      rw [ghostComponents_succ]
      by_cases hij : i = j
      · subst hij
        exact (ghostPass_doomed h hr hbad vector aVector bVector).bind _
      · apply Prog.Doomed.of_bind
        intro done
        exact ih (i + 1) _ _ _ (by omega) (by omega)

/-! ## The number of calls -/

theorem calls_alltoallv (send mem : Nat → t.Elem D) (sendSize recvSize : Nat → Nat) (n : Nat) :
    (alltoallv p t send sendSize recvSize n mem).Calls 1 := by
  unfold alltoallv
  split
  · trivial
  · split
    · trivial
    · exact ⟨0, rfl, fun _ => rfl⟩

theorem calls_ghostPass (s : RefNode D) (req : GhostRequest) (first n : Nat)
    (vector aVector bVector : Nat → t.Elem D) :
    (ghostPass p s t ldim req first n vector aVector bVector).Calls 1 := by
  change Prog.Calls (0 + (1 + (0 + 0))) (Prog.bind _ _)
  apply Prog.Calls.bind (Prog.calls_lift _)
  intro bVector
  apply Prog.Calls.bind (calls_alltoallv _ _ _ _ _)
  intro aVector
  apply Prog.Calls.bind (Prog.calls_lift _)
  intro vector
  rfl

theorem calls_ghostAtOnce (s : RefNode D) (req : GhostRequest) (vector : Nat → t.Elem D)
    (mem : GhostMemory (t.Elem D)) : (ghostAtOnce p s t ldim req vector mem).Calls 1 := by
  rw [ghostAtOnce_eq]
  split
  · trivial
  · change Prog.Calls (1 + 0) (Prog.bind _ _)
    apply Prog.Calls.bind (calls_ghostPass _ _ _ _ _ _ _)
    intro done
    rfl

theorem calls_ghostComponents (s : RefNode D) (req : GhostRequest) :
    ∀ (todo i : Nat) (vector aVector bVector : Nat → t.Elem D),
      (ghostComponents p s t ldim req todo i vector aVector bVector).Calls todo := by
  intro todo
  induction todo with
  | zero =>
      intro i vector aVector bVector
      rfl
  | succ todo ih =>
      intro i vector aVector bVector
      rw [ghostComponents_succ, Nat.add_comm]
      apply Prog.Calls.bind (calls_ghostPass _ _ _ _ _ _ _)
      intro done
      exact ih _ _ _ _

/-! ## The whole exchange -/

/-- The number of ghosts of all ranks that rank `r` owns. -/
def requestCount (p : Nat) (s : Nat → RefNode D) (r : Nat) : Nat :=
  ∑ q ∈ Finset.range p, (group (s q).part (s q).ghosts r).length

/-- The numbers of one exchange fit a `REF_INT`. -/
structure GhostFits (p : Nat) (s : Nat → RefNode D) (ldim : Nat) : Prop where
  divisor : 0 < ldim
  requests : ∀ r, r < p → requestCount p s r ≤ refIntMax
  entries : EntriesFit p s ldim (ldim - 1)

/-- Rank `r` has few ghosts and few requests for `ldim` components. -/
def FewGhosts (p : Nat) (s : Nat → RefNode D) (ldim r : Nat) : Prop :=
  (s r).ghosts.length < refIntMax / ldim ∧ requestCount p s r < refIntMax / ldim

/-- The sizes of all ranks are on one side of the limit. -/
def UniformSizes (p : Nat) (s : Nat → RefNode D) (ldim : Nat) : Prop :=
  (∀ r, r < p → FewGhosts p s ldim r) ∨ ∀ r, r < p → ¬ FewGhosts p s ldim r

theorem length_requestOrder (p : Nat) (s : Nat → RefNode D) (r : Nat) :
    (requestOrder p s r).length = requestCount p s r := by
  rw [requestOrder, length_flatMap_range]
  simp [start, requestCount]

theorem length_ghostOrder (h : Distributed p s) {r : Nat} (hr : r < p) :
    (ghostOrder p (s r)).length = (s r).ghosts.length := by
  apply List.Perm.length_eq
  have hnodup : (s r).ghosts.Nodup := (s r).nodup_validNodes.filter _
  rw [List.perm_ext_iff_of_nodup (nodup_ghostOrder p (s r)) hnodup]
  intro node
  exact mem_ghostOrder h hr

theorem requestOf_atOnce (h : Distributed p s) {r : Nat} (hr : r < p) :
    (requestOf p s aMem bMem r).AtOnce ldim ↔ FewGhosts p s ldim r := by
  rw [FewGhosts, ← length_ghostOrder h hr, ← length_requestOrder]
  rfl

/-- The second half of the exchange. -/
def ghostReplies (p : Nat) (s : RefNode D) (t : RefType) (vector : Nat → t.Elem D) (ldim : Nat)
    (mem : GhostMemory (t.Elem D)) (req : GhostRequest) : RankProg D (Nat → t.Elem D) :=
  if ldim = 0 then .fail .undefined
  else if req.AtOnce ldim then ghostAtOnce p s t ldim req vector mem
  else ghostOneByOne p s t ldim req vector mem

theorem ghost_eq (hp : 1 < p) (s : RefNode D) (vector : Nat → t.Elem D)
    (mem : GhostMemory (t.Elem D)) :
    ghost p s t vector ldim mem =
      (ghostRequests p s mem.aGlobal mem.bGlobal).bind (ghostReplies p s t vector ldim mem) := by
  rw [ghost, if_neg (by omega)]
  rfl

section Replies

variable {vector : Nat → Nat → t.Elem D} {mem : Nat → GhostMemory (t.Elem D)}

/-- The sizes that the test lets through fit the products of the branch. -/
theorem mul_le_of_lt_div {k : Nat} (hk : k < refIntMax / ldim) : ldim * k ≤ refIntMax := by
  calc ldim * k ≤ ldim * (refIntMax / ldim) := Nat.mul_le_mul_left ldim hk.le
    _ ≤ refIntMax := Nat.mul_div_le refIntMax ldim

theorem ghostReplies_run (h : Distributed p s) (hfit : GhostFits p s ldim)
    (hbranch : ldim = 1 ∨ UniformSizes p s ldim) :
    Runs p (fun r => ghostReplies p (s r) t (vector r) ldim (mem r) (requestOf p s aMem bMem r))
      (refreshedTo s ldim vector ldim) := by
  have hdim : ldim ≠ 0 := hfit.divisor.ne'
  have hasked : ∀ r, r < p → (requestOrder p s r).length ≤ refIntMax := by
    intro r hr
    rw [length_requestOrder]
    exact hfit.requests r hr
  have honebyone := ghostOneByOne_run aMem bMem h hfit.entries hasked vector mem
  rcases hbranch with rfl | hall | hall
  · -- with one component the branches are the same program
    apply honebyone.congr
    intro r hr
    rw [ghostReplies, if_neg hdim]
    split
    · rw [ghostAtOnce_eq, if_neg, ghostOneByOne, ghostComponents_succ]
      · rfl
      · have h1 := length_ghostOrder_le h hr
        have h2 := hasked r hr
        simp only [requestOf]
        omega
    · rfl
  · have hatonce := ghostAtOnce_run aMem bMem h hfit.divisor hfit.entries
      (fun r hr => mul_le_of_lt_div (by rw [length_ghostOrder h hr]; exact (hall r hr).1))
      (fun r hr => mul_le_of_lt_div (by rw [length_requestOrder]; exact (hall r hr).2)) vector mem
    apply hatonce.congr
    intro r hr
    rw [ghostReplies, if_neg hdim, if_pos ((requestOf_atOnce h hr).mpr (hall r hr))]
  · apply honebyone.congr
    intro r hr
    rw [ghostReplies, if_neg hdim, if_neg]
    exact fun hfew => hall r hr ((requestOf_atOnce h hr).mp hfew)

/-- What a run of the second half needs. -/
theorem of_ghostReplies_run (h : Distributed p s) (hp : 0 < p) {out : Nat → Nat → t.Elem D}
    (hrun : Runs p (fun r => ghostReplies p (s r) t (vector r) ldim (mem r)
      (requestOf p s aMem bMem r)) out) :
    0 < ldim ∧ EntriesFit p s ldim (ldim - 1) ∧ (ldim = 1 ∨ UniformSizes p s ldim) := by
  have hdim : ldim ≠ 0 := by
    intro hzero
    refine not_runs_of_fail (e := .undefined) hp ?_ hrun
    rw [ghostReplies, if_pos hzero]
  -- no rank meets an index that does not fit, whichever branch it takes
  have hsafe : ∀ r, r < p →
      ¬ ((∃ node ∈ (s r).ghosts, refIntMax < ldim - 1 + ldim * node) ∨
        ∃ ask ∈ requestOrder p s r, refIntMax < ldim - 1 + ldim * ownerSlot s ask.1 ask.2) := by
    intro r hr hbad
    apply hrun.not_doomed hr
    rw [ghostReplies, if_neg hdim]
    split
    · exact ghostAtOnce_doomed h hr hbad _ _
    · exact ghostComponents_doomed h hr hbad _ _ _ _ _ (by omega) (by omega)
  refine ⟨by omega, ?_, ?_⟩
  · intro r hr node hnode
    have hpart : (s r).part node < p := (h.owner r hr node hnode).1
    constructor
    · by_contra hover
      exact hsafe r hr (Or.inl ⟨node, hnode, by omega⟩)
    · by_contra hover
      exact hsafe _ hpart
        (Or.inr ⟨(r, node), mem_requestOrder.mpr ⟨hr, hnode, rfl⟩, not_le.mp hover⟩)
  · by_cases hall : ∀ r, r < p → FewGhosts p s ldim r
    · exact Or.inr (Or.inl hall)
    · by_cases hnone : ∀ r, r < p → ¬ FewGhosts p s ldim r
      · exact Or.inr (Or.inr hnone)
      · -- one call on one rank, `ldim` calls on the other
        push Not at hall hnone
        obtain ⟨r, hr, hmany⟩ := hall
        obtain ⟨r', hr', hfew⟩ := hnone
        left
        refine hrun.calls_eq hr hr' ?_ ?_
        · rw [ghostReplies, if_neg hdim, if_neg]
          · exact calls_ghostComponents _ _ _ _ _ _ _
          · exact fun hatonce => hmany ((requestOf_atOnce h hr).mp hatonce)
        · rw [ghostReplies, if_neg hdim, if_pos ((requestOf_atOnce h hr').mpr hfew)]
          exact calls_ghostAtOnce _ _ _ _

/-- **The exchange runs** when the numbers fit and the ranks agree. -/
theorem ghost_run (hp : 1 < p) (h : Distributed p s) (hfit : GhostFits p s ldim)
    (hbranch : ldim = 1 ∨ UniformSizes p s ldim) :
    Runs p (fun r => ghost p (s r) t (vector r) ldim (mem r))
      (refreshedTo s ldim vector ldim) := by
  have hcount : ∀ r, r < p → (requestOrder p s r).length ≤ refIntMax := by
    intro r hr
    rw [length_requestOrder]
    exact hfit.requests r hr
  simp only [ghost_eq hp]
  exact (ghostRequests_run _ _ h hcount).bind (ghostReplies_run h hfit hbranch)

/-- **It runs only then.** -/
theorem of_ghost_run (hp : 1 < p) (h : Distributed p s) {out : Nat → Nat → t.Elem D}
    (hrun : Runs p (fun r => ghost p (s r) t (vector r) ldim (mem r)) out) :
    GhostFits p s ldim ∧ (ldim = 1 ∨ UniformSizes p s ldim) := by
  simp only [ghost_eq hp] at hrun
  have hcount : ∀ r, r < p → (requestOrder p s r).length ≤ refIntMax := by
    intro r hr
    by_contra hover
    exact not_runs_of_request_overflow hr (by omega) hrun
  have hrest := (Runs.bind_iff (by omega) (ghostRequests_run _ _ h hcount)).mp hrun
  obtain ⟨hdim, hentries, hbranch⟩ := of_ghostReplies_run h (by omega) hrest
  refine ⟨⟨hdim, ?_, hentries⟩, hbranch⟩
  intro r hr
  rw [← length_requestOrder]
  exact hcount r hr

end Replies

/-- Every ghost entry is the owner's and every owned entry is unchanged. -/
def Refreshed {E : Type} (p : Nat) (s : Nat → RefNode D) (ldim : Nat)
    (vector out : Nat → Nat → E) : Prop :=
  ∀ r, r < p → ∀ node, (s r).Live node → ∀ i, i < ldim →
    ((s r).Owned node → out r (i + ldim * node) = vector r (i + ldim * node)) ∧
    (¬ (s r).Owned node → ∀ k, (s ((s r).part node)).Live k →
      (s ((s r).part node)).global k = (s r).global node →
      out r (i + ldim * node) = vector ((s r).part node) (i + ldim * k))

theorem refreshed_of_eq {E : Type} {vector out : Nat → Nat → E} (h : Distributed p s)
    (hout : ∀ r, r < p → out r = refreshedTo s ldim vector ldim r) :
    Refreshed p s ldim vector out := by
  intro r hr node hlive i hi
  rw [hout r hr, refreshedTo_apply hi]
  constructor
  · intro howned
    rw [if_neg]
    intro hghost
    exact (RefNode.mem_ghosts.mp hghost.2).2 howned
  · intro howned k hk hglobal
    have hghost : node ∈ (s r).ghosts := RefNode.mem_ghosts.mpr ⟨hlive, howned⟩
    have hpart : (s r).part node < p := (h.owner r hr node hghost).1
    have hlocal := ((h.inv _ hpart).nodeLocal_eq_ok_iff _ k).mpr ⟨hk, hglobal⟩
    rw [h.nodeLocal_owner hr hghost] at hlocal
    rw [if_pos ⟨hi, hghost⟩, Except.ok.inj hlocal]

/-- A rank alone has no ghosts. -/
theorem refreshed_alone {E : Type} {vector : Nat → Nat → E} (h : Distributed 1 s) :
    Refreshed 1 s ldim vector vector := by
  intro r hr node hlive i hi
  refine ⟨fun _ => rfl, fun hghost => ?_⟩
  have hpart := (h.owner r hr node (RefNode.mem_ghosts.mpr ⟨hlive, hghost⟩)).1
  have hrank := h.rank r hr
  exact absurd (show (s r).rank = (s r).part node by omega) hghost

/-! ## Nodes that every rank holds -/

/-- The store of rank `r` when every rank holds the globals below `m` and rank
0 owns them. -/
def sharedStore (m r : Nat) : RefNode Int where
  n := m
  max := m
  blank := refEmpty
  global := fun i => i
  sortedGlobal := fun i => i
  sortedLocal := id
  part := fun _ => 0
  age := fun _ => 0
  real := fun _ _ => 0
  naux := 0
  aux := fun _ _ => 0
  rank := r
  nUnused := 0
  maxUnused := 10
  unusedGlobal := fun _ => 0
  oldNGlobal := m
  newNGlobal := m

theorem sharedStore_live (m r k : Nat) : (sharedStore m r).Live k ↔ k < m := by
  simp [RefNode.Live, sharedStore]

theorem sharedStore_ghosts (m r : Nat) :
    (sharedStore m r).ghosts = if r = 0 then [] else List.range m := by
  have hvalid : (sharedStore m r).validNodes = List.range m := by
    apply List.filter_eq_self.mpr
    intro k hk
    exact decide_eq_true ((sharedStore_live m r k).mpr (List.mem_range.mp hk))
  rw [RefNode.ghosts, hvalid]
  by_cases hr : r = 0
  · simp [RefNode.Owned, sharedStore, hr]
  · simp [RefNode.Owned, sharedStore, hr]

theorem sharedStore_distributed {m p : Nat} (hp : 0 < p) (hm : m ≤ refIntMax) :
    Distributed p (sharedStore m) := by
  have hinv : ∀ r, (sharedStore m r).Inv := by
    intro r
    refine ⟨⟨⟨[], ?_, List.nodup_nil, ?_⟩, ?_, ?_, hm⟩, ?_, ?_, ?_⟩
    · simp [sharedStore]
    · intro k
      simp [sharedStore]
    · rw [SlotList.liveCount, Finset.filter_true_of_mem]
      · simp [sharedStore]
      · intro k hk
        exact (sharedStore_live m r k).mpr (Finset.mem_range.mp hk)
    · intro i j _ _ heq
      simpa [sharedStore] using heq
    · intro i j hij _
      simpa [sharedStore] using hij
    · intro i hi
      exact ⟨(sharedStore_live m r i).mpr hi, rfl⟩
    · intro k hk
      exact ⟨k, (sharedStore_live m r k).mp hk, rfl⟩
  refine ⟨fun r _ => hinv r, fun r _ => rfl, ?_⟩
  intro r _ node hnode
  have hlive := (RefNode.mem_ghosts.mp hnode).1
  refine ⟨hp, node, ?_, rfl⟩
  exact (sharedStore_live m 0 node).mpr ((sharedStore_live m r node).mp hlive)

/-- Rank 0 is asked for all nodes by every other rank. -/
theorem sharedStore_requestCount (m p r : Nat) :
    requestCount (p + 1) (sharedStore m) r = if r = 0 then p * m else 0 := by
  have hone : ∀ q, (group (sharedStore m q).part (sharedStore m q).ghosts r).length =
      if r = 0 ∧ q ≠ 0 then m else 0 := by
    intro q
    rw [sharedStore_ghosts]
    by_cases hq : q = 0
    · simp [group, hq]
    · by_cases hr : r = 0
      · simp [group, hq, hr, sharedStore]
      · have hr' : ¬ 0 = r := fun e => hr e.symm
        simp [group, hq, hr, hr', sharedStore]
  simp only [requestCount, hone]
  rw [Finset.sum_range_succ']
  by_cases hr : r = 0
  · simp [hr]
  · simp [hr]

/-- Rank 0 is asked for as much as all other ranks together ask. -/
theorem sharedStore_few_iff (m p ldim r : Nat) :
    FewGhosts (p + 1) (sharedStore m) ldim r ↔
      (if r = 0 then p * m else m) < refIntMax / ldim ∧ 0 < refIntMax / ldim := by
  rw [FewGhosts, sharedStore_requestCount, sharedStore_ghosts]
  by_cases hr : r = 0
  · simp [hr, and_comm]
  · simp [hr]

/-- Two ranks ask for 71582788 nodes each: too many for rank 0 alone. -/
theorem sharedStore_not_uniform : ¬ UniformSizes 3 (sharedStore 71582788) 15 := by
  intro huniform
  rcases huniform with hall | hall
  · exact absurd ((sharedStore_few_iff _ 2 _ 0).mp (hall 0 (by decide))) (by decide)
  · exact hall 1 (by decide) ((sharedStore_few_iff _ 2 _ 1).mpr (by decide))

theorem sharedStore_fits : GhostFits 2 (sharedStore 1) 2 := by
  refine ⟨by decide, ?_, ?_⟩
  · intro r hr
    rw [sharedStore_requestCount]
    split <;> decide
  · intro r hr node hnode
    have h : Distributed 2 (sharedStore 1) := sharedStore_distributed (by decide) (by decide)
    have hself := (sharedStore_live 1 r node).mp (RefNode.mem_ghosts.mp hnode).1
    have howner := ((h.inv 0 (by decide)).nodeLocal_eq_ok_iff _ _).mp (h.nodeLocal_owner hr hnode)
    have hslot := (sharedStore_live 1 0 _).mp howner.1
    constructor <;> simp only [refIntMax] <;> omega

theorem sharedStore_uniform : UniformSizes 2 (sharedStore 1) 2 := by
  left
  intro r hr
  rw [sharedStore_few_iff 1 1 2 r]
  split <;> decide

/-- **Ghost exchange.**  The call completes with every ghost refreshed exactly
when there is one rank, or when the numbers fit and the ranks come to the same
branch (for one component the branches do not differ).  Where both branches
can run, they leave the same data. -/
theorem ghost_exchange (hp : 0 < p) (h : Distributed p s) (t : RefType) (ldim : Nat)
    (vector : Nat → Nat → t.Elem D) (mem : Nat → GhostMemory (t.Elem D)) :
    (Yields p (fun r => ghost p (s r) t (vector r) ldim (mem r)) (Refreshed p s ldim vector) ↔
      p ≤ 1 ∨ (GhostFits p s ldim ∧ (ldim = 1 ∨ UniformSizes p s ldim))) ∧
    (GhostFits p s ldim →
      (∀ r, r < p → ldim * (s r).ghosts.length ≤ refIntMax ∧
        ldim * requestCount p s r ≤ refIntMax) →
      ∃ out,
        Runs p (fun r => (ghostRequests p (s r) (mem r).aGlobal (mem r).bGlobal).bind fun req =>
          ghostAtOnce p (s r) t ldim req (vector r) (mem r)) out ∧
        Runs p (fun r => (ghostRequests p (s r) (mem r).aGlobal (mem r).bGlobal).bind fun req =>
          ghostOneByOne p (s r) t ldim req (vector r) (mem r)) out) := by
  constructor
  · by_cases hone : p ≤ 1
    · obtain rfl : p = 1 := by omega
      refine iff_of_true ?_ (Or.inl le_rfl)
      have hrun : Runs 1 (fun r => ghost 1 (s r) t (vector r) ldim (mem r)) vector :=
        .ret fun r _ => by rw [ghost, if_pos le_rfl]
      apply hrun.yields
      intro out hout r hr
      rw [hout r hr]
      exact refreshed_alone h r hr
    · have hp1 : 1 < p := by omega
      constructor
      · intro hyields
        obtain ⟨out, hrun⟩ := hyields.1
        exact Or.inr (of_ghost_run hp1 h hrun)
      · intro hcond
        obtain ⟨hfit, hbranch⟩ := hcond.resolve_left hone
        apply (ghost_run hp1 h hfit hbranch).yields
        intro out hout
        exact refreshed_of_eq h hout
  · intro hfit hsizes
    have hcount : ∀ r, r < p → (requestOrder p s r).length ≤ refIntMax := by
      intro r hr
      rw [length_requestOrder]
      exact hfit.requests r hr
    have hrequests := ghostRequests_run (fun r => (mem r).aGlobal) (fun r => (mem r).bGlobal) h
      hcount
    refine ⟨refreshedTo s ldim vector ldim, hrequests.bind ?_, hrequests.bind ?_⟩
    · apply ghostAtOnce_run _ _ h hfit.divisor hfit.entries
      · intro r hr
        rw [length_ghostOrder h hr]
        exact (hsizes r hr).1
      · intro r hr
        rw [length_requestOrder]
        exact (hsizes r hr).2
    · exact ghostOneByOne_run _ _ h hfit.entries hcount vector mem

/-- Rank 1 takes both components of a node from rank 0. -/
theorem ghost_exchange_two_ranks :
    Yields 2 (fun r => ghost 2 (sharedStore 1 r) .int (fun i => (10 * r + i : Int)) 2
        ⟨fun _ => 0, fun _ => 0, fun _ => (0 : Int), fun _ => (0 : Int)⟩)
      (Refreshed 2 (sharedStore 1) 2 fun r i => (10 * r + i : Int)) := by
  apply (ghost_exchange (by decide) (sharedStore_distributed (by decide) (by decide)) .int 2
    _ _).1.mpr
  exact Or.inr ⟨sharedStore_fits, Or.inr sharedStore_uniform⟩

/-- Three ranks and 71582788 nodes of 15 components: rank 0 sends one component
at a time, the others wait for 15 at once. -/
theorem ghost_exchange_three_ranks :
    Distributed 3 (sharedStore 71582788) ∧
      ¬ Yields 3 (fun r => ghost 3 (sharedStore 71582788 r) .int (fun i => (i : Int)) 15
          ⟨fun _ => 0, fun _ => 0, fun _ => (0 : Int), fun _ => (0 : Int)⟩)
        (Refreshed 3 (sharedStore 71582788) 15 fun _ i => (i : Int)) := by
  have h : Distributed 3 (sharedStore 71582788) :=
    sharedStore_distributed (by decide) (by decide)
  refine ⟨h, fun hyields => ?_⟩
  obtain ⟨out, hrun⟩ := hyields.1
  have hbranch := (of_ghost_run (by decide) h hrun).2
  have huniform := hbranch.resolve_left (by decide)
  exact sharedStore_not_uniform huniform

/-- **Collectives of the exchange.**  All ranks take the same branch and the
calls meet until the end exactly when there is one rank, or when the numbers
fit and the sizes of all ranks are on one side of the limit. -/
theorem ghost_collectives (hp : 0 < p) (h : Distributed p s) (t : RefType) (ldim : Nat)
    (vector : Nat → Nat → t.Elem D) (mem : Nat → GhostMemory (t.Elem D)) :
    ((p ≤ 1 ∨ ∀ req,
        Runs p (fun r => ghostRequests p (s r) (mem r).aGlobal (mem r).bGlobal) req →
        ∀ r r', r < p → r' < p → ((req r).AtOnce ldim ↔ (req r').AtOnce ldim)) ∧
      ∃ out, Runs p (fun r => ghost p (s r) t (vector r) ldim (mem r)) out) ↔
    p ≤ 1 ∨ (GhostFits p s ldim ∧ UniformSizes p s ldim) := by
  by_cases hone : p ≤ 1
  · refine iff_of_true ⟨Or.inl hone, vector, ?_⟩ (Or.inl hone)
    exact .ret fun r _ => by rw [ghost, if_pos hone]
  · have hp1 : 1 < p := by omega
    have hrequests : GhostFits p s ldim →
        Runs p (fun r => ghostRequests p (s r) (mem r).aGlobal (mem r).bGlobal)
          (requestOf p s (fun r => (mem r).aGlobal) fun r => (mem r).bGlobal) := by
      intro hfit
      apply ghostRequests_run _ _ h
      intro r hr
      rw [length_requestOrder]
      exact hfit.requests r hr
    constructor
    · intro hmatch
      obtain ⟨hsame, out, hrun⟩ := hmatch
      have hfit := (of_ghost_run hp1 h hrun).1
      refine Or.inr ⟨hfit, ?_⟩
      have hagree := hsame.resolve_left hone _ (hrequests hfit)
      by_cases hfew : FewGhosts p s ldim 0
      · left
        intro r hr
        exact (requestOf_atOnce h hr).mp ((hagree 0 r hp hr).mp ((requestOf_atOnce h hp).mpr hfew))
      · right
        intro r hr hfew'
        exact hfew ((requestOf_atOnce h hp).mp
          ((hagree r 0 hr hp).mp ((requestOf_atOnce h hr).mpr hfew')))
    · intro hcond
      obtain ⟨hfit, huniform⟩ := hcond.resolve_left hone
      refine ⟨Or.inr ?_, _, ghost_run hp1 h hfit (Or.inr huniform)⟩
      intro req hreq r r' hr hr'
      have heq := hreq.unique (hrequests hfit)
      rw [heq r hr, heq r' hr', requestOf_atOnce h hr, requestOf_atOnce h hr']
      rcases huniform with hall | hall
      · exact iff_of_true (hall r hr) (hall r' hr')
      · exact iff_of_false (hall r hr) (hall r' hr')

/-- The collectives of the exchange between two ranks. -/
theorem ghost_collectives_two_ranks :
    ∃ out, Runs 2 (fun r => ghost 2 (sharedStore 1 r) .int (fun i => (10 * r + i : Int)) 2
        ⟨fun _ => 0, fun _ => 0, fun _ => (0 : Int), fun _ => (0 : Int)⟩) out := by
  apply ((ghost_collectives (by decide) (sharedStore_distributed (by decide) (by decide)) .int 2
    _ _).mpr (Or.inr ⟨sharedStore_fits, sharedStore_uniform⟩)).2

/-- The collectives of three ranks that do not meet. -/
theorem ghost_collectives_three_ranks :
    Distributed 3 (sharedStore 71582788) ∧
      (∀ out, ¬ Runs 3 (fun r => ghost 3 (sharedStore 71582788 r) .int (fun i => (i : Int)) 15
          ⟨fun _ => 0, fun _ => 0, fun _ => (0 : Int), fun _ => (0 : Int)⟩) out) ∧
      ∃ req, Runs 3 (fun r => ghostRequests 3 (sharedStore 71582788 r) (fun _ => 0)
          fun _ => 0) req ∧ ¬ (req 0).AtOnce 15 ∧ (req 1).AtOnce 15 := by
  have h : Distributed 3 (sharedStore 71582788) :=
    sharedStore_distributed (by decide) (by decide)
  refine ⟨h, fun out hrun => ?_, ?_⟩
  · have hbranch := (of_ghost_run (by decide) h hrun).2
    exact sharedStore_not_uniform (hbranch.resolve_left (by decide))
  · refine ⟨_, ghostRequests_run _ _ h fun r hr => ?_, ?_, ?_⟩
    · rw [length_requestOrder, sharedStore_requestCount]
      split <;> decide
    · rw [requestOf_atOnce h (by decide), sharedStore_few_iff _ 2]
      decide
    · rw [requestOf_atOnce h (by decide), sharedStore_few_iff _ 2]
      decide

end RefineMesh
