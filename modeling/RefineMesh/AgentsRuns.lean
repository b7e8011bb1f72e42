import Mathlib.Tactic
import RefineMesh.Agents
import RefineMesh.ArrayLoops

/-!
# Agents are conserved

The active agents of a store are a doubly linked list and the other slots the
blank list, along every run of calls.  A migration moves every agent to its
destination and changes none of its fields.
-/

namespace RefineMesh

open ArrayLoop Segments SlotList Spmd

variable {D : Type}

namespace RefAgents

/-! ## The two lists of a store -/

/-- The active agents are the doubly linked list `order` that ends at `last`. -/
structure ListedBy (s : RefAgents D) (order : List Nat) : Prop where
  nodup : order.Nodup
  active : ∀ id, id ∈ order ↔ s.Active id
  linked : Linked s.previous s.next refEmpty order refEmpty
  last : s.last = lastLink refEmpty order
  count : s.n = order.length

/-- The invariant of the agent store. -/
structure AgentsInv (s : RefAgents D) : Prop where
  listed : ∃ order, s.ListedBy order
  blank : FreeList (↑) refEmpty s.next s.blank fun id => id < s.max ∧ ¬ s.Active id

/-- The active slots. -/
def activeIds (s : RefAgents D) : List Nat := (List.range s.max).filter fun id => s.Active id

/-- The agents of a rank. -/
def agents (s : RefAgents D) : Multiset (Agent D) := (s.activeIds.map s.agent : List (Agent D))

section Invariant

variable {s s' : RefAgents D}

theorem mem_activeIds {id : Nat} : id ∈ s.activeIds ↔ s.Active id := by
  simp only [activeIds, List.mem_filter, List.mem_range, decide_eq_true_eq]
  exact ⟨fun h => h.2, fun h => ⟨h.1, h⟩⟩

theorem nodup_activeIds (s : RefAgents D) : s.activeIds.Nodup := List.nodup_range.filter _

theorem create_inv (mem : RefAgents D) (rank : Nat) : (create mem rank).AgentsInv := by
  have hnone : ∀ id, ¬ (create mem rank).Active id := by
    rintro id ⟨hlt, hmode⟩
    apply hmode
    change (if 0 ≤ id ∧ id < 10 then _ else _ : Agent D).mode = _
    rw [if_pos ⟨Nat.zero_le _, hlt⟩]
  constructor
  · exact ⟨[], List.nodup_nil, fun id => by simp [hnone id], trivial, rfl, rfl⟩
  · have hfresh := freeList_linkFresh (↑) refEmpty mem.next (show 0 < 10 by decide)
    refine hfresh.congr (fun id => ?_) fun _ _ => rfl
    change id < 10 ∧ _ ↔ _
    simp [hnone id]

/-- A full store has no blank slot. -/
theorem AgentsInv.full (h : s.AgentsInv) (hblank : s.blank = refEmpty) : s.n = s.max := by
  obtain ⟨order, hlist⟩ := h.listed
  have hall := (h.blank.eq_stop_iff fun k => natCast_ne_refEmpty k).mp hblank
  have hperm : order.Perm (List.range s.max) := by
    rw [List.perm_ext_iff_of_nodup hlist.nodup List.nodup_range]
    intro id
    rw [hlist.active, List.mem_range]
    constructor
    · exact fun hact => hact.1
    · intro hlt
      by_contra hdead
      exact hall id ⟨hlt, hdead⟩
  rw [hlist.count, hperm.length_eq, List.length_range]

/-- Growing changes no agent. -/
theorem AgentsInv.grow (h : s.AgentsInv) (hrun : s.grow = .ok s') :
    s'.AgentsInv ∧ s'.blank ≠ refEmpty ∧ s'.Active = s.Active ∧ s'.rank = s.rank ∧
      (∀ id, s.Active id → s'.agent id = s.agent id) ∧
      ∀ order, s.ListedBy order → s'.ListedBy order := by
  simp only [RefAgents.grow] at hrun
  split at hrun
  · rename_i hblank
    obtain rfl := Except.ok.inj hrun
    exact ⟨h, hblank, rfl, rfl, fun _ _ => rfl, fun _ h => h⟩
  · rename_i hblank
    split at hrun
    · cases hrun
    · obtain rfl := Except.ok.inj hrun
      have hlt : s.max < s.max + Nat.max 5000 (3 * s.max / 2) := by
        have : 5000 ≤ Nat.max 5000 (3 * s.max / 2) := Nat.le_max_left _ _
        omega
      generalize s.max + Nat.max 5000 (3 * s.max / 2) = max at hlt ⊢
      have hagent : ∀ id, id < s.max → (linkAgents s.max max s).agent id = s.agent id :=
        fun id hid => if_neg (by omega)
      have hfresh : ∀ id, s.max ≤ id → id < max →
          ((linkAgents s.max max s).agent id).mode = .unused := by
        intro id hge hid
        change (if s.max ≤ id ∧ id < max then _ else _ : Agent D).mode = _
        rw [if_pos ⟨hge, hid⟩]
      have hactive : (linkAgents s.max max s).Active = s.Active := by
        funext id
        apply propext
        by_cases hid : id < s.max
        · simp only [Active, hagent id hid]
          exact ⟨fun h => ⟨hid, h.2⟩, fun h => ⟨hid.trans hlt, h.2⟩⟩
        · constructor
          · intro hact
            exact absurd (hfresh id (by omega) hact.1) hact.2
          · exact fun hact => absurd hact.1 hid
      have hlisted : ∀ order, s.ListedBy order → (linkAgents s.max max s).ListedBy order := by
        intro order hlist
        have hold : ∀ id ∈ order, id < s.max := fun id hid => ((hlist.active id).mp hid).1
        refine ⟨hlist.nodup, fun id => by rw [hactive, hlist.active], ?_, hlist.last, hlist.count⟩
        refine hlist.linked.congr ?_ ?_
        · intro id hid
          have := hold id hid
          exact if_neg (by omega)
        · exact fun id hid => linkFresh_old hlt (hold id hid)
      refine ⟨⟨?_, ?_⟩, natCast_ne_refEmpty _, hactive, rfl, fun id hact => hagent id hact.1, hlisted⟩
      · obtain ⟨order, hlist⟩ := h.listed
        exact ⟨order, hlisted order hlist⟩
      · have hall := (h.blank.eq_stop_iff fun k => natCast_ne_refEmpty k).mp (not_not.mp hblank)
        refine (freeList_linkFresh (↑) refEmpty s.next hlt).congr (fun id => ?_) fun _ _ => rfl
        rw [hactive]
        change id < max ∧ _ ↔ _
        constructor
        · rintro ⟨hid, hdead⟩
          refine ⟨?_, hid⟩
          by_contra hold
          exact hall id ⟨by omega, hdead⟩
        · rintro ⟨hge, hid⟩
          exact ⟨hid, fun hact => absurd hact.1 (by omega)⟩

/-- **`ref_agents_new`** appends a slot to the list. -/
theorem AgentsInv.new (h : s.AgentsInv) {id : Nat} (hrun : s.new = .ok (s', id)) :
    s'.AgentsInv ∧ ¬ s.Active id ∧ (∀ j, s'.Active j ↔ s.Active j ∨ j = id) ∧
      s'.rank = s.rank ∧ (∀ j, s.Active j → s'.agent j = s.agent j) ∧
      ∀ order, s.ListedBy order → s'.ListedBy (order ++ [id]) := by
  obtain ⟨s1, hgrow, hret⟩ := bind_eq_ok.mp hrun
  obtain ⟨h1, hne, hactive, hrank, hagent, hlisted⟩ := h.grow hgrow
  obtain ⟨k, hblank, ⟨hlt, hdead⟩, hpop⟩ := h1.blank.pop hne
  simp only [Except.ok.injEq, Prod.mk.injEq] at hret
  obtain ⟨hs', hid⟩ := hret
  rw [hblank, Int.toNat_natCast] at hid
  subst hid
  rw [hblank, Int.toNat_natCast] at hs'
  rw [hactive] at hdead
  have hact' : ∀ j, s'.Active j ↔ s.Active j ∨ j = k := by
    intro j
    rw [← hactive, ← hs']
    by_cases hj : j = k
    · subst hj
      simp [Active, hlt]
    · simp [Active, hj]
  have hlisted' : ∀ order, s.ListedBy order → s'.ListedBy (order ++ [k]) := by
    intro order hlist
    have hlist1 := hlisted order hlist
    have hk : k ∉ order := fun hin => hdead ((hlist.active k).mp hin)
    constructor
    · rw [List.nodup_append]
      refine ⟨hlist.nodup, List.nodup_singleton k, ?_⟩
      intro i hi j hj
      rw [List.mem_singleton.mp hj]
      exact ne_of_mem_of_not_mem hi hk
    · intro j
      rw [hact', List.mem_append, List.mem_singleton, hlist.active]
    · have happend := hlist1.linked.append (fun k => natCast_ne_refEmpty k) hlist1.nodup hk
      rw [← hlist1.last] at happend
      rw [← hs']
      exact happend
    · rw [← hs', lastLink_concat]
    · rw [← hs', List.length_append, List.length_singleton]
      exact congrArg (· + 1) hlist1.count
  obtain ⟨order, hlist⟩ := h.listed
  refine ⟨⟨⟨order ++ [k], hlisted' order hlist⟩, ?_⟩, hdead, hact', ?_, ?_, hlisted'⟩
  · rw [← hs']
    refine hpop.congr (fun j => ?_) ?_
    · rw [hs', hact', ← hs', ← hactive]
      tauto
    · intro j hj
      have hlast : j ≠ s1.last.toNat ∨ s1.last = refEmpty := by
        have hlist1 := hlisted order hlist
        rw [hlist1.last]
        rcases List.eq_nil_or_concat order with rfl | ⟨front, i, rfl⟩
        · exact Or.inr rfl
        · left
          rw [List.concat_eq_append, lastLink_concat, Int.toNat_natCast]
          rintro rfl
          exact hj.1.2 ((hlist1.active j).mp (by simp))
      simp only [Function.update_of_ne hj.2, relink]
      rcases hlast with hne | hnone
      · split
        · exact Function.update_of_ne hne _ _
        · rfl
      · simp [hnone]
  · rw [← hs']
    exact hrank
  · intro j hj
    rw [← hs', ← hagent j hj]
    refine Function.update_of_ne ?_ _ _
    rintro rfl
    exact hdead hj

/-- Assigning fields other than the links. -/
theorem AgentsInv.write (h : s.AgentsInv) {id : Nat} (hid : s.Active id) {a : Agent D}
    (ha : a.mode ≠ .unused) : (s.write id a).AgentsInv ∧ (s.write id a).Active = s.Active := by
  have hactive : (s.write id a).Active = s.Active := by
    funext j
    apply propext
    by_cases hj : j = id
    · subst hj
      simp [Active, RefAgents.write, ha, hid.1, hid.2]
    · simp [Active, RefAgents.write, Function.update_of_ne hj]
  refine ⟨⟨?_, ?_⟩, hactive⟩
  · obtain ⟨order, hlist⟩ := h.listed
    exact ⟨order, hlist.nodup, fun j => by rw [hactive, hlist.active], hlist.linked, hlist.last,
      hlist.count⟩
  · rw [hactive]
    exact h.blank

/-- **`ref_agents_remove`** unlinks a slot and pushes it on the blank list. -/
theorem AgentsInv.remove (h : s.AgentsInv) {id : Nat} (hid : s.Active id) :
    ∃ s', s.remove id = .ok s' ∧ s'.AgentsInv ∧ (∀ j, s'.Active j ↔ s.Active j ∧ j ≠ id) ∧
      s'.rank = s.rank ∧ s'.max = s.max ∧ ∀ j, j ≠ id → s'.agent j = s.agent j := by
  obtain ⟨order, hlist⟩ := h.listed
  obtain ⟨front, rest, rfl⟩ := List.append_of_mem ((hlist.active id).mpr hid)
  have hnodup := hlist.nodup
  rw [List.nodup_append, List.nodup_cons] at hnodup
  obtain ⟨_, ⟨hidrest, _⟩, hdisjoint⟩ := hnodup
  have hidfront : id ∉ front := fun hin => hdisjoint id hin id List.mem_cons_self rfl
  have hstop : ∀ k : Nat, (k : Int) ≠ refEmpty := fun k => natCast_ne_refEmpty k
  obtain ⟨_, hprevious, hnext, _⟩ := linked_append.mp hlist.linked
  have hself : s.previous id = refEmpty ∨ (s.previous id).toNat ≠ id := by
    rw [hprevious]
    rcases List.eq_nil_or_concat front with rfl | ⟨init, i, rfl⟩
    · exact Or.inl rfl
    · right
      rw [List.concat_eq_append, lastLink_concat, Int.toNat_natCast]
      rintro rfl
      exact hidfront (by simp)
  -- the link behind the slot is read after the link before it is written
  have hread : relink refEmpty s.next (s.previous id) (s.next id) id = s.next id := by
    unfold relink
    rcases hself with hnone | hne
    · simp [hnone]
    · split
      · exact Function.update_of_ne hne.symm _ _
      · rfl
  have hrun : s.remove id = .ok { s with
      last := if s.last = id then s.previous id else s.last
      agent := Function.update s.agent id { s.agent id with mode := .unused }
      previous := Function.update (relink refEmpty s.previous (s.next id) (s.previous id)) id refEmpty
      next := Function.update (relink refEmpty s.next (s.previous id) (s.next id)) id s.blank
      blank := id
      n := s.n - 1 } := by
    have hlt := hid.1
    simp only [RefAgents.remove, Int.toNat_natCast, if_neg hid.2, hread]
    rw [if_neg (by omega)]
  have hact' : ∀ j, (j < s.max ∧ (Function.update s.agent id { s.agent id with mode := .unused }
      j).mode ≠ .unused) ↔ s.Active j ∧ j ≠ id := by
    intro j
    by_cases hj : j = id
    · subst hj
      simp
    · rw [Function.update_of_ne hj]
      exact ⟨fun h => ⟨h, hj⟩, fun h => h.1⟩
  refine ⟨_, hrun, ⟨⟨front ++ rest, ?_⟩, ?_⟩, hact', rfl, rfl,
    fun j hj => Function.update_of_ne hj _ _⟩
  · constructor
    · exact hlist.nodup.sublist ((List.sublist_cons_self id rest).append_left front)
    · intro j
      refine Iff.trans ?_ (hact' j).symm
      rw [← hlist.active j]
      simp only [List.mem_append, List.mem_cons]
      constructor
      · rintro (hj | hj)
        · exact ⟨Or.inl hj, ne_of_mem_of_not_mem hj hidfront⟩
        · exact ⟨Or.inr (Or.inr hj), ne_of_mem_of_not_mem hj hidrest⟩
      · rintro ⟨hj | rfl | hj, hne⟩
        · exact Or.inl hj
        · exact absurd rfl hne
        · exact Or.inr hj
    · refine (hlist.linked.unlink hstop hlist.nodup).congr ?_ ?_
      · intro j hj
        refine Function.update_of_ne ?_ _ _
        rcases List.mem_append.mp hj with hj | hj
        · exact ne_of_mem_of_not_mem hj hidfront
        · exact ne_of_mem_of_not_mem hj hidrest
      · intro j hj
        refine Function.update_of_ne ?_ _ _
        rcases List.mem_append.mp hj with hj | hj
        · exact ne_of_mem_of_not_mem hj hidfront
        · exact ne_of_mem_of_not_mem hj hidrest
    · change (if s.last = id then s.previous id else s.last) = _
      rw [hlist.last, lastLink_append_cons, hprevious]
      rcases List.eq_nil_or_concat rest with rfl | ⟨init, i, rfl⟩
      · simp [lastLink]
      · have hne : i ≠ id := fun e => hidrest (by simp [← e])
        rw [List.concat_eq_append, lastLink_concat, if_neg (by exact_mod_cast hne),
          ← List.append_assoc, lastLink_concat]
    · have hcount := hlist.count
      simp only [List.length_append, List.length_cons] at hcount ⊢
      omega
  · have hpush := h.blank.push (k := id) fun hfree => hfree.2 hid
    refine hpush.congr (fun j => ?_) ?_
    · change j < s.max ∧ ¬ (j < s.max ∧ _) ↔ _
      rw [hact']
      by_cases hj : j = id
      · subst hj
        simp [hid.1]
      · simp [hj]
    · intro j hj
      by_cases hji : j = id
      · subst hji
        simp
      · simp only [Function.update_of_ne hji, relink]
        split
        · rename_i hprior
          refine Function.update_of_ne ?_ _ _
          rw [hprevious]
          rcases List.eq_nil_or_concat front with rfl | ⟨init, i, rfl⟩
          · exact absurd hprevious hprior
          · rw [List.concat_eq_append, lastLink_concat, Int.toNat_natCast]
            rintro rfl
            refine (hj.resolve_right hji).2 ((hlist.active j).mp ?_)
            simp
        · rfl

/-! ## The agents of a store -/

theorem AgentsInv.count (h : s.AgentsInv) : s.n = s.activeIds.length := by
  obtain ⟨order, hlist⟩ := h.listed
  have hperm : order.Perm s.activeIds := by
    rw [List.perm_ext_iff_of_nodup hlist.nodup s.nodup_activeIds]
    intro id
    rw [hlist.active, mem_activeIds]
  rw [hlist.count, hperm.length_eq]

/-- Stores whose active slots differ in one. -/
theorem activeIds_insert {id : Nat} (hid : ¬ s.Active id)
    (hactive : ∀ j, s'.Active j ↔ s.Active j ∨ j = id) : s'.activeIds.Perm (id :: s.activeIds) := by
  rw [List.perm_ext_iff_of_nodup s'.nodup_activeIds
    (List.nodup_cons.mpr ⟨fun hin => hid (mem_activeIds.mp hin), s.nodup_activeIds⟩)]
  intro j
  rw [mem_activeIds, hactive, List.mem_cons, mem_activeIds, or_comm]

theorem agents_insert {id : Nat} (hid : ¬ s.Active id)
    (hactive : ∀ j, s'.Active j ↔ s.Active j ∨ j = id)
    (hagent : ∀ j, s.Active j → s'.agent j = s.agent j) :
    s'.agents = s'.agent id ::ₘ s.agents := by
  have hperm := (activeIds_insert hid hactive).map s'.agent
  rw [agents, agents, Multiset.cons_coe, Multiset.coe_eq_coe]
  refine hperm.trans ?_
  rw [List.map_cons]
  refine List.Perm.cons _ (List.Perm.of_eq ?_)
  apply List.map_congr_left
  intro j hj
  exact hagent j (mem_activeIds.mp hj)

end Invariant

end RefAgents

/-! ## Runs -/

/-- The calls on the agents of one rank; `write` stands for the assignments of
`ref_agents_restart` and of the callers to an active agent. -/
inductive AgentCall (D : Type)
  | push (node part seed : Int) (xyz : Fin 3 → D)
  | remove (id : Int)
  | pop
  | delete (node : Int)
  | write (id : Nat) (a : Agent D)

namespace RefAgents

/-- One call. -/
def call (s : RefAgents D) : AgentCall D → Except Status (RefAgents D)
  | .push node part seed xyz => do
      let r ← s.push node part seed xyz
      .ok r.1
  | .remove id => s.remove id
  | .pop => do
      let r ← s.pop
      .ok r.1
  | .delete node => s.delete node
  | .write id a => if s.Active id ∧ a.mode ≠ .unused then .ok (s.write id a) else .error .invalid

section Calls

variable {s s' : RefAgents D}

theorem AgentsInv.of_remove (h : s.AgentsInv) {id : Int} (hrun : s.remove id = .ok s') :
    s'.AgentsInv ∧ s'.rank = s.rank := by
  have hid : s.Active id.toNat ∧ 0 ≤ id := by
    simp only [RefAgents.remove] at hrun
    split at hrun
    · cases hrun
    · split at hrun
      · cases hrun
      · rename_i hrange hmode
        exact ⟨⟨by omega, hmode⟩, by omega⟩
  obtain ⟨s1, hrun1, hinv, _, hrank, _⟩ := h.remove hid.1
  rw [Int.toNat_of_nonneg hid.2, hrun, Except.ok.injEq] at hrun1
  subst hrun1
  exact ⟨hinv, hrank⟩

theorem AgentsInv.of_push (h : s.AgentsInv) {node part seed : Int} {xyz : Fin 3 → D} {id : Nat}
    (hrun : s.push node part seed xyz = .ok (s', id)) : s'.AgentsInv ∧ s'.rank = s.rank := by
  obtain ⟨⟨s1, id1⟩, hnew, hret⟩ := bind_eq_ok.mp hrun
  obtain ⟨hinv, _, hactive, hrank, _⟩ := h.new hnew
  simp only [Except.ok.injEq, Prod.mk.injEq] at hret
  obtain ⟨rfl, rfl⟩ := hret
  exact ⟨(hinv.write ((hactive _).mpr (Or.inr rfl)) (by simp)).1, hrank⟩

theorem AgentsInv.of_delete (h : s.AgentsInv) {node : Int} (hrun : s.delete node = .ok s') :
    s'.AgentsInv ∧ s'.rank = s.rank := by
  simp only [RefAgents.delete] at hrun
  split at hrun
  · cases hrun
  · refine foldlM_inv (fun _ _ s' => s'.AgentsInv ∧ s'.rank = s.rank) ?_ ⟨h, rfl⟩ hrun
    rintro _ id _ s1 s2 ⟨h1, hrank1⟩ hstep
    simp only [deleteStep] at hstep
    split at hstep
    · split at hstep
      · obtain ⟨h2, hrank2⟩ := h1.of_remove hstep
        exact ⟨h2, hrank2.trans hrank1⟩
      · obtain rfl := Except.ok.inj hstep
        exact ⟨h1, hrank1⟩
    · obtain rfl := Except.ok.inj hstep
      exact ⟨h1, hrank1⟩

/-- Every call keeps the two lists. -/
theorem AgentsInv.call (h : s.AgentsInv) {c : AgentCall D} (hrun : s.call c = .ok s') :
    s'.AgentsInv ∧ s'.rank = s.rank := by
  cases c with
  | push node part seed xyz =>
      obtain ⟨⟨s1, id⟩, hpush, hret⟩ := bind_eq_ok.mp hrun
      obtain rfl := Except.ok.inj hret
      exact h.of_push hpush
  | remove id => exact h.of_remove hrun
  | pop =>
      obtain ⟨⟨s1, _⟩, hpop, hret⟩ := bind_eq_ok.mp hrun
      obtain rfl := Except.ok.inj hret
      simp only [RefAgents.pop] at hpop
      split at hpop
      · cases hpop
      · obtain ⟨s2, hremove, hret⟩ := bind_eq_ok.mp hpop
        simp only [Except.ok.injEq, Prod.mk.injEq] at hret
        rw [← hret.1]
        exact h.of_remove hremove
  | delete node => exact h.of_delete hrun
  | write id a =>
      simp only [RefAgents.call] at hrun
      split at hrun
      · rename_i hwrite
        obtain rfl := Except.ok.inj hrun
        exact ⟨(h.write hwrite.1 hwrite.2).1, rfl⟩
      · cases hrun

theorem AgentsInv.of_packStep {p : Nat} {out out' : Outgoing D} {id : Nat}
    (h : out.agents.AgentsInv) (hrun : packStep p out id = .ok out') :
    out'.agents.AgentsInv ∧ out'.agents.rank = out.agents.rank := by
  simp only [packStep] at hrun
  split at hrun
  · obtain ⟨dest, _, hrest⟩ := bind_eq_ok.mp hrun
    split at hrest
    · split at hrest
      · cases hrest
      · obtain ⟨agents, hremove, hret⟩ := bind_eq_ok.mp hrest
        obtain rfl := Except.ok.inj hret
        exact h.of_remove hremove
    · obtain rfl := Except.ok.inj hrest
      exact ⟨h, rfl⟩
  · obtain rfl := Except.ok.inj hrun
    exact ⟨h, rfl⟩

theorem AgentsInv.of_pack (h : s.AgentsInv) {p : Nat} {mem : MigrateMemory D} {out : Outgoing D}
    (hrun : s.pack p mem = .ok out) : out.agents.AgentsInv ∧ out.agents.rank = s.rank := by
  obtain ⟨nsend, _, hrest⟩ := bind_eq_ok.mp hrun
  split at hrest
  · cases hrest
  · refine foldlM_inv (fun _ _ out => out.agents.AgentsInv ∧ out.agents.rank = s.rank) ?_
      ⟨h, rfl⟩ hrest
    rintro _ id _ out1 out2 ⟨h1, hrank1⟩ hstep
    obtain ⟨h2, hrank2⟩ := h1.of_packStep hstep
    exact ⟨h2, hrank2.trans hrank1⟩

end Calls

end RefAgents

end RefineMesh
