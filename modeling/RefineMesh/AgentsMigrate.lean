import Mathlib.Tactic
import RefineMesh.AgentsRuns

/-!
# Migration conserves agents

`ref_agents_migrate` packs the agents that leave a rank into three buffers and
takes them off its list, sends the buffers, and puts the agents together again
on arrival.  What the ranks hold afterwards is what they held before, each
agent on the rank of its destination.
-/

namespace RefineMesh

open ArrayLoop Segments SlotList Spmd

variable {D : Type}

namespace Agent

/-- The value of `*dest`. -/
def destination (a : Agent D) : Int :=
  match a.dest with
  | .ok d => d
  | .error _ => refEmpty

/-- The mode has a destination. -/
def HasDest (a : Agent D) : Prop := ∃ d, a.dest = .ok d

theorem destination_eq {a : Agent D} {d : Int} (h : a.dest = .ok d) : a.destination = d := by
  rw [destination, h]

theorem dest_eq {a : Agent D} (h : a.HasDest) : a.dest = .ok a.destination := by
  obtain ⟨d, hd⟩ := h
  rw [hd, destination_eq hd]

theorem HasDest.active {a : Agent D} (h : a.HasDest) : a.mode ≠ .unused := by
  obtain ⟨d, hd⟩ := h
  intro hmode
  simp [dest, hmode] at hd

/-- The agents that are read from two buffers with the same records. -/
theorem ofRecords_congr {ints ints' globs globs' : Nat → Int} {dbls dbls' : Nat → D} {k k' : Nat}
    (hint : recordAt 6 ints k = recordAt 6 ints' k')
    (hglob : recordAt 1 globs k = recordAt 1 globs' k')
    (hdbl : recordAt 7 dbls k = recordAt 7 dbls' k') :
    ofRecords ints globs dbls k = ofRecords ints' globs' dbls' k' := by
  have hints : ∀ l, l < 6 → ints (l + k * 6) = ints' (l + k' * 6) := fun l hl => by
    have := List.map_inj_left.mp hint l (List.mem_range.mpr hl)
    rwa [Nat.mul_comm 6, Nat.mul_comm 6] at this
  have hglobs : ∀ l, l < 1 → globs (l + k * 1) = globs' (l + k' * 1) := fun l hl => by
    have := List.map_inj_left.mp hglob l (List.mem_range.mpr hl)
    rwa [Nat.mul_comm 1, Nat.mul_comm 1] at this
  have hdbls : ∀ l, l < 7 → dbls (l + k * 7) = dbls' (l + k' * 7) := fun l hl => by
    have := List.map_inj_left.mp hdbl l (List.mem_range.mpr hl)
    rwa [Nat.mul_comm 7, Nat.mul_comm 7] at this
  simp only [ofRecords, Agent.mk.injEq]
  refine ⟨by rw [hints 0 (by decide)], hints 1 (by decide), hints 2 (by decide),
    hints 3 (by decide), hints 4 (by decide), hglobs 0 (by decide), hints 5 (by decide), ?_, ?_⟩
  · funext i
    exact hdbls i (by omega)
  · funext i
    exact hdbls (3 + i) (by omega)

/-- A record that is stored is read back, and the others are as before. -/
theorem ofRecords_store (a : Agent D) (n k : Nat) (ints globs : Nat → Int) (dbls : Nat → D) :
    ofRecords (storeRecord 6 a.ints n ints) (storeRecord 1 (fun _ => a.global) n globs)
        (storeRecord 7 a.dbls n dbls) k =
      if k = n then a else ofRecords ints globs dbls k := by
  have hint : ∀ l, l < 6 → storeRecord 6 a.ints n ints (l + k * 6) =
      if k = n then a.ints l else ints (l + k * 6) := fun l hl => by
    rw [Nat.mul_comm, storeRecord_apply _ _ hl]
  have hglob : storeRecord 1 (fun _ => a.global) n globs (0 + k * 1) =
      if k = n then a.global else globs (0 + k * 1) := by
    rw [Nat.mul_comm, storeRecord_apply _ _ (by decide)]
  have hdbl : ∀ l, l < 7 → storeRecord 7 a.dbls n dbls (l + k * 7) =
      if k = n then a.dbls l else dbls (l + k * 7) := fun l hl => by
    rw [Nat.mul_comm, storeRecord_apply _ _ hl]
  have hxyz : ∀ i : Fin 3, storeRecord 7 a.dbls n dbls (i + k * 7) =
      if k = n then a.xyz i else dbls (i + k * 7) := fun i => by
    rw [hdbl i (by omega)]
    simp [Agent.dbls]
  have hbary : ∀ i : Fin 4, storeRecord 7 a.dbls n dbls (3 + i + k * 7) =
      if k = n then a.bary i else dbls (3 + i + k * 7) := fun i => by
    rw [hdbl (3 + i) (by omega)]
    simp [Agent.dbls]
  by_cases hk : k = n
  · simp only [ofRecords, hint _ (show 0 < 6 by decide), hint _ (show 1 < 6 by decide),
      hint _ (show 2 < 6 by decide), hint _ (show 3 < 6 by decide), hint _ (show 4 < 6 by decide),
      hint _ (show 5 < 6 by decide), hglob, hxyz, hbary, if_pos hk]
    simp [Agent.ints, AgentMode.ofCode_code]
  · simp only [ofRecords, hint _ (show 0 < 6 by decide), hint _ (show 1 < 6 by decide),
      hint _ (show 2 < 6 by decide), hint _ (show 3 < 6 by decide), hint _ (show 4 < 6 by decide),
      hint _ (show 5 < 6 by decide), hglob, hxyz, hbary, if_neg hk]

end Agent

namespace RefAgents

/-! ## Packing -/

/-- The agent in the slot has to leave the rank. -/
def Leaving (s : RefAgents D) (id : Nat) : Prop :=
  s.Active id ∧ (s.rank : Int) ≠ (s.agent id).destination

instance (s : RefAgents D) : DecidablePred s.Leaving :=
  fun id => inferInstanceAs (Decidable (s.Active id ∧ (s.rank : Int) ≠ (s.agent id).destination))

/-- With more than one rank, the destination is one of them. -/
def InRange (p : Nat) (a : Agent D) : Prop := 1 < p → 0 ≤ a.destination ∧ a.destination < p

/-- The slots of a list whose agents leave. -/
def leavingIn (s : RefAgents D) (ids : List Nat) : List Nat := ids.filter fun id => s.Leaving id

/-- The buffers hold the agents that leave from the slots `done`, and the store
has all the others. -/
structure Packed (p : Nat) (s : RefAgents D) (done : List Nat) (out : Outgoing D) : Prop where
  nsend : out.nsend = (s.leavingIn done).length
  sent : ∀ i id, (s.leavingIn done)[i]? = some id →
    out.destination i = (s.agent id).destination.toNat ∧
      Agent.ofRecords out.sendInt out.sendGlob out.sendDbl i = s.agent id
  inRange : ∀ id ∈ s.leavingIn done, InRange p (s.agent id)
  inv : out.agents.AgentsInv
  rank : out.agents.rank = s.rank
  max : out.agents.max = s.max
  active : ∀ id, out.agents.Active id ↔ s.Active id ∧ id ∉ s.leavingIn done
  agent : ∀ id, id ∉ s.leavingIn done → out.agents.agent id = s.agent id

section Packing

variable {s : RefAgents D} {p : Nat} {out out' : Outgoing D} {done : List Nat} {id : Nat}

theorem leavingIn_concat (done : List Nat) (id : Nat) :
    s.leavingIn (done ++ [id]) =
      if s.Leaving id then s.leavingIn done ++ [id] else s.leavingIn done := by
  simp only [leavingIn, List.filter_append, List.filter_cons, List.filter_nil, decide_eq_true_eq]
  split
  · rfl
  · rw [List.append_nil]

theorem mem_leavingIn : id ∈ s.leavingIn done ↔ id ∈ done ∧ s.Leaving id := by
  simp [leavingIn]

/-- The counting loop. -/
theorem count_of_ok {ids : List Nat} {n m : Nat} (hrun : ids.foldlM s.countStep n = .ok m) :
    m = n + (s.leavingIn ids).length ∧ ∀ id ∈ ids, s.Active id → (s.agent id).HasDest := by
  induction ids generalizing n with
  | nil =>
      obtain rfl := Except.ok.inj hrun
      exact ⟨rfl, fun id hid => absurd hid List.not_mem_nil⟩
  | cons id ids ih =>
      rw [List.foldlM_cons] at hrun
      obtain ⟨n1, hstep, hrest⟩ := bind_eq_ok.mp hrun
      obtain ⟨hm, hdest⟩ := ih hrest
      by_cases hact : s.Active id
      · rw [countStep, if_pos hact] at hstep
        obtain ⟨d, hd, hret⟩ := bind_eq_ok.mp hstep
        have hdestination : (s.agent id).destination = d := Agent.destination_eq hd
        have hn1 := Except.ok.inj hret
        refine ⟨?_, ?_⟩
        · by_cases hleave : s.Leaving id
          · rw [if_pos (hdestination ▸ hleave.2)] at hn1
            simp only [leavingIn, List.filter_cons, hleave, decide_true, if_true,
              List.length_cons] at hm ⊢
            omega
          · have hstay : ¬ (s.rank : Int) ≠ d := fun hne => hleave ⟨hact, hdestination ▸ hne⟩
            rw [if_neg hstay] at hn1
            simp only [leavingIn, List.filter_cons, hleave, decide_false] at hm ⊢
            rw [hm, ← hn1]
            rfl
        · intro j hj hjact
          rcases List.mem_cons.mp hj with rfl | hj
          · exact ⟨d, hd⟩
          · exact hdest j hj hjact
      · rw [countStep, if_neg hact] at hstep
        obtain rfl := Except.ok.inj hstep
        have hleave : ¬ s.Leaving id := fun h => hact h.1
        refine ⟨?_, ?_⟩
        · simp only [leavingIn, List.filter_cons, hleave, decide_false] at hm ⊢
          exact hm
        · intro j hj hjact
          rcases List.mem_cons.mp hj with rfl | hj
          · exact absurd hjact hact
          · exact hdest j hj hjact

theorem count_ok (ids : List Nat) (n : Nat) (h : ∀ id ∈ ids, s.Active id → (s.agent id).HasDest) :
    ∃ m, ids.foldlM s.countStep n = .ok m := by
  induction ids generalizing n with
  | nil => exact ⟨n, rfl⟩
  | cons id ids ih =>
      have hrest := fun n => ih n fun j hj => h j (List.mem_cons_of_mem id hj)
      rw [List.foldlM_cons]
      by_cases hact : s.Active id
      · obtain ⟨d, hd⟩ := h id List.mem_cons_self hact
        rw [countStep, if_pos hact, hd]
        exact hrest _
      · rw [countStep, if_neg hact]
        exact hrest _

theorem Packed.fresh (h : Packed p s done out) (hid : id ∉ done) :
    (out.agents.Active id ↔ s.Active id) ∧ out.agents.agent id = s.agent id := by
  have hnot : id ∉ s.leavingIn done := fun hin => hid (mem_leavingIn.mp hin).1
  refine ⟨?_, h.agent id hnot⟩
  rw [h.active]
  exact and_iff_left hnot

/-- One agent of the second loop. -/
theorem Packed.step (h : Packed p s done out) (hid : id ∉ done)
    (hrun : packStep p out id = .ok out') : Packed p s (done ++ [id]) out' := by
  obtain ⟨hactive, hagent⟩ := h.fresh hid
  have hnot : id ∉ s.leavingIn done := fun hin => hid (mem_leavingIn.mp hin).1
  have hkeep : ¬ s.Leaving id → Packed p s (done ++ [id]) out := by
    intro hstay
    have hsame : s.leavingIn (done ++ [id]) = s.leavingIn done := by
      rw [leavingIn_concat, if_neg hstay]
    constructor
    · rw [hsame]
      exact h.nsend
    · rw [hsame]
      exact h.sent
    · rw [hsame]
      exact h.inRange
    · exact h.inv
    · exact h.rank
    · exact h.max
    · rw [hsame]
      exact h.active
    · rw [hsame]
      exact h.agent
  by_cases hact : out.agents.Active id
  · rw [packStep, if_pos hact, hagent, h.rank] at hrun
    obtain ⟨d, hd, hrest⟩ := bind_eq_ok.mp hrun
    have hdestination : (s.agent id).destination = d := Agent.destination_eq hd
    by_cases hleave : (s.rank : Int) ≠ d
    · rw [if_pos hleave] at hrest
      split at hrest
      · cases hrest
      rename_i hrange
      obtain ⟨agents, hremove, hret⟩ := bind_eq_ok.mp hrest
      obtain ⟨s1, hremove1, hinv, hact1, hrank1, hmax1, hagent1⟩ := h.inv.remove hact
      obtain rfl := Except.ok.inj (hremove.symm.trans hremove1)
      obtain rfl := Except.ok.inj hret
      have hconcat : s.leavingIn (done ++ [id]) = s.leavingIn done ++ [id] := by
        rw [leavingIn_concat, if_pos ⟨hactive.mp hact, hdestination ▸ hleave⟩]
      constructor
      · rw [hconcat, List.length_append, List.length_singleton]
        exact congrArg (· + 1) h.nsend
      · intro i j hj
        rw [hconcat] at hj
        simp only [Agent.ofRecords_store, Function.update_apply, h.nsend]
        by_cases hlast : i = (s.leavingIn done).length
        · rw [hlast, List.getElem?_concat_length, Option.some.injEq] at hj
          subst hj
          rw [if_pos hlast, if_pos hlast, hdestination]
          exact ⟨rfl, rfl⟩
        · rw [if_neg hlast, if_neg hlast]
          refine h.sent i j ?_
          have hlt := (List.getElem?_eq_some_iff.mp hj).1
          rw [List.length_append, List.length_singleton] at hlt
          rwa [List.getElem?_append_left (by omega)] at hj
      · intro j hj
        rw [hconcat, List.mem_append, List.mem_singleton] at hj
        rcases hj with hj | rfl
        · exact h.inRange j hj
        · intro hpara
          rw [hdestination]
          omega
      · exact hinv
      · exact hrank1.trans h.rank
      · exact hmax1.trans h.max
      · intro j
        rw [hconcat, List.mem_append, List.mem_singleton, hact1, h.active]
        tauto
      · intro j hj
        rw [hconcat, List.mem_append, List.mem_singleton, not_or] at hj
        rw [hagent1 j hj.2]
        exact h.agent j hj.1
    · rw [if_neg hleave] at hrest
      obtain rfl := Except.ok.inj hrest
      exact hkeep fun hl => hleave (hdestination ▸ hl.2)
  · rw [packStep, if_neg hact] at hrun
    obtain rfl := Except.ok.inj hrun
    exact hkeep fun hl => hact (hactive.mpr hl.1)

theorem Packed.step_ok (h : Packed p s done out) (hid : id ∉ done)
    (hdest : s.Active id → (s.agent id).HasDest ∧ InRange p (s.agent id)) :
    ∃ out', packStep p out id = .ok out' := by
  obtain ⟨hactive, hagent⟩ := h.fresh hid
  by_cases hact : out.agents.Active id
  · obtain ⟨hhas, hrange⟩ := hdest (hactive.mp hact)
    obtain ⟨agents, hremove, _⟩ := h.inv.remove hact
    simp only [packStep, if_pos hact, hagent, h.rank, Agent.dest_eq hhas, hremove]
    have hin :
        ¬ (1 < p ∧ ((s.agent id).destination < 0 ∨ (p : Int) ≤ (s.agent id).destination)) := by
      rintro ⟨hpara, hout⟩
      have := hrange hpara
      omega
    by_cases hleave : (s.rank : Int) ≠ (s.agent id).destination
    · simp only [bind, Except.bind, if_pos hleave, if_neg hin]
      exact ⟨_, rfl⟩
    · simp only [bind, Except.bind, if_neg hleave]
      exact ⟨_, rfl⟩
  · exact ⟨_, by rw [packStep, if_neg hact]⟩

/-- The slots of the agents that leave. -/
def leavingIds (s : RefAgents D) : List Nat := s.leavingIn (List.range s.max)

theorem packed_nil (h : s.AgentsInv) (mem : MigrateMemory D) :
    Packed p s [] { agents := s
                    nsend := 0
                    destination := mem.destination
                    sendInt := mem.sendInt
                    sendGlob := mem.sendGlob
                    sendDbl := mem.sendDbl } where
  nsend := rfl
  sent := fun i id hid => absurd hid (by simp [leavingIn])
  inRange := fun id hid => absurd hid List.not_mem_nil
  inv := h
  rank := rfl
  max := rfl
  active := fun id => by simp [leavingIn]
  agent := fun _ _ => rfl

theorem not_mem_done {done rest : List Nat} {n : Nat} (h : done ++ id :: rest = List.range n) :
    id ∉ done := by
  have hnodup : (done ++ id :: rest).Nodup := h ▸ List.nodup_range
  rw [List.nodup_append] at hnodup
  exact fun hin => hnodup.2.2 id hin id List.mem_cons_self rfl

/-- **Packing.** -/
theorem AgentsInv.packed (h : s.AgentsInv) {mem : MigrateMemory D} (hrun : s.pack p mem = .ok out) :
    Packed p s (List.range s.max) out ∧ 7 * s.leavingIds.length ≤ refIntMax ∧
      ∀ id, s.Active id → (s.agent id).HasDest := by
  obtain ⟨nsend, hcount, hrest⟩ := bind_eq_ok.mp hrun
  obtain ⟨hn, hdest⟩ := count_of_ok hcount
  rw [Nat.zero_add] at hn
  split at hrest
  · cases hrest
  rename_i hfit
  refine ⟨?_, by rw [leavingIds]; omega, fun id hact => hdest id (List.mem_range.mpr hact.1) hact⟩
  refine (foldlM_inv (fun done rest out => Packed p s done out ∧ done ++ rest = List.range s.max)
    ?_ ⟨packed_nil h mem, rfl⟩ hrest).1
  intro done id rest out out' hdone hstep
  exact ⟨hdone.1.step (not_mem_done hdone.2) hstep, by rw [← hdone.2]; simp⟩

theorem AgentsInv.pack_ok (h : s.AgentsInv) (mem : MigrateMemory D)
    (hdest : ∀ id, s.Active id → (s.agent id).HasDest ∧ InRange p (s.agent id))
    (hfit : 7 * s.leavingIds.length ≤ refIntMax) : ∃ out, s.pack p mem = .ok out := by
  obtain ⟨nsend, hcount⟩ := count_ok (List.range s.max) 0 fun id _ hact => (hdest id hact).1
  have hn := (count_of_ok hcount).1
  rw [leavingIds] at hfit
  obtain ⟨out, hout, _⟩ := foldlM_exists (f := packStep p)
    (fun done rest out => Packed p s done out ∧ done ++ rest = List.range s.max)
    (fun done id rest out hdone => by
      obtain ⟨out', hstep⟩ := hdone.1.step_ok (not_mem_done hdone.2) (hdest id)
      exact ⟨out', hstep, hdone.1.step (not_mem_done hdone.2) hstep, by rw [← hdone.2]; simp⟩)
    ⟨packed_nil h mem, rfl⟩
  refine ⟨out, ?_⟩
  rw [pack, hcount]
  simp only [bind, Except.bind]
  rw [if_neg (by omega)]
  exact hout

end Packing

/-! ## Receiving -/

/-- A store of `n` agents can grow. -/
def Room (n : Nat) : Prop := n + Nat.max 5000 (3 * n / 2) ≤ refIntMax

instance (n : Nat) : Decidable (Room n) :=
  inferInstanceAs (Decidable (n + Nat.max 5000 (3 * n / 2) ≤ refIntMax))

theorem Room.mono {n m : Nat} (h : Room m) (hle : n ≤ m) : Room n := by
  have hmax : Nat.max 5000 (3 * n / 2) ≤ Nat.max 5000 (3 * m / 2) :=
    max_le_max le_rfl (Nat.div_le_div_right (Nat.mul_le_mul_left 3 hle))
  unfold Room at h ⊢
  omega

section Receiving

variable {s s' : RefAgents D}

theorem AgentsInv.card (h : s.AgentsInv) : s.agents.card = s.n := by
  rw [h.count, agents, Multiset.coe_card, List.length_map]

theorem AgentsInv.new_ok (h : s.AgentsInv) (hroom : Room s.n) : ∃ r, s.new = .ok r := by
  have hgrow : ∃ s', s.grow = .ok s' := by
    by_cases hblank : s.blank ≠ refEmpty
    · exact ⟨s, by rw [RefAgents.grow, if_pos hblank]⟩
    · have hfull := h.full (not_not.mp hblank)
      unfold Room at hroom
      rw [hfull] at hroom
      rw [RefAgents.grow, if_neg hblank]
      exact ⟨_, if_neg (by omega)⟩
  obtain ⟨s', hs'⟩ := hgrow
  rw [RefAgents.new, hs']
  exact ⟨_, rfl⟩

/-- An agent arrives in a new slot. -/
theorem AgentsInv.arrive (h : s.AgentsInv) {id : Nat} (hnew : s.new = .ok (s', id)) {a : Agent D}
    (ha : a.mode ≠ .unused) :
    (s'.write id a).AgentsInv ∧ (s'.write id a).agents = a ::ₘ s.agents ∧
      (s'.write id a).rank = s.rank := by
  obtain ⟨hinv, hfree, hactive, hrank, hagent, _⟩ := h.new hnew
  obtain ⟨hinv', hactive'⟩ := hinv.write ((hactive id).mpr (Or.inr rfl)) ha
  refine ⟨hinv', ?_, hrank⟩
  have hinsert : (s'.write id a).agents = (s'.write id a).agent id ::ₘ s.agents :=
    agents_insert hfree (fun j => by rw [hactive', hactive]) fun j hj => by
      refine Eq.trans (Function.update_of_ne ?_ _ _) (hagent j hj)
      rintro rfl
      exact hfree hj
  have hself : (s'.write id a).agent id = a := by simp [RefAgents.write]
  rw [hinsert, hself]

/-- The loop after the blind sends, over the agents that arrive. -/
def arriveAll (s : RefAgents D) (arrived : List (Agent D)) : Except Status (RefAgents D) :=
  arrived.foldlM (fun s a => do
    let (s, id) ← s.new
    .ok (s.write id a)) s

theorem receive_eq (nrecv : Nat) (recvInt recvGlob : Nat → Int) (recvDbl : Nat → D) :
    s.receive nrecv recvInt recvGlob recvDbl =
      s.arriveAll ((List.range nrecv).map (Agent.ofRecords recvInt recvGlob recvDbl)) := by
  rw [arriveAll, List.foldlM_map]
  rfl

theorem AgentsInv.arriveAll (h : s.AgentsInv) {arrived : List (Agent D)}
    (hmode : ∀ a ∈ arrived, a.mode ≠ .unused) (hrun : s.arriveAll arrived = .ok s') :
    s'.AgentsInv ∧ s'.rank = s.rank ∧
      s'.agents = s.agents + (arrived : Multiset (Agent D)) := by
  refine (foldlM_inv (fun done rest s' => (s'.AgentsInv ∧ s'.rank = s.rank ∧
    s'.agents = s.agents + (done : Multiset (Agent D))) ∧ done ++ rest = arrived) ?_
    ⟨⟨h, rfl, by simp⟩, rfl⟩ hrun).1
  rintro done a rest s1 s2 ⟨⟨hinv, hrank, hagents⟩, hall⟩ hstep
  have ha : a ∈ arrived := hall ▸ List.mem_append_right _ List.mem_cons_self
  obtain ⟨⟨s3, id⟩, hnew, hret⟩ := bind_eq_ok.mp hstep
  obtain rfl := Except.ok.inj hret
  obtain ⟨hinv', hagents', hrank'⟩ := hinv.arrive hnew (hmode a ha)
  refine ⟨⟨hinv', hrank'.trans hrank, ?_⟩, by rw [← hall]; simp⟩
  rw [hagents', hagents, ← Multiset.coe_add, Multiset.coe_singleton, ← Multiset.singleton_add,
    add_comm, add_assoc]

theorem AgentsInv.arriveAll_ok (h : s.AgentsInv) {arrived : List (Agent D)}
    (hmode : ∀ a ∈ arrived, a.mode ≠ .unused) (hroom : Room (s.agents.card + arrived.length)) :
    ∃ s', s.arriveAll arrived = .ok s' := by
  obtain ⟨s', hs', _⟩ := foldlM_exists (l := arrived)
    (f := fun (s : RefAgents D) a => do
      let (s, id) ← s.new
      .ok (s.write id a))
    (fun done rest s' => s'.AgentsInv ∧ s'.agents.card = s.agents.card + done.length ∧
      done ++ rest = arrived)
    (fun done a rest s1 hdone => by
      obtain ⟨hinv, hcard, hall⟩ := hdone
      have hlength := congrArg List.length hall
      rw [List.length_append, List.length_cons] at hlength
      have hroom1 : Room s1.n := hroom.mono (by rw [← hinv.card, hcard]; omega)
      obtain ⟨⟨s2, id⟩, hnew⟩ := hinv.new_ok hroom1
      obtain ⟨hinv', hagents', _⟩ := hinv.arrive hnew
        (hmode a (hall ▸ List.mem_append_right _ List.mem_cons_self))
      refine ⟨_, by rw [hnew]; rfl, hinv', ?_, by rw [← hall]; simp⟩
      rw [hagents', Multiset.card_cons, hcard, List.length_append, List.length_singleton,
        add_assoc])
    ⟨h, rfl, rfl⟩
  exact ⟨s', hs'⟩

end Receiving

/-! ## The run of a migration -/

/-- The rank a message with the agent goes to; a single rank sends to itself. -/
def goal (p : Nat) (a : Agent D) : Nat := if p ≤ 1 then 0 else a.destination.toNat

section Split

variable {s : RefAgents D} {p : Nat} {out : Outgoing D}

theorem leavingIds_eq (s : RefAgents D) :
    s.leavingIds = s.activeIds.filter fun id => (s.rank : Int) ≠ (s.agent id).destination := by
  rw [leavingIds, leavingIn, activeIds, List.filter_filter]
  apply List.filter_congr
  intro id _
  rw [← Bool.decide_and, decide_eq_decide]
  exact and_comm

/-- The agents that leave. -/
theorem coe_leaving (s : RefAgents D) :
    ((s.leavingIds.map s.agent : List (Agent D)) : Multiset (Agent D)) =
      s.agents.filter fun a => (s.rank : Int) ≠ a.destination := by
  rw [leavingIds_eq, agents, Multiset.filter_coe, List.filter_map]
  rfl

/-- The agents that stay. -/
theorem Packed.staying (h : Packed p s (List.range s.max) out) :
    out.agents.agents = s.agents.filter fun a => ¬ (s.rank : Int) ≠ a.destination := by
  have hids : out.agents.activeIds =
      s.activeIds.filter fun id => ¬ (s.rank : Int) ≠ (s.agent id).destination := by
    rw [activeIds, activeIds, h.max, List.filter_filter]
    apply List.filter_congr
    intro id hid
    rw [← Bool.decide_and, decide_eq_decide, h.active, mem_leavingIn, Leaving]
    tauto
  rw [agents, hids, agents, Multiset.filter_coe, List.filter_map]
  congr 1
  apply List.map_congr_left
  intro id hid
  refine h.agent id fun hin => ?_
  have hleave := (mem_leavingIn.mp hin).2.2
  simp only [List.mem_filter, decide_eq_true_eq] at hid
  exact hid.2 hleave

/-- Staying agents already are where their messages would go. -/
theorem filter_staying {r : Nat} (hrank : s.rank < p) :
    (s.agents.filter fun a => ¬ (s.rank : Int) ≠ a.destination).filter (fun a => goal p a = r) =
      if s.rank = r then s.agents.filter fun a => ¬ (s.rank : Int) ≠ a.destination else 0 := by
  have hgoal : ∀ a ∈ s.agents.filter fun a => ¬ (s.rank : Int) ≠ a.destination,
      goal p a = s.rank := by
    intro a ha
    have hdest := not_not.mp (Multiset.mem_filter.mp ha).2
    unfold goal
    split <;> omega
  split
  · rename_i heq
    exact Multiset.filter_eq_self.mpr fun a ha => (hgoal a ha).trans heq
  · rename_i hne
    exact Multiset.filter_eq_nil.mpr fun a ha h => hne ((hgoal a ha).symm.trans h)

end Split

section Migrating

variable {p : Nat} {s : Nat → RefAgents D} {mem : Nat → MigrateMemory D} {outs : Nat → Outgoing D}

/-- The destinations of the blind sends. -/
def towards (p : Nat) (outs : Nat → Outgoing D) (q i : Nat) : Nat :=
  if p ≤ 1 then 0 else (outs q).destination i

/-- The agents in the messages to a rank. -/
def arrivals (p : Nat) (outs : Nat → Outgoing D) (r : Nat) : List (Agent D) :=
  (deliveries p (towards p outs) (fun q => (outs q).nsend) r).map fun source =>
    Agent.ofRecords (outs source.1).sendInt (outs source.1).sendGlob (outs source.1).sendDbl
      source.2

theorem blindsend_towards (r : Nat) {t : RefType} {send aMem recvMem : Nat → t.Elem D}
    {ldim nsend : Nat} :
    blindsend p (outs r).destination t send ldim nsend aMem recvMem =
      blindsend p (towards p outs r) t send ldim nsend aMem recvMem := by
  by_cases hp : p ≤ 1
  · exact blindsend_serial hp
  · have : towards p outs r = (outs r).destination := by
      funext i
      exact if_neg hp
    rw [this]

theorem towards_eq (hpack : ∀ q, q < p → Packed p (s q) (List.range (s q).max) (outs q)) {q i : Nat}
    (hq : q < p) (hi : i < (outs q).nsend) :
    towards p outs q i = goal p (Agent.ofRecords (outs q).sendInt (outs q).sendGlob
      (outs q).sendDbl i) ∧ towards p outs q i < p := by
  rw [(hpack q hq).nsend] at hi
  obtain ⟨hdest, hagent⟩ := (hpack q hq).sent i _ (List.getElem?_eq_getElem hi)
  have hrange := (hpack q hq).inRange _ (List.getElem_mem hi)
  rw [hagent]
  unfold towards goal InRange at *
  split
  · exact ⟨rfl, by omega⟩
  · rw [hdest]
    exact ⟨rfl, by omega⟩

/-- The messages of a rank hold the agents that leave it. -/
theorem Packed.messages (h : Packed p (s q) (List.range (s q).max) (outs q)) :
    (List.range (outs q).nsend).map (fun i => Agent.ofRecords (outs q).sendInt (outs q).sendGlob
      (outs q).sendDbl i) = (s q).leavingIds.map (s q).agent := by
  apply List.ext_getElem
  · simp [h.nsend, leavingIds]
  · intro i hi hi'
    have hlt : i < ((s q).leavingIn (List.range (s q).max)).length := by
      simpa [leavingIds] using hi'
    rw [List.getElem_map, List.getElem_map, List.getElem_range]
    exact (h.sent i _ (List.getElem?_eq_getElem hlt)).2

theorem coe_arrivals (hpack : ∀ q, q < p → Packed p (s q) (List.range (s q).max) (outs q))
    (r : Nat) :
    (arrivals p outs r : Multiset (Agent D)) = ∑ q ∈ Finset.range p,
      ((s q).agents.filter fun a => ((s q).rank : Int) ≠ a.destination).filter
        fun a => goal p a = r := by
  rw [arrivals, deliveries, List.map_flatMap, coe_flatMap_range]
  apply Finset.sum_congr rfl
  intro q hq
  have hq := Finset.mem_range.mp hq
  rw [← coe_leaving, Multiset.filter_coe, ← (hpack q hq).messages, List.filter_map, List.map_map]
  congr 1
  rw [group]
  refine congrArg _ (List.filter_congr fun i hi => ?_)
  rw [(towards_eq hpack hq (List.mem_range.mp hi)).1]
  rfl

/-- The agents of all ranks that a migration brings to rank `r`. -/
def bound (p : Nat) (s : Nat → RefAgents D) (r : Nat) : Multiset (Agent D) :=
  ∑ q ∈ Finset.range p, (s q).agents.filter fun a => goal p a = r

/-- What stays and what arrives. -/
theorem staying_add_arrivals (hrank : ∀ r, r < p → (s r).rank = r)
    (hpack : ∀ q, q < p → Packed p (s q) (List.range (s q).max) (outs q)) {r : Nat} (hr : r < p) :
    (outs r).agents.agents + (arrivals p outs r : Multiset (Agent D)) = bound p s r := by
  have hsplit : ∀ q ∈ Finset.range p, (s q).agents.filter (fun a => goal p a = r) =
      (if q = r then (outs r).agents.agents else 0) +
        ((s q).agents.filter fun a => ((s q).rank : Int) ≠ a.destination).filter
          fun a => goal p a = r := by
    intro q hq
    have hq := Finset.mem_range.mp hq
    have hstay := filter_staying (s := s q) (p := p) (r := r) (by rw [hrank q hq]; exact hq)
    rw [hrank q hq] at hstay
    have hcut := Multiset.filter_add_not (fun a => ((s q).rank : Int) ≠ a.destination) (s q).agents
    rw [← hcut, Multiset.filter_add, add_comm, hcut, hrank q hq, hstay]
    congr 1
    split
    · rename_i heq
      subst heq
      rw [(hpack q hq).staying, hrank q hq]
    · rfl
  rw [bound, Finset.sum_congr rfl hsplit, Finset.sum_add_distrib, ← coe_arrivals hpack,
    Finset.sum_ite_eq', if_pos (Finset.mem_range.mpr hr)]

/-- The three messages arrive as the agents that were packed. -/
theorem arrivals_eq {ints globs : (Nat → Int) × Nat} {dbls : (Nat → D) × Nat} {r : Nat}
    (hints : Delivered (D := D) p .int (towards p outs) 6 (fun q => (outs q).sendInt)
      (fun q => (outs q).nsend) r ints)
    (hglobs : Delivered (D := D) p .long (towards p outs) 1 (fun q => (outs q).sendGlob)
      (fun q => (outs q).nsend) r globs)
    (hdbls : Delivered p .dbl (towards p outs) 7 (fun q => (outs q).sendDbl)
      (fun q => (outs q).nsend) r dbls) :
    (List.range dbls.2).map (Agent.ofRecords ints.1 globs.1 dbls.1) = arrivals p outs r := by
  rw [show dbls.2 = _ from hdbls.1, arrivals]
  apply List.ext_getElem
  · simp
  · intro k hk _
    have hlt : k < (deliveries p (towards p outs) (fun q => (outs q).nsend) r).length := by
      simpa using hk
    have hget := List.getElem?_eq_getElem hlt
    rw [List.getElem_map, List.getElem_map, List.getElem_range]
    exact Agent.ofRecords_congr (hints.record hget) (hglobs.record hget) (hdbls.record hget)

/-- One of the three messages. -/
theorem runs_message (hp : 0 < p)
    (hpack : ∀ q, q < p → Packed p (s q) (List.range (s q).max) (outs q)) {ldim : Nat}
    (hfit : SendFits p ldim (towards p outs) fun q => (outs q).nsend) (t : RefType)
    (send aMem recvMem : Nat → Nat → t.Elem D) :
    ∃ got : Nat → (Nat → t.Elem D) × Nat,
      (∀ r, r < p →
        Delivered p t (towards p outs) ldim send (fun q => (outs q).nsend) r (got r)) ∧
      ∀ (f : Nat → (Nat → t.Elem D) × Nat → RankProg D (RefAgents D)) (out : Nat → RefAgents D),
        Runs p (fun r => (blindsend p (outs r).destination t (send r) ldim (outs r).nsend (aMem r)
          (recvMem r)).bind (f r)) out ↔ Runs p (fun r => f r (got r)) out := by
  have hall : ∃ got, Runs p (fun r => blindsend p (towards p outs r) t (send r) ldim
      (outs r).nsend (aMem r) (recvMem r)) got ∧ ∀ r, r < p →
        Delivered p t (towards p outs) ldim send (fun q => (outs q).nsend) r (got r) :=
    blindsend_run hp (fun q hq i hi => (towards_eq hpack hq hi).2) hfit aMem recvMem
  obtain ⟨got, hrun, hgot⟩ := hall
  refine ⟨got, hgot, fun f out => ?_⟩
  simp only [blindsend_towards]
  exact Runs.bind_iff hp hrun

/-- A run past a message has sizes that fit. -/
theorem fits_of_message (hp : 0 < p)
    (hpack : ∀ q, q < p → Packed p (s q) (List.range (s q).max) (outs q)) {ldim : Nat}
    (hldim : 0 < ldim) {t : RefType} {send aMem recvMem : Nat → Nat → t.Elem D}
    {f : Nat → (Nat → t.Elem D) × Nat → RankProg D (RefAgents D)} {out : Nat → RefAgents D}
    (hrun : Runs p (fun r => (blindsend p (outs r).destination t (send r) ldim (outs r).nsend
      (aMem r) (recvMem r)).bind (f r)) out) :
    SendFits p ldim (towards p outs) fun q => (outs q).nsend := by
  simp only [blindsend_towards] at hrun
  exact SendFits.of_runs hp hldim (fun q hq i hi => (towards_eq hpack hq hi).2) hrun

/-- A migration is complete when every rank has packed its agents, the
messages fit and every rank has taken up what arrives. -/
theorem runs_migrate_iff (hp : 0 < p) (hinv : ∀ r, r < p → (s r).AgentsInv)
    {out : Nat → RefAgents D} :
    Runs p (fun r => migrate p (s r) (mem r)) out ↔
      ∃ outs : Nat → Outgoing D, (∀ r, r < p → (s r).pack p (mem r) = .ok (outs r)) ∧
        SendFits p 7 (towards p outs) (fun q => (outs q).nsend) ∧
        ∀ r, r < p → (outs r).agents.arriveAll (arrivals p outs r) = .ok (out r) := by
  refine (runs_lift_bind_iff hp).trans (exists_congr fun outs => and_congr_right fun hpack => ?_)
  have hpacked : ∀ q, q < p → Packed p (s q) (List.range (s q).max) (outs q) :=
    fun q hq => ((hinv q hq).packed (hpack q hq)).1
  have hreceive : ∀ {ints globs : Nat → (Nat → Int) × Nat} {dbls : Nat → (Nat → D) × Nat},
      (∀ r, r < p → (List.range (dbls r).2).map
        (Agent.ofRecords (ints r).1 (globs r).1 (dbls r).1) = arrivals p outs r) →
      ∀ r, r < p → (outs r).agents.receive (dbls r).2 (ints r).1 (globs r).1 (dbls r).1 =
        (outs r).agents.arriveAll (arrivals p outs r) := by
    intro ints globs dbls harrive r hr
    rw [receive_eq, harrive r hr]
  have hint := fun (hfit : SendFits p 6 _ _) => runs_message (s := s) hp hpacked hfit .int
    (fun r => (outs r).sendInt) (fun r => (mem r).aInt) (fun r => (mem r).recvInt)
  have hglob := fun (hfit : SendFits p 1 _ _) => runs_message (s := s) hp hpacked hfit .long
    (fun r => (outs r).sendGlob) (fun r => (mem r).aGlob) (fun r => (mem r).recvGlob)
  have hdbl := fun (hfit : SendFits p 7 _ _) => runs_message (s := s) hp hpacked hfit .dbl
    (fun r => (outs r).sendDbl) (fun r => (mem r).aDbl) (fun r => (mem r).recvDbl)
  constructor
  · intro hrun
    have hfit6 := fits_of_message hp hpacked (by decide) hrun
    obtain ⟨ints, hints, hiff⟩ := hint hfit6
    rw [hiff] at hrun
    obtain ⟨globs, hglobs, hiff⟩ := hglob (hfit6.mono (show 1 ≤ 6 by decide))
    rw [hiff] at hrun
    have hfit := fits_of_message hp hpacked (by decide) hrun
    obtain ⟨dbls, hdbls, hiff⟩ := hdbl hfit
    rw [hiff, runs_lift_iff hp] at hrun
    refine ⟨hfit, fun r hr => ?_⟩
    rw [← hrun r hr,
      hreceive (fun r hr => arrivals_eq (hints r hr) (hglobs r hr) (hdbls r hr)) r hr]
  · rintro ⟨hfit, harrive⟩
    obtain ⟨ints, hints, hiff⟩ := hint (hfit.mono (show 6 ≤ 7 by decide))
    rw [hiff]
    obtain ⟨globs, hglobs, hiff⟩ := hglob (hfit.mono (show 1 ≤ 7 by decide))
    rw [hiff]
    obtain ⟨dbls, hdbls, hiff⟩ := hdbl hfit
    rw [hiff, runs_lift_iff hp]
    intro r hr
    rw [← harrive r hr,
      hreceive (fun r hr => arrivals_eq (hints r hr) (hglobs r hr) (hdbls r hr)) r hr]

theorem mem_agents {s : RefAgents D} {a : Agent D} :
    a ∈ s.agents ↔ ∃ id, s.Active id ∧ s.agent id = a := by
  simp only [agents, Multiset.mem_coe, List.mem_map, mem_activeIds]

theorem mem_arrivals (hpack : ∀ q, q < p → Packed p (s q) (List.range (s q).max) (outs q)) {r : Nat}
    {a : Agent D} (ha : a ∈ arrivals p outs r) : ∃ q < p, a ∈ (s q).agents := by
  rw [← Multiset.mem_coe, coe_arrivals hpack, Multiset.mem_sum] at ha
  obtain ⟨q, hq, ha⟩ := ha
  exact ⟨q, Finset.mem_range.mp hq, Multiset.mem_of_mem_filter (Multiset.mem_of_mem_filter ha)⟩

/-- **Every completed migration** keeps the lists, and every rank ends with
the agents that are bound for it. -/
theorem AgentsInv.migrated (hp : 0 < p) (hinv : ∀ r, r < p → (s r).AgentsInv)
    (hrank : ∀ r, r < p → (s r).rank = r) {out : Nat → RefAgents D}
    (hrun : Runs p (fun r => migrate p (s r) (mem r)) out) :
    ∀ r, r < p → (out r).AgentsInv ∧ (out r).rank = r ∧ (out r).agents = bound p s r := by
  obtain ⟨outs, hpack, _, harrive⟩ := (runs_migrate_iff hp hinv).mp hrun
  have hpacked : ∀ q, q < p → Packed p (s q) (List.range (s q).max) (outs q) :=
    fun q hq => ((hinv q hq).packed (hpack q hq)).1
  intro r hr
  obtain ⟨hinv', hrank', hagents⟩ := (hpacked r hr).inv.arriveAll (fun a ha => by
    obtain ⟨q, _, ha⟩ := mem_arrivals hpacked ha
    obtain ⟨id, hact, rfl⟩ := mem_agents.mp ha
    exact hact.2) (harrive r hr)
  refine ⟨hinv', ?_, hagents.trans (staying_add_arrivals hrank hpacked hr)⟩
  rw [hrank', (hpacked r hr).rank, hrank r hr]

/-- Every agent of a completed migration is bound for a rank. -/
theorem goal_lt_of_runs (hp : 0 < p) (hinv : ∀ r, r < p → (s r).AgentsInv)
    (hrank : ∀ r, r < p → (s r).rank = r) {out : Nat → RefAgents D}
    (hrun : Runs p (fun r => migrate p (s r) (mem r)) out) {q : Nat} (hq : q < p) {a : Agent D}
    (ha : a ∈ (s q).agents) : goal p a < p := by
  obtain ⟨outs, hpack, _, _⟩ := (runs_migrate_iff hp hinv).mp hrun
  have hpacked := ((hinv q hq).packed (hpack q hq)).1
  obtain ⟨id, hact, rfl⟩ := mem_agents.mp ha
  unfold goal
  split
  · exact hp
  · by_cases hleave : (s q).Leaving id
    · have hin := hpacked.inRange id
        (mem_leavingIn.mpr ⟨List.mem_range.mpr hact.1, hleave⟩) (by omega)
      omega
    · have hstay : ((s q).rank : Int) = ((s q).agent id).destination :=
        not_not.mp fun hne => hleave ⟨hact, hne⟩
      rw [hrank q hq] at hstay
      omega

/-- All agents that are bound for some rank. -/
theorem sum_bound (hgoal : ∀ q, q < p → ∀ a ∈ (s q).agents, goal p a < p) :
    ∑ r ∈ Finset.range p, bound p s r = ∑ q ∈ Finset.range p, (s q).agents := by
  unfold bound
  rw [Finset.sum_comm]
  apply Finset.sum_congr rfl
  intro q hq
  have hsum := sum_group ((s q).activeIds.map (s q).agent)
    fun a ha => hgoal q (Finset.mem_range.mp hq) a (Multiset.mem_coe.mpr ha)
  refine Eq.trans (Finset.sum_congr rfl fun r _ => ?_) hsum
  rw [agents, Multiset.filter_coe]
  rfl

/-- The counts of a migration are `REF_INT`: the doubles of the agents that a
rank sends and receives, and the slots of a rank that has to grow. -/
structure MigrateFits (p : Nat) (s : Nat → RefAgents D) : Prop where
  sent : ∀ r, r < p →
    7 * ((s r).agents.filter fun a => ((s r).rank : Int) ≠ a.destination).card ≤ refIntMax
  received : ∀ r, r < p → 7 * (∑ q ∈ Finset.range p,
    ((s q).agents.filter fun a => ((s q).rank : Int) ≠ a.destination).filter
      fun a => goal p a = r).card ≤ refIntMax
  room : ∀ r, r < p → Room (bound p s r).card

theorem migrate_exists (hp : 0 < p) (hinv : ∀ r, r < p → (s r).AgentsInv)
    (hrank : ∀ r, r < p → (s r).rank = r)
    (hdest : ∀ r, r < p → ∀ a ∈ (s r).agents, a.HasDest ∧ InRange p a) (hfit : MigrateFits p s) :
    ∃ out, Runs p (fun r => migrate p (s r) (mem r)) out := by
  have hleaving : ∀ r, r < p → 7 * (s r).leavingIds.length ≤ refIntMax := by
    intro r hr
    have hsent := hfit.sent r hr
    rwa [← coe_leaving, Multiset.coe_card, List.length_map] at hsent
  have hok : ∀ r, ∃ out, r < p → (s r).pack p (mem r) = .ok out := by
    intro r
    by_cases hr : r < p
    · obtain ⟨out, hout⟩ := (hinv r hr).pack_ok (mem r)
        (fun id hact => hdest r hr _ (mem_agents.mpr ⟨id, hact, rfl⟩)) (hleaving r hr)
      exact ⟨out, fun _ => hout⟩
    · exact ⟨⟨s r, 0, (mem r).destination, (mem r).sendInt, (mem r).sendGlob, (mem r).sendDbl⟩,
        fun h => absurd h hr⟩
  choose outs hpack using hok
  have hpacked : ∀ q, q < p → Packed p (s q) (List.range (s q).max) (outs q) :=
    fun q hq => ((hinv q hq).packed (hpack q hq)).1
  have hlength : ∀ r, (deliveries p (towards p outs) (fun q => (outs q).nsend) r).length =
      (arrivals p outs r).length := fun r => by rw [arrivals, List.length_map]
  have hsends : SendFits p 7 (towards p outs) fun q => (outs q).nsend := by
    constructor
    · intro r hr
      have := hleaving r hr
      rw [(hpacked r hr).nsend]
      rw [leavingIds] at this
      omega
    · intro r hr
      have hreceived := hfit.received r hr
      rw [← coe_arrivals hpacked, Multiset.coe_card] at hreceived
      rw [hlength]
      omega
  have htaken : ∀ r, ∃ out, r < p → (outs r).agents.arriveAll (arrivals p outs r) = .ok out := by
    intro r
    by_cases hr : r < p
    · have hmode : ∀ a ∈ arrivals p outs r, a.mode ≠ .unused := by
        intro a ha
        obtain ⟨q, hq, ha⟩ := mem_arrivals hpacked ha
        exact (hdest q hq a ha).1.active
      have hroom := hfit.room r hr
      rw [← staying_add_arrivals hrank hpacked hr, Multiset.card_add, Multiset.coe_card] at hroom
      obtain ⟨out, hout⟩ := (hpacked r hr).inv.arriveAll_ok hmode hroom
      exact ⟨out, fun _ => hout⟩
    · exact ⟨s r, fun h => absurd h hr⟩
  choose out hout using htaken
  exact ⟨out, (runs_migrate_iff hp hinv).mpr ⟨outs, hpack, hsends, hout⟩⟩

end Migrating

/-- The stores of `p` ranks after calls on single ranks and migrations, in any
order. -/
inductive AgentsReach (p : Nat) : (Nat → RefAgents D) → Prop
  | create (mem : Nat → RefAgents D) : AgentsReach p fun r => create (mem r) r
  | call {s : Nat → RefAgents D} {r : Nat} {c : AgentCall D} {s' : RefAgents D} :
      AgentsReach p s → (s r).call c = .ok s' → AgentsReach p (Function.update s r s')
  | migrate {s out : Nat → RefAgents D} {mem : Nat → MigrateMemory D} :
      AgentsReach p s → Runs p (fun r => migrate p (s r) (mem r)) out → AgentsReach p out

/-- Every step of the ranks keeps the two lists of every store. -/
theorem AgentsReach.inv {p : Nat} (hp : 0 < p) {s : Nat → RefAgents D} (h : AgentsReach p s) :
    ∀ r, r < p → (s r).AgentsInv ∧ (s r).rank = r := by
  induction h with
  | create mem => exact fun r _ => ⟨create_inv (mem r) r, rfl⟩
  | @call s q c s' _ hcall ih =>
      intro r hr
      by_cases hq : r = q
      · subst hq
        obtain ⟨hinv, hrank⟩ := (ih r hr).1.call hcall
        rw [Function.update_self]
        exact ⟨hinv, hrank.trans (ih r hr).2⟩
      · rw [Function.update_of_ne hq]
        exact ih r hr
  | migrate _ hrun ih =>
      intro r hr
      obtain ⟨hinv, hrank, _⟩ :=
        AgentsInv.migrated hp (fun r hr => (ih r hr).1) (fun r hr => (ih r hr).2) hrun r hr
      exact ⟨hinv, hrank⟩

/-- The agents of all ranks are those of before, each on its destination. -/
structure Migrated (p : Nat) (s out : Nat → RefAgents D) : Prop where
  conserved : ∑ r ∈ Finset.range p, (out r).agents = ∑ r ∈ Finset.range p, (s r).agents
  arrived : ∀ r, r < p → ∀ a ∈ (out r).agents, a.dest = .ok (r : Int)
  listed : ∀ r, r < p → (out r).AgentsInv

end RefAgents

open RefAgents

/-- **Agents are conserved.**  Along all calls and migrations the active agents
of every rank are a doubly linked list that ends at `last`, `n` is its length
and the other slots are the blank list.  A migration that completes changes no
field of any agent.  One whose agents all have a rank as their destination and
whose counts fit completes, with every agent on its destination. -/
theorem agents_conserved {p : Nat} (hp : 0 < p) :
    (∀ s : Nat → RefAgents D, AgentsReach p s → ∀ r, r < p → (s r).AgentsInv) ∧
    (∀ (s out : Nat → RefAgents D) (mem : Nat → MigrateMemory D), AgentsReach p s →
      Runs p (fun r => migrate p (s r) (mem r)) out →
        ∑ r ∈ Finset.range p, (out r).agents = ∑ r ∈ Finset.range p, (s r).agents) ∧
    ∀ (s : Nat → RefAgents D) (mem : Nat → MigrateMemory D), AgentsReach p s →
      (∀ r, r < p → ∀ a ∈ (s r).agents, ∃ d : Nat, d < p ∧ a.dest = .ok (d : Int)) →
      MigrateFits p s →
        Yields p (fun r => migrate p (s r) (mem r)) (Migrated p s) := by
  have hconserved : ∀ (s out : Nat → RefAgents D) (mem : Nat → MigrateMemory D), AgentsReach p s →
      Runs p (fun r => migrate p (s r) (mem r)) out →
        ∑ r ∈ Finset.range p, (out r).agents = ∑ r ∈ Finset.range p, (s r).agents := by
    intro s out mem hreach hrun
    have hinv := fun r hr => (hreach.inv hp r hr).1
    have hrank := fun r hr => (hreach.inv hp r hr).2
    have hmigrated := AgentsInv.migrated hp hinv hrank hrun
    rw [← sum_bound fun q hq a ha => goal_lt_of_runs hp hinv hrank hrun hq ha]
    exact Finset.sum_congr rfl fun r hr => (hmigrated r (Finset.mem_range.mp hr)).2.2
  refine ⟨fun s hreach r hr => (hreach.inv hp r hr).1, hconserved, ?_⟩
  intro s mem hreach hdest hfit
  have hinv := fun r hr => (hreach.inv hp r hr).1
  have hrank := fun r hr => (hreach.inv hp r hr).2
  constructor
  · refine migrate_exists hp hinv hrank ?_ hfit
    intro r hr a ha
    obtain ⟨d, hd, hdest⟩ := hdest r hr a ha
    refine ⟨⟨d, hdest⟩, fun _ => ?_⟩
    rw [Agent.destination_eq hdest]
    omega
  · intro out hrun
    have hmigrated := AgentsInv.migrated hp hinv hrank hrun
    refine ⟨hconserved s out mem hreach hrun, ?_, fun r hr => (hmigrated r hr).1⟩
    intro r hr a ha
    rw [(hmigrated r hr).2.2, bound, Multiset.mem_sum] at ha
    obtain ⟨q, hq, ha⟩ := ha
    obtain ⟨hin, hgoal⟩ := Multiset.mem_filter.mp ha
    obtain ⟨d, hd, hdest⟩ := hdest q (Finset.mem_range.mp hq) a hin
    have hdr : d = r := by
      rw [goal, Agent.destination_eq hdest] at hgoal
      split at hgoal
      · omega
      · simpa using hgoal
    rw [hdest, hdr]

section Pushed

/-- An agent is pushed. -/
theorem RefAgents.AgentsInv.push_ok {s : RefAgents D} (h : s.AgentsInv) (hroom : Room s.n)
    (node part seed : Int) (xyz : Fin 3 → D) :
    ∃ s' id a, s.push node part seed xyz = .ok (s', id) ∧ s'.AgentsInv ∧ s'.Active id ∧
      s'.agents = a ::ₘ s.agents ∧ a.dest = .ok part := by
  obtain ⟨⟨s1, id⟩, hnew⟩ := h.new_ok hroom
  let a : Agent D := { s1.agent id with
    mode := .walking
    home := s1.rank
    node := node
    part := part
    seed := seed
    global := refEmpty
    step := 0
    xyz := xyz }
  refine ⟨s1.write id a, id, a, by rw [push, hnew]; rfl, ?_⟩
  have hmode : a.mode ≠ .unused := AgentMode.noConfusion
  obtain ⟨hinv, hagents, _⟩ := h.arrive hnew hmode
  obtain ⟨hinv1, _, hactive, _⟩ := h.new hnew
  have hactive' := (hinv1.write ((hactive id).mpr (Or.inr rfl)) hmode).2
  exact ⟨hinv, hactive' ▸ (hactive id).mpr (Or.inr rfl), hagents, rfl⟩

/-- An agent that was taken from the blank list and has no mode yet. -/
theorem agents_conserved_new_mode : ∃ s : Nat → RefAgents Int, AgentsReach 1 s ∧
    (∃ id, (s 0).Active id) ∧
      ∀ (mem : Nat → MigrateMemory Int) (out : Nat → RefAgents Int),
        ¬ Runs 1 (fun r => migrate 1 (s r) (mem r)) out := by
  let mem : RefAgents Int := ⟨0, 0, 0, 0, fun _ => 0, fun _ => 0,
    fun _ => ⟨.unused, 0, 0, 0, 0, 0, 0, fun _ => 0, fun _ => 0⟩, 0⟩
  obtain ⟨s1, id, _, hpush, hinv, hactive, _⟩ :=
    (create_inv mem 0).push_ok (by decide) 0 0 0 fun _ => 0
  let a : Agent Int := { s1.agent id with mode := .new }
  have hwrite : s1.call (.write id a) = .ok (s1.write id a) :=
    if_pos ⟨hactive, AgentMode.noConfusion⟩
  have hreach : AgentsReach 1 _ := ((AgentsReach.create fun _ => mem).call (r := 0)
    (c := .push 0 0 0 fun _ => 0) (by rw [RefAgents.call, hpush]; rfl)).call (r := 0)
      (by rw [Function.update_self]; exact hwrite)
  have hactive' : (s1.write id a).Active id :=
    (hinv.write hactive (show a.mode ≠ .unused from AgentMode.noConfusion)).2 ▸ hactive
  refine ⟨_, hreach, ⟨id, by rw [Function.update_self]; exact hactive'⟩, fun mem out hrun => ?_⟩
  obtain ⟨outs, hpack, _⟩ := (runs_migrate_iff (by decide)
    fun r hr => (hreach.inv (by decide) r hr).1).mp hrun
  obtain ⟨_, _, hdest⟩ := ((hreach.inv (by decide) 0 (by decide)).1).packed (hpack 0 (by decide))
  rw [Function.update_self] at hdest
  obtain ⟨d, hd⟩ := hdest id hactive'
  have hnew : (s1.write id a).agent id = a := Function.update_self ..
  rw [hnew] at hd
  cases hd

/-- Two ranks with one agent each, which looks for its cell on the other. -/
theorem agents_conserved_two_ranks : ∃ s : Nat → RefAgents Int, AgentsReach 2 s ∧
    (∀ r, r < 2 → (s r).agents.card = 1) ∧
      ∀ mem : Nat → MigrateMemory Int,
        Yields 2 (fun r => migrate 2 (s r) (mem r)) (Migrated 2 s) := by
  let mem : RefAgents Int := ⟨0, 0, 0, 0, fun _ => 0, fun _ => 0,
    fun _ => ⟨.unused, 0, 0, 0, 0, 0, 0, fun _ => 0, fun _ => 0⟩, 0⟩
  have hempty : ∀ r, (create mem r).agents = 0 := by
    intro r
    rw [← Multiset.card_eq_zero, (create_inv mem r).card]
    rfl
  obtain ⟨s0, _, a0, hpush0, _, _, hagents0, hdest0⟩ :=
    (create_inv mem 0).push_ok (by decide) 0 1 0 fun _ => 0
  obtain ⟨s1, _, a1, hpush1, _, _, hagents1, hdest1⟩ :=
    (create_inv mem 1).push_ok (by decide) 0 0 0 fun _ => 0
  have hcall0 : (create mem 0).call (.push 0 1 0 fun _ => 0) = .ok s0 := by
    rw [RefAgents.call, hpush0]
    rfl
  have hcall1 : (create mem 1).call (.push 0 0 0 fun _ => 0) = .ok s1 := by
    rw [RefAgents.call, hpush1]
    rfl
  have hreach := ((AgentsReach.create (p := 2) fun _ => mem).call (r := 0) hcall0).call (r := 1)
    (by rw [Function.update_of_ne (by decide)]; exact hcall1)
  rw [hempty, Multiset.cons_zero] at hagents0 hagents1
  generalize hs : Function.update (Function.update (fun r => create mem r) 0 s0) 1 s1 = s at hreach
  have hat : ∀ r, r < 2 →
      ∃ a : Agent Int, (s r).agents = {a} ∧ a.dest = .ok ((1 - r : Nat) : Int) := by
    intro r hr
    rw [← hs]
    interval_cases r
    · exact ⟨a0, hagents0, hdest0⟩
    · exact ⟨a1, hagents1, hdest1⟩
  have hcard : ∀ r, r < 2 → (s r).agents.card = 1 := by
    intro r hr
    obtain ⟨a, ha, _⟩ := hat r hr
    rw [ha, Multiset.card_singleton]
  have hsum : ∀ f : Nat → Multiset (Agent Int), (∀ r, r < 2 → (f r).card ≤ 1) →
      (∑ q ∈ Finset.range 2, f q).card ≤ 2 := by
    intro f hf
    have h0 := hf 0 (by decide)
    have h1 := hf 1 (by decide)
    simp only [Finset.sum_range_succ, Finset.sum_range_zero, zero_add, Multiset.card_add]
    omega
  have hfilter : ∀ r, r < 2 → ∀ (f : Agent Int → Prop) [DecidablePred f],
      ((s r).agents.filter f).card ≤ 1 := by
    intro r hr f _
    exact (Multiset.card_le_card (Multiset.filter_le f _)).trans (hcard r hr).le
  refine ⟨s, hreach, hcard, fun mem => (agents_conserved (by decide)).2.2 s mem hreach ?_ ?_⟩
  · intro r hr a ha
    obtain ⟨b, hb, hdest⟩ := hat r hr
    rw [hb, Multiset.mem_singleton] at ha
    exact ⟨1 - r, by omega, ha ▸ hdest⟩
  · constructor
    · intro r hr
      have := hfilter r hr fun a => ((s r).rank : Int) ≠ a.destination
      simp only [refIntMax]
      omega
    · intro r hr
      have := hsum _ fun q hq => (Multiset.card_le_card
        (Multiset.filter_le (fun a => goal 2 a = r) _)).trans
          (hfilter q hq fun a => ((s q).rank : Int) ≠ a.destination)
      simp only [refIntMax]
      omega
    · intro r hr
      refine Room.mono (show Room 2 by decide) ?_
      exact hsum _ fun q hq => hfilter q hq fun a => goal 2 a = r

end Pushed

end RefineMesh
