import Mathlib.Tactic
import RefineMesh.Adj

/-!
# Adjacency as a multimap

The calls that change a `REF_ADJ` record references of nodes.  What they record
is a multiset for each node; the lists of items hold it in every state that the
calls reach.
-/

namespace RefineMesh

open SlotList

namespace RefAdj

/-- `ref_adj_add_uniquely`. -/
def addUniquely (a : RefAdj) (node reference : Int) : Except Status RefAdj :=
  if reference ∈ a.refs node then .ok a else a.add node reference

/-- `ref_adj_degree`. -/
def degree (a : RefAdj) (node : Int) : Nat := (a.items node).foldl (fun degree _ => degree + 1) 0

theorem degree_eq_length (a : RefAdj) (node : Int) : a.degree node = (a.refs node).length := by
  have hcount : ∀ (l : List Nat) (n : Nat),
      l.foldl (fun degree _ => degree + 1) n = n + l.length := by
    intro l
    induction l with
    | nil => simp
    | cons item rest ih =>
        intro n
        rw [List.foldl_cons, ih, List.length_cons]
        omega
  rw [degree, hcount, Nat.zero_add, refs, List.length_map]

end RefAdj

/-- A call that changes the lists. -/
inductive AdjCall where
  | add (node reference : Int)
  | addUniquely (node reference : Int)
  | remove (node reference : Int)

namespace AdjCall

/-- The node whose list the call is about. -/
def node : AdjCall → Int
  | add node _ => node
  | addUniquely node _ => node
  | remove node _ => node

def run (a : RefAdj) : AdjCall → Except Status RefAdj
  | add node reference => a.add node reference
  | addUniquely node reference => a.addUniquely node reference
  | remove node reference => a.remove node reference

/-- What a refused call leaves behind.  `ref_adj_add` has made room for the node
by then. -/
def leave (a : RefAdj) : AdjCall → RefAdj
  | add node _ | addUniquely node _ =>
      if node < 0 then a else (a.growNodes node.toNat).toOption.getD a
  | remove _ _ => a

/-- What the call does to the references of the nodes. -/
def record (m : Int → Multiset Int) : AdjCall → Int → Multiset Int
  | add node reference => Function.update m node (reference ::ₘ m node)
  | addUniquely node reference =>
      if reference ∈ m node then m else Function.update m node (reference ::ₘ m node)
  | remove node reference => Function.update m node ((m node).erase reference)

end AdjCall

/-- The references that a sequence of calls, the last call first, leaves at each
node. -/
def adjContents (calls : List AdjCall) : Int → Multiset Int :=
  calls.foldr (fun call m => call.record m) fun _ => 0

namespace RefAdj

/-- The adjacencies that calls reach, with the calls that were not refused.  An
undefined call ends the run. -/
inductive Reached (mem : RefAdj) : List AdjCall → RefAdj → Prop
  | created : Reached mem [] (create mem)
  | done {calls : List AdjCall} {a a' : RefAdj} (call : AdjCall) (before : Reached mem calls a)
      (ok : call.run a = .ok a') : Reached mem (call :: calls) a'
  | refused {calls : List AdjCall} {a : RefAdj} {e : Status} (call : AdjCall)
      (before : Reached mem calls a) (error : call.run a = .error e) (defined : e ≠ .undefined) :
      Reached mem calls (call.leave a)

/-- The lists of `a` hold the references `m`. -/
structure Holding (a : RefAdj) (m : Int → Multiset Int) : Prop where
  inv : a.AdjInv
  refs : ∀ v, (a.refs v : Multiset Int) = m v

variable {a a' : RefAdj} {m : Int → Multiset Int} {node reference : Int}

theorem Holding.mem_iff (h : a.Holding m) : reference ∈ a.refs node ↔ reference ∈ m node := by
  rw [← h.refs node, Multiset.mem_coe]

/-- A new list at one node. -/
theorem Holding.update (h : a.Holding m) (hinv : a'.AdjInv) {l : Multiset Int}
    (hself : (a'.refs node : Multiset Int) = l) (hother : ∀ w, w ≠ node → a'.refs w = a.refs w) :
    a'.Holding (Function.update m node l) := by
  refine ⟨hinv, fun v => ?_⟩
  by_cases hv : v = node
  · rw [hv, hself, Function.update_self]
  · rw [hother v hv, h.refs v, Function.update_of_ne hv]

theorem Holding.add (h : a.Holding m) (hrun : a.add node reference = .ok a') :
    a'.Holding (Function.update m node (reference ::ₘ m node)) := by
  obtain ⟨_, hinv, hself, hother⟩ := add_spec h.inv hrun
  refine h.update hinv ?_ hother
  rw [hself, ← h.refs node, Multiset.cons_coe]

/-- `ref_adj_remove` refuses a reference that is not on the list. -/
theorem remove_absent (h : a.AdjInv) (hnot : reference ∉ a.refs node) :
    a.remove node reference = .error .invalid := by
  by_cases hfirst : a.firstItem node = refEmpty
  · rw [remove, if_pos hfirst]
  have hne : a.items node ≠ [] := fun hnil => hfirst ((h.items_eq_nil_iff node).mp hnil)
  obtain ⟨item, rest, hitems⟩ := List.exists_cons_of_ne_nil hne
  have hchain := h.chain node
  rw [hitems] at hchain
  have hother : ∀ k ∈ a.items node, a.itemRef k ≠ reference := by
    intro k hk heq
    exact hnot (List.mem_map.mpr ⟨k, hk, heq⟩)
  have hhead : reference ≠ a.itemRef (a.firstItem node).toNat := by
    rw [hchain.1, toNat_plainLink]
    exact (hother item (by simp [hitems])).symm
  rcases findTarget_spec a.itemRef reference (a.items node) refEmpty with
    ⟨before, k, after, hsplit, hk, _⟩ | ⟨_, hempty⟩
  · exact absurd hk (hother k (by simp [hsplit]))
  · simp only [remove, if_neg hfirst, if_neg hhead, hempty, if_true]

/-- Each call that succeeds keeps what the lists hold. -/
theorem Holding.run (h : a.Holding m) {call : AdjCall} (hrun : call.run a = .ok a') :
    a'.Holding (call.record m) ∧ ∀ w, w ≠ call.node → a'.refs w = a.refs w := by
  cases call with
  | add node reference => exact ⟨h.add hrun, (add_spec h.inv hrun).2.2.2⟩
  | addUniquely node reference =>
      simp only [AdjCall.run, addUniquely] at hrun
      simp only [AdjCall.record, ← h.mem_iff]
      by_cases hmem : reference ∈ a.refs node
      · rw [if_pos hmem, Except.ok.injEq] at hrun
        rw [if_pos hmem, ← hrun]
        exact ⟨h, fun _ _ => rfl⟩
      · rw [if_neg hmem] at hrun
        rw [if_neg hmem]
        exact ⟨h.add hrun, (add_spec h.inv hrun).2.2.2⟩
  | remove node reference =>
      by_cases hmem : reference ∈ a.refs node
      · obtain ⟨_, hok, hinv, _, hself, hother, _⟩ := remove_spec h.inv hmem
        have heq := Except.ok.inj (hok.symm.trans hrun)
        rw [heq] at hinv hself hother
        refine ⟨h.update hinv ?_ hother, hother⟩
        rw [hself, ← h.refs node, Multiset.coe_erase]
      · have habsent := remove_absent h.inv hmem
        rw [AdjCall.run, habsent] at hrun
        cases hrun

/-- A refused call changes no list. -/
theorem Holding.leave (h : a.Holding m) (call : AdjCall) :
    (call.leave a).Holding m ∧ ∀ w, (call.leave a).refs w = a.refs w := by
  have hgrow : ∀ node : Int, ∀ b, b = (if node < 0 then a
      else (a.growNodes node.toNat).toOption.getD a) →
      b.Holding m ∧ ∀ w, b.refs w = a.refs w := by
    intro node b hb
    by_cases hneg : node < 0
    · rw [hb, if_pos hneg]
      exact ⟨h, fun _ => rfl⟩
    rw [if_neg hneg] at hb
    cases hrun : a.growNodes node.toNat with
    | error e =>
        rw [hb, hrun]
        exact ⟨h, fun _ => rfl⟩
    | ok a1 =>
        obtain ⟨hinv, hitems, href, _⟩ := growNodes_spec h.inv hrun
        have hrefs : ∀ w, a1.refs w = a.refs w := by
          intro w
          rw [RefAdj.refs, RefAdj.refs, hitems w, href]
        rw [hb, hrun]
        exact ⟨⟨hinv, fun v => by rw [← h.refs v, ← hrefs v]; rfl⟩, hrefs⟩
  cases call with
  | add node reference => exact hgrow node _ rfl
  | addUniquely node reference => exact hgrow node _ rfl
  | remove node reference => exact ⟨h, fun _ => rfl⟩

/-- In every state that calls reach the lists hold what the calls recorded. -/
theorem Reached.holding {mem : RefAdj} {calls : List AdjCall} (h : Reached mem calls a) :
    a.Holding (adjContents calls) := by
  induction h with
  | created =>
      obtain ⟨hinv, hnil⟩ := create_inv mem
      refine ⟨hinv, fun v => ?_⟩
      rw [RefAdj.refs, hnil v]
      rfl
  | done call _ hok ih => exact (ih.run hok).1
  | refused call _ _ _ ih => exact (ih.leave call).1

/-- With room in the pool, `ref_adj_add` succeeds on every node that is a hundred
away from the limit of `REF_INT`. -/
theorem add_ok_of_room (reference : Int) (hpos : 0 ≤ node) (hfit : node + 100 ≤ refIntMax)
    (hroom : a.blank ≠ refEmpty ∨ a.nitem < refIntMax) : ∃ a', a.add node reference = .ok a' := by
  by_cases hblank : a.blank = refEmpty
  swap
  · exact add_ok reference hblank hpos hfit
  obtain ⟨a1, hrun, hlt, hb, _, hnitem⟩ :=
    growNodes_ok (a := a) (show node.toNat + 100 ≤ refIntMax by omega)
  have hnot : a1.nitem ≠ refIntMax := by
    have := hroom.resolve_left (not_not.mpr hblank)
    omega
  rw [hblank] at hb
  obtain ⟨a2, hitems⟩ : ∃ a2, a1.growItems = .ok a2 := by simp [growItems, hb, hnot]
  have hnnode : a2.nnode = a1.nnode := by
    simp only [growItems, hb, hnot, ne_eq, not_true, if_false, Except.ok.injEq] at hitems
    rw [← hitems]
  refine ⟨a2.link node.toNat reference, ?_⟩
  rw [RefAdj.add, if_neg (not_lt.mpr hpos), bind_eq_ok]
  refine ⟨a1, hrun, bind_eq_ok.mpr ⟨a2, hitems, ?_⟩⟩
  rw [if_neg (by omega)]

/-- The lists of the nodes and the blank list have each item of the pool once,
and every list ends. -/
structure Pooled (a : RefAdj) (blank : List Nat) : Prop where
  chain : ∀ v, Threads plainLink refEmpty a.itemNext (a.firstItem v) (a.items v)
  blankChain : Threads plainLink refEmpty a.itemNext a.blank blank
  within : ∀ k, a.nitem ≤ k → k ∉ blank ∧ ∀ v, k ∉ a.items v
  once : ∀ k, k < a.nitem →
    (blank.count k = 1 ∧ ∀ v, (a.items v).count k = 0) ∨
      blank.count k = 0 ∧ ∃ v, (a.items v).count k = 1 ∧ ∀ w, w ≠ v → (a.items w).count k = 0

theorem AdjInv.pooled (h : a.AdjInv) : ∃ blank, a.Pooled blank := by
  obtain ⟨blank, hthreads, hnodup, hmem⟩ := h.blank
  refine ⟨blank, h.chain, hthreads, fun k hk => ⟨fun hb => ?_, fun v hv => ?_⟩, fun k hk => ?_⟩
  · exact absurd ((hmem k).mp hb).1 (by omega)
  · exact absurd (h.within v k hv) (by omega)
  · by_cases hb : k ∈ blank
    · refine Or.inl ⟨List.count_eq_one_of_mem hnodup hb, fun v => ?_⟩
      exact List.count_eq_zero.mpr (((hmem k).mp hb).2 v)
    · obtain ⟨v, hv⟩ : ∃ v, k ∈ a.items v := by
        by_contra hnone
        exact hb ((hmem k).mpr ⟨hk, not_exists.mp hnone⟩)
      refine Or.inr ⟨List.count_eq_zero.mpr hb, v, ?_, fun w hw => ?_⟩
      · exact List.count_eq_one_of_mem (h.nodup v) hv
      · exact List.count_eq_zero.mpr (h.apart v w hw.symm k hv)

end RefAdj

open RefAdj

/-- **`ref_adj` is a multimap.**  In every state that calls reach the lists end,
they and the blank list share out the pool, and the list of a node holds exactly
the references that were added and not removed.  A call on one node leaves the
lists of the other nodes as they are. -/
theorem adj_multimap {mem a : RefAdj} {calls : List AdjCall} (h : Reached mem calls a) :
    (∃ blank, a.Pooled blank) ∧
    (∀ node, (a.refs node : Multiset Int) = adjContents calls node ∧
      a.degree node = (adjContents calls node).card) ∧
    (∀ node reference,
      (reference ∈ adjContents calls node → ∃ a', a.remove node reference = .ok a' ∧
        a'.refs node = (a.refs node).erase reference) ∧
      (reference ∉ adjContents calls node →
        a.remove node reference = .error .invalid ∧ (AdjCall.remove node reference).leave a = a) ∧
      (0 ≤ node → node + 100 ≤ refIntMax → a.blank ≠ refEmpty ∨ a.nitem < refIntMax →
        (∃ a', a.add node reference = .ok a') ∧ ∃ a', a.addUniquely node reference = .ok a')) ∧
    ∀ call : AdjCall, (∀ a', call.run a = .ok a' → ∀ w, w ≠ call.node → a'.refs w = a.refs w) ∧
      ∀ w, (call.leave a).refs w = a.refs w := by
  have hold := h.holding
  refine ⟨hold.inv.pooled, fun node => ⟨hold.refs node, ?_⟩, fun node reference =>
    ⟨fun hmem => ?_, fun hnot => ⟨?_, rfl⟩, fun hpos hfit hroom => ⟨?_, ?_⟩⟩, fun call => ⟨?_, ?_⟩⟩
  · rw [← hold.refs node, Multiset.coe_card, degree_eq_length]
  · obtain ⟨a', hok, _, _, herase, _⟩ := remove_spec hold.inv (hold.mem_iff.mpr hmem)
    exact ⟨a', hok, herase⟩
  · exact remove_absent hold.inv (mt hold.mem_iff.mp hnot)
  · exact add_ok_of_room reference hpos hfit hroom
  · unfold addUniquely
    split
    · exact ⟨a, rfl⟩
    · exact add_ok_of_room reference hpos hfit hroom
  · exact fun a' hrun => (hold.run hrun).2
  · exact (hold.leave call).2

/-- Memory before the first allocation. -/
def zeroAdj : RefAdj :=
  { nnode := 0, nitem := 0, first := fun _ => 0, itemNext := fun _ => 0, itemRef := fun _ => 0,
    blank := 0 }

theorem adj_multimap_twice :
    (((((create zeroAdj).link 3 7).link 3 7).refs 3 : List Int) : Multiset Int) =
        adjContents [.add 3 7, .add 3 7] 3 ∧
      (((create zeroAdj).link 3 7).link 3 7).degree 3 = 2 := by
  have hone : Reached zeroAdj [.add 3 7] ((create zeroAdj).link 3 7) :=
    .done (.add 3 7) .created rfl
  have htwo : Reached zeroAdj [.add 3 7, .add 3 7] (((create zeroAdj).link 3 7).link 3 7) :=
    .done (.add 3 7) hone rfl
  obtain ⟨hrefs, hdegree⟩ := (adj_multimap htwo).2.1 3
  exact ⟨hrefs, hdegree⟩

end RefineMesh
