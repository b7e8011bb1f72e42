import Mathlib.Tactic
import RefineMesh.LinkedSlots
import RefineMesh.Mpi

/-!
# The agent store

`REF_AGENTS_STRUCT` keeps the agents of a rank in slots: the active slots form
a doubly linked list that ends at `last`, the others the blank list.
`ref_agents_migrate` sends every agent to the rank that its mode asks for, in
three messages that are put together again on arrival.
-/

namespace RefineMesh

open Segments SlotList Spmd

variable {D : Type}

/-- `REF_AGENT_MODES`. -/
inductive AgentMode
  | unused
  | walking
  | atBoundary
  | hopPart
  | suggestion
  | enclosing
  | terminated
  | new
  | modeLast
  deriving DecidableEq, Repr

namespace AgentMode

/-- The mode as a `REF_INT`. -/
def code : AgentMode → Int
  | unused => 0
  | walking => 1
  | atBoundary => 2
  | hopPart => 3
  | suggestion => 4
  | enclosing => 5
  | terminated => 6
  | new => 7
  | modeLast => 8

/-- The cast back to a mode. -/
def ofCode (c : Int) : AgentMode :=
  if c = 0 then unused
  else if c = 1 then walking
  else if c = 2 then atBoundary
  else if c = 3 then hopPart
  else if c = 4 then suggestion
  else if c = 5 then enclosing
  else if c = 6 then terminated
  else if c = 7 then new
  else modeLast

theorem ofCode_code (m : AgentMode) : ofCode m.code = m := by cases m <;> rfl

end AgentMode

/-- `REF_AGENT_STRUCT`, without its two links. -/
structure Agent (D : Type) where
  mode : AgentMode
  home : Int
  node : Int
  part : Int
  seed : Int
  global : Int
  step : Int
  xyz : Fin 3 → D
  bary : Fin 4 → D

/-- `REF_AGENTS_STRUCT`, with the links of the agents as arrays of their own
and the rank of `ref_mpi`. -/
structure RefAgents (D : Type) where
  n : Nat
  max : Nat
  blank : Int
  last : Int
  previous : Nat → Int
  next : Nat → Int
  agent : Nat → Agent D
  rank : Nat

namespace RefAgents

/-- `ref_agent_valid` of a slot index. -/
def Active (s : RefAgents D) (id : Nat) : Prop := id < s.max ∧ (s.agent id).mode ≠ .unused

instance (s : RefAgents D) : DecidablePred s.Active :=
  fun id => inferInstanceAs (Decidable (id < s.max ∧ (s.agent id).mode ≠ .unused))

/-- The slots from `orig` on, unused and linked into a blank list. -/
def linkAgents (orig max : Nat) (s : RefAgents D) : RefAgents D :=
  { s with
    max := max
    agent := fun id =>
      if orig ≤ id ∧ id < max then { s.agent id with mode := .unused } else s.agent id
    previous := fun id => if orig ≤ id ∧ id < max then refEmpty else s.previous id
    next := linkFresh (↑) refEmpty orig max s.next
    blank := orig }

/-- `ref_agents_create`, over memory `mem` that the allocation does not clear. -/
def create (mem : RefAgents D) (rank : Nat) : RefAgents D :=
  { linkAgents 0 10 mem with n := 0, last := refEmpty, rank := rank }

/-- The growth of `ref_agents_new`. -/
def grow (s : RefAgents D) : Except Status (RefAgents D) :=
  if s.blank ≠ refEmpty then .ok s
  else
    let orig := s.max
    let chunk := Nat.max 5000 (3 * orig / 2)
    if refIntMax < orig + chunk then .error .undefined
    else .ok (linkAgents orig (orig + chunk) s)

/-- `ref_agents_new`. -/
def new (s : RefAgents D) : Except Status (RefAgents D × Nat) := do
  let s ← s.grow
  let id := s.blank.toNat
  .ok ({ s with
    blank := s.next id
    next := Function.update (relink refEmpty s.next s.last id) id refEmpty
    agent := Function.update s.agent id { s.agent id with mode := .new }
    previous := Function.update s.previous id s.last
    last := id
    n := s.n + 1 }, id)

/-- The fields of an agent are assigned. -/
def write (s : RefAgents D) (id : Nat) (a : Agent D) : RefAgents D :=
  { s with agent := Function.update s.agent id a }

/-- `ref_agents_push`. -/
def push (s : RefAgents D) (node part seed : Int) (xyz : Fin 3 → D) :
    Except Status (RefAgents D × Nat) := do
  let (s, id) ← s.new
  .ok (s.write id { s.agent id with
    mode := .walking
    home := s.rank
    node := node
    part := part
    seed := seed
    global := refEmpty
    step := 0
    xyz := xyz }, id)

/-- `ref_agents_remove`. -/
def remove (s : RefAgents D) (id : Int) : Except Status (RefAgents D) :=
  if id < 0 ∨ s.max ≤ id then .error .invalid
  else if (s.agent id.toNat).mode = .unused then .error .invalid
  else
    let k := id.toNat
    let next := relink refEmpty s.next (s.previous k) (s.next k)
    let previous := relink refEmpty s.previous (next k) (s.previous k)
    .ok { s with
      last := if s.last = id then s.previous k else s.last
      agent := Function.update s.agent k { s.agent k with mode := .unused }
      previous := Function.update previous k refEmpty
      next := Function.update next k s.blank
      blank := id
      n := s.n - 1 }

/-- `ref_agents_pop`; the results are the node, part, seed and xyz of the
agent. -/
def pop (s : RefAgents D) : Except Status (RefAgents D × Int × Int × Int × (Fin 3 → D)) :=
  if s.last = refEmpty then .error .notFound
  else do
    let a := s.agent s.last.toNat
    let s ← s.remove s.last
    .ok (s, a.node, a.part, a.seed, a.xyz)

/-- The body of the loop of `ref_agents_delete`. -/
def deleteStep (node : Int) (s : RefAgents D) (id : Nat) : Except Status (RefAgents D) :=
  if (s.agent id).mode ≠ .unused then
    if node = (s.agent id).node then s.remove id else .ok s
  else .ok s

/-- `ref_agents_delete`. -/
def delete (s : RefAgents D) (node : Int) : Except Status (RefAgents D) :=
  if node < 0 then .error .invalid
  else (List.range s.max).foldlM (deleteStep node) s

end RefAgents

/-! ## Migration -/

namespace Agent

/-- `ref_agents_dest`. -/
def dest (a : Agent D) : Except Status Int :=
  match a.mode with
  | .walking => .ok a.part
  | .atBoundary => .ok a.home
  | .hopPart => .ok a.part
  | .suggestion => .ok a.home
  | .enclosing => .ok a.home
  | .terminated => .ok a.home
  | .unused => .error .failure
  | .new => .error .failure
  | .modeLast => .error .failure

/-- The six entries of `send_int`. -/
def ints (a : Agent D) (l : Nat) : Int :=
  [a.mode.code, a.home, a.node, a.part, a.seed, a.step].getD l 0

/-- The seven entries of `send_dbl`. -/
def dbls (a : Agent D) (l : Nat) : D :=
  if h : l < 3 then a.xyz ⟨l, h⟩
  else if h : l - 3 < 4 then a.bary ⟨l - 3, h⟩
  else a.xyz ⟨0, by decide⟩

/-- An agent from record `rec` of the three receive buffers. -/
def ofRecords (recvInt recvGlob : Nat → Int) (recvDbl : Nat → D) (rec : Nat) : Agent D :=
  { mode := .ofCode (recvInt (0 + rec * 6))
    home := recvInt (1 + rec * 6)
    node := recvInt (2 + rec * 6)
    part := recvInt (3 + rec * 6)
    seed := recvInt (4 + rec * 6)
    step := recvInt (5 + rec * 6)
    global := recvGlob (0 + rec * 1)
    xyz := fun i => recvDbl (i + rec * 7)
    bary := fun i => recvDbl (3 + i + rec * 7) }

end Agent

/-- The send buffers of `ref_agents_migrate`. -/
structure Outgoing (D : Type) where
  agents : RefAgents D
  nsend : Nat
  destination : Nat → Nat
  sendInt : Nat → Int
  sendGlob : Nat → Int
  sendDbl : Nat → D

/-- The memory of the buffers of `ref_agents_migrate` and of its blind sends. -/
structure MigrateMemory (D : Type) where
  destination : Nat → Nat
  sendInt : Nat → Int
  sendGlob : Nat → Int
  sendDbl : Nat → D
  aInt : Nat → Int
  aGlob : Nat → Int
  aDbl : Nat → D
  recvInt : Nat → Int
  recvGlob : Nat → Int
  recvDbl : Nat → D

namespace RefAgents

/-- The body of the first loop of `ref_agents_migrate`: the agents to send are
counted. -/
def countStep (s : RefAgents D) (nsend id : Nat) : Except Status Nat :=
  if s.Active id then do
    let dest ← (s.agent id).dest
    .ok (if (s.rank : Int) ≠ dest then nsend + 1 else nsend)
  else .ok nsend

/-- The body of the second loop: an agent is packed and removed.  With more
than one rank a destination that is not a rank is an index outside the sizes
of the blind send. -/
def packStep (p : Nat) (out : Outgoing D) (id : Nat) : Except Status (Outgoing D) :=
  if out.agents.Active id then do
    let a := out.agents.agent id
    let dest ← a.dest
    if (out.agents.rank : Int) ≠ dest then
      if 1 < p ∧ (dest < 0 ∨ p ≤ dest) then .error .undefined
      else do
        let agents ← out.agents.remove id
        .ok { agents := agents
              nsend := out.nsend + 1
              destination := Function.update out.destination out.nsend dest.toNat
              sendInt := storeRecord 6 a.ints out.nsend out.sendInt
              sendGlob := storeRecord 1 (fun _ => a.global) out.nsend out.sendGlob
              sendDbl := storeRecord 7 a.dbls out.nsend out.sendDbl }
    else .ok out
  else .ok out

/-- The two loops before the blind sends; the lengths of the buffers are
computed in `REF_INT`. -/
def pack (p : Nat) (s : RefAgents D) (mem : MigrateMemory D) : Except Status (Outgoing D) := do
  let nsend ← (List.range s.max).foldlM s.countStep 0
  if refIntMax < 7 * nsend then .error .undefined
  else
    (List.range s.max).foldlM (packStep p)
      { agents := s
        nsend := 0
        destination := mem.destination
        sendInt := mem.sendInt
        sendGlob := mem.sendGlob
        sendDbl := mem.sendDbl }

/-- The loop after the blind sends. -/
def receive (s : RefAgents D) (nrecv : Nat) (recvInt recvGlob : Nat → Int) (recvDbl : Nat → D) :
    Except Status (RefAgents D) :=
  (List.range nrecv).foldlM (fun s rec => do
    let (s, id) ← s.new
    .ok (s.write id (Agent.ofRecords recvInt recvGlob recvDbl rec))) s

/-- `ref_agents_migrate`. -/
def migrate (p : Nat) (s : RefAgents D) (mem : MigrateMemory D) : RankProg D (RefAgents D) :=
  (Prog.lift (s.pack p mem)).bind fun out =>
    (blindsend p out.destination .int out.sendInt 6 out.nsend mem.aInt mem.recvInt).bind fun ints =>
      (blindsend p out.destination .long out.sendGlob 1 out.nsend mem.aGlob mem.recvGlob).bind
        fun globs =>
          (blindsend p out.destination .dbl out.sendDbl 7 out.nsend mem.aDbl mem.recvDbl).bind
            fun dbls => Prog.lift (out.agents.receive dbls.2 ints.1 globs.1 dbls.1)

end RefAgents

end RefineMesh
