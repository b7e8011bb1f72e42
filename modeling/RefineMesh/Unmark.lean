import Mathlib.Tactic
import RefineMesh.Relax

/-!
# Taking marks back

`ref_subdiv_unmark_relax` takes marks away until every tet can be cut.  Each
sweep goes over the tets of a rank with the marks changing under it; then an
edge keeps its mark only when all its copies have it, and the ranks stop
together when no rank has taken a mark away.
-/

namespace RefineMesh

open Spmd

variable {D : Type}

/-- The sweep at which `ref_subdiv_unmark_relax` gives up. -/
def sweepLimit : Nat := 200

namespace RefSubdiv

variable (s : RefSubdiv D)

/-- The marked edges that a rank owns. -/
def ownMarks (mark : Nat → Int) : Nat :=
  ((List.range s.edge.n).filter fun edge =>
    mark edge ≠ 0 ∧ s.edge.edgePart s.grid.node edge = s.grid.node.rank).length

/-- `ref_subdiv_mark_n`. -/
def markN {α : Type} (mark : Nat → Int) (k : Int → RankProg D α) : RankProg D α :=
  .allsum (s.ownMarks mark) k

/-- `ref_subdiv_unmark_one_of_two`: the edge with the larger globals. -/
def unmarkOneOfTwo (e0 e1 : Nat) (mark : Nat → Int) : Nat → Int :=
  let e0min := min (s.edge.endGlobal s.grid.node e0 0) (s.edge.endGlobal s.grid.node e0 1)
  let e0max := max (s.edge.endGlobal s.grid.node e0 0) (s.edge.endGlobal s.grid.node e0 1)
  let e1min := min (s.edge.endGlobal s.grid.node e1 0) (s.edge.endGlobal s.grid.node e1 1)
  let e1max := max (s.edge.endGlobal s.grid.node e1 0) (s.edge.endGlobal s.grid.node e1 1)
  if e0min = e1min then
    if e0max < e1max then Function.update mark e1 0 else Function.update mark e0 0
  else
    if e0min < e1min then Function.update mark e1 0 else Function.update mark e0 0

/-- `ref_subdiv_unmark_tet_face`; each test sees the marks that the one before
left. -/
def unmarkTetFace (refCell : RefCell) (cell s0 s1 s2 : Nat) (acc : Relaxation) :
    Except Status Relaxation := do
  let e0 ← s.c2e refCell s0 cell
  let e1 ← s.c2e refCell s1 cell
  let e2 ← s.c2e refCell s2 cell
  let acc := if acc.1 e0 ≠ 0 ∧ acc.1 e1 ≠ 0 ∧ acc.1 e2 = 0 then
    (s.unmarkOneOfTwo e0 e1 acc.1, true) else acc
  let acc := if acc.1 e0 ≠ 0 ∧ acc.1 e1 = 0 ∧ acc.1 e2 ≠ 0 then
    (s.unmarkOneOfTwo e0 e2 acc.1, true) else acc
  let acc := if acc.1 e0 = 0 ∧ acc.1 e1 ≠ 0 ∧ acc.1 e2 ≠ 0 then
    (s.unmarkOneOfTwo e1 e2 acc.1, true) else acc
  .ok acc

/-- `ref_subdiv_unmark_tet_opp_edge`. -/
def unmarkTetOppEdge (refCell : RefCell) (cell s0 s1 : Nat) (acc : Relaxation) :
    Except Status Relaxation := do
  let e0 ← s.c2e refCell s0 cell
  let e1 ← s.c2e refCell s1 cell
  .ok (if acc.1 e0 ≠ 0 ∧ acc.1 e1 ≠ 0 then (s.unmarkOneOfTwo e0 e1 acc.1, true) else acc)

/-- The last part of `ref_subdiv_unmark_tet`: two marked edges without a
common node. -/
def unmarkTetOpp (cell : Nat) (acc : Relaxation) : Except Status Relaxation := do
  let refCell := s.grid.cell .tet
  let ge0 ← s.c2e refCell 0 cell
  let ge1 ← s.c2e refCell 1 cell
  let ge2 ← s.c2e refCell 2 cell
  let ge3 ← s.c2e refCell 3 cell
  let ge4 ← s.c2e refCell 4 cell
  let ge5 ← s.c2e refCell 5 cell
  let sum := acc.1 ge0 + acc.1 ge1 + acc.1 ge2 + acc.1 ge3 + acc.1 ge4 + acc.1 ge5
  if sum = 2 then do
    let acc ← s.unmarkTetOppEdge refCell cell 0 5 acc
    let acc ← s.unmarkTetOppEdge refCell cell 1 4 acc
    s.unmarkTetOppEdge refCell cell 2 3 acc
  else .ok acc

/-- `ref_subdiv_unmark_tet`. -/
def unmarkTet (cell : Nat) (acc : Relaxation) : Except Status Relaxation := do
  let refCell := s.grid.cell .tet
  let acc ← s.unmarkTetFace refCell cell 3 4 5 acc
  let acc ← s.unmarkTetFace refCell cell 1 2 5 acc
  let acc ← s.unmarkTetFace refCell cell 0 4 2 acc
  let acc ← s.unmarkTetFace refCell cell 0 1 3 acc
  s.unmarkTetOpp cell acc

/-- The loops over the cells; the `switch` leaves other cells alone. -/
def unmarkSweep (mark : Nat → Int) : Except Status Relaxation :=
  types3d.foldlM (fun acc t =>
    (s.grid.cell t).validCells.foldlM (fun acc cell =>
      if (s.grid.cell t).nodePer = 4 then s.unmarkTet cell acc else .ok acc) acc)
    (mark, false)

/-- The end of a sweep after its exchange: `left` sweeps are left, and `next`
is what follows when a rank has taken a mark away. -/
def unmarkNext (left : Nat) (mark : Nat → Int) (again : Bool) (next : RankProg D (Nat → Int)) :
    RankProg D (Nat → Int) :=
  let rest : RankProg D (Nat → Int) :=
    if left = 0 then .fail .failure
    else allOr again fun again => if again then next else .ret mark
  if 5 < sweepLimit - left then s.markN mark fun _ => rest else rest

/-- The `while` of `ref_subdiv_unmark_relax` with as many sweeps left as the
limit allows. -/
def unmarkSweeps (p : Nat) (mem : Nat → RequestMemory Int) :
    Nat → (Nat → Int) → RankProg D (Nat → Int)
  | 0, _ => .fail .failure
  | left+1, mark =>
      (Prog.lift (s.unmarkSweep mark)).bind fun acc =>
        (s.edge.ghostMinInt p s.grid.node acc.1 (mem left)).bind fun mark =>
          s.unmarkNext left mark acc.2 (unmarkSweeps p mem left mark)

/-- `ref_subdiv_unmark_relax`; `mem` is the memory of the exchanges. -/
def unmarkRelax (p : Nat) (mem : Nat → RequestMemory Int) : RankProg D (Nat → Int) :=
  (s.edge.ghostInt p s.grid.node s.mark (mem sweepLimit)).bind fun mark =>
    s.unmarkSweeps p mem sweepLimit mark

end RefSubdiv

end RefineMesh
